import Ryll.Foundation.Reserving
import Ryll.Protocol.Reader

/-!
# The messages of the link handshake

A client opens a connection with a link message, and the server answers with a link reply.  Both
declare the size of their body and the numbers of their capability words, and the link message also
the offset of the words in the body.
-/

namespace Ryll

open BoundedReader List Reserving WireNumber

def spiceMagic : Bytes := [0x52, 0x45, 0x44, 0x51]

def spiceVersionMajor : UInt32 := 2

def spiceVersionMinor : UInt32 := 2

def maxLinkMessageSize : Nat := 4096

def maxCapWords : Nat := 16

/-- The result that the server reports. -/
inductive SpiceError
  | ok
  | error
  | invalidMagic
  | invalidData
  | versionMismatch
  | needSecured
  | needUnsecured
  | permissionDenied
  | badConnectionId
  | channelUnavailable
  deriving DecidableEq

namespace SpiceError

def fromU32 (value : UInt32) : SpiceError :=
  match value.toNat with
  | 0 => ok
  | 1 => error
  | 2 => invalidMagic
  | 3 => invalidData
  | 4 => versionMismatch
  | 5 => needSecured
  | 6 => needUnsecured
  | 7 => permissionDenied
  | 8 => badConnectionId
  | 9 => channelUnavailable
  | _ => error

def toU32 : SpiceError → UInt32
  | ok => 0
  | error => 1
  | invalidMagic => 2
  | invalidData => 3
  | versionMismatch => 4
  | needSecured => 5
  | needUnsecured => 6
  | permissionDenied => 7
  | badConnectionId => 8
  | channelUnavailable => 9

theorem fromU32_toU32 (status : SpiceError) : fromU32 status.toU32 = status := by
  cases status <;> rfl

end SpiceError

/-! ## The header -/

/-- The header of both messages. -/
structure LinkHeader where
  minor : UInt32
  size : UInt32

namespace LinkHeader

def write (header : LinkHeader) : Bytes :=
  spiceMagic ++ (toLeBytes spiceVersionMajor ++ (toLeBytes header.minor ++ toLeBytes header.size))

/-- Read the header of a message whose size errors call `what`. -/
def read (what : String) : Reading LinkHeader := do
  let magic ← readBytes 4
  if magic ≠ spiceMagic then
    refuse (.badMagic magic)
  else
    let major ← readU32
    let minor ← readU32
    if major ≠ spiceVersionMajor then
      refuse (.unsupportedVersion major minor)
    else
      let size ← readU32
      if maxLinkMessageSize < size.toNat then
        refuse (.tooLarge what size.toNat maxLinkMessageSize)
      else
        return ⟨minor, size⟩

end LinkHeader

/-- The size of the body that the header of a message declares, and its reader. -/
def openBody (what : String) (data : Bytes) : Outcome LinkError (Nat × BoundedReader) := do
  let (header, reader) ← LinkHeader.read what (.new data)
  let body ← reader.subReader 16 header.size.toNat
  return (header.size.toNat, body)

/-! ## The capability words -/

/-- Room for the words is reserved before they are read. -/
def readReservedVecU32 (count max : Nat) (reader : BoundedReader) :
    Reserving LinkError (List UInt32 × BoundedReader) :=
  if max < count then
    liftM (.error (.tooLarge "count" count max) : Outcome LinkError (List UInt32 × BoundedReader))
  else do
    reserve count
    readMany readU32 count reader

/-- The words that a body holds, and where. -/
structure CapsFields where
  numCommonCaps : UInt32
  numChannelCaps : UInt32
  capsOffset : UInt32

namespace CapsFields

def read : Reading CapsFields := do
  let numCommonCaps ← readU32
  let numChannelCaps ← readU32
  let capsOffset ← readU32
  return ⟨numCommonCaps, numChannelCaps, capsOffset⟩

def write (fields : CapsFields) : Bytes :=
  toLeBytes fields.numCommonCaps ++
    (toLeBytes fields.numChannelCaps ++ toLeBytes fields.capsOffset)

def readCaps (fields : CapsFields) (reader : BoundedReader) :
    Reserving LinkError (List UInt32 × List UInt32) := do
  let (commonCaps, reader) ← readReservedVecU32 fields.numCommonCaps.toNat maxCapWords reader
  let (channelCaps, _) ← readReservedVecU32 fields.numChannelCaps.toNat maxCapWords reader
  return (commonCaps, channelCaps)

end CapsFields

/-! ## The link message -/

/-- What the client sends. -/
structure SpiceLinkMess where
  connectionId : UInt32
  channelType : UInt8
  channelId : UInt8
  commonCaps : List UInt32
  channelCaps : List UInt32

/-- The fields in front of the body of a link message. -/
structure LinkFields where
  connectionId : UInt32
  channelType : UInt8
  channelId : UInt8
  caps : CapsFields

namespace LinkFields

def read : Reading LinkFields := do
  let connectionId ← readU32
  let channelType ← readU8
  let channelId ← readU8
  let caps ← CapsFields.read
  return ⟨connectionId, channelType, channelId, caps⟩

def write (fields : LinkFields) : Bytes :=
  toLeBytes fields.connectionId ++ (toLeBytes fields.channelType ++
    (toLeBytes fields.channelId ++ fields.caps.write))

end LinkFields

namespace SpiceLinkMess

def serialize {ε : Type} (mess : SpiceLinkMess) : Outcome ε Bytes := do
  let numCommonCaps := UInt32.ofNat mess.commonCaps.length
  let numChannelCaps := UInt32.ofNat mess.channelCaps.length
  let capsOffset : UInt32 := 18
  let words ← addChecked 32 numCommonCaps.toNat numChannelCaps.toNat
  let size := capsOffset.toNat + words * 4
  let fields : LinkFields := ⟨mess.connectionId, mess.channelType, mess.channelId,
    numCommonCaps, numChannelCaps, capsOffset⟩
  return LinkHeader.write ⟨spiceVersionMinor, UInt32.ofNat size⟩ ++ (fields.write ++
    (mess.commonCaps.flatMap toLeBytes ++ mess.channelCaps.flatMap toLeBytes))

/-- The words run from their offset to the end of the declared body. -/
def capsReader (body : BoundedReader) (size capsOffset : Nat) : Outcome LinkError BoundedReader :=
  if capsOffset ≤ size then body.subReader capsOffset (size - capsOffset)
  else .error (.badOffset capsOffset 0 size)

def parse (data : Bytes) : Reserving LinkError SpiceLinkMess := do
  let (size, body) ← openBody "link message size" data
  let (fields, body) ← LinkFields.read body
  let caps ← capsReader body size fields.caps.capsOffset.toNat
  let (commonCaps, channelCaps) ← fields.caps.readCaps caps
  return ⟨fields.connectionId, fields.channelType, fields.channelId, commonCaps, channelCaps⟩

end SpiceLinkMess

/-! ## The link reply -/

/-- What the server answers. -/
structure SpiceLinkReply where
  error : SpiceError
  pubKey : Bytes
  commonCaps : List UInt32
  channelCaps : List UInt32

/-- The fields in front of the body of a link reply. -/
structure ReplyFields where
  error : UInt32
  pubKey : Bytes
  caps : CapsFields

namespace ReplyFields

def read : Reading ReplyFields := do
  let error ← readU32
  let pubKey ← readBytes 162
  let caps ← CapsFields.read
  return ⟨error, pubKey, caps⟩

def write (fields : ReplyFields) : Bytes :=
  toLeBytes fields.error ++ (fields.pubKey ++ fields.caps.write)

end ReplyFields

namespace SpiceLinkReply

def serialize (reply : SpiceLinkReply) : Outcome LinkError Bytes :=
  if reply.pubKey.length ≠ 162 then
    .error (.badKeyLength reply.pubKey.length)
  else do
    let numCommonCaps := UInt32.ofNat reply.commonCaps.length
    let numChannelCaps := UInt32.ofNat reply.channelCaps.length
    let words ← addChecked 32 numCommonCaps.toNat numChannelCaps.toNat
    let capsOffset : UInt32 := if 0 < words then 178 else 0
    let size := 178 + words * 4
    let fields : ReplyFields :=
      ⟨reply.error.toU32, reply.pubKey, numCommonCaps, numChannelCaps, capsOffset⟩
    return LinkHeader.write ⟨spiceVersionMinor, UInt32.ofNat size⟩ ++ (fields.write ++
      (reply.commonCaps.flatMap toLeBytes ++ reply.channelCaps.flatMap toLeBytes))

/-- The words are read behind the fields, whatever their offset. -/
def parse (data : Bytes) : Reserving LinkError SpiceLinkReply := do
  let (_, body) ← openBody "link reply size" data
  let (fields, body) ← ReplyFields.read body
  let (commonCaps, channelCaps) ← fields.caps.readCaps body
  return ⟨.fromU32 fields.error, fields.pubKey, commonCaps, channelCaps⟩

end SpiceLinkReply

/-! ## Reading the parts -/

variable (what : String)

theorem LinkHeader.format :
    WireFormat (read what) write fun header => header.size.toNat ≤ maxLinkMessageSize :=
  (readBytes_format 4).bind (fun _ => spiceMagic) (fun _ _ => rfl) (fun _ _ => rfl) fun _ _ =>
    .unless (fun other _ valid => other valid.2.symm) fun genuine =>
    readNumber_format.field (fun _ => spiceVersionMajor) fun _ =>
    readNumber_format.field minor fun _ =>
    .unless (fun other _ valid => other valid.1.2.symm) fun supported =>
    readNumber_format.bind size (fun _ _ => (append_nil _).symm) (fun _ _ => trivial) fun _ _ =>
    .unless (fun large header valid => by
      obtain ⟨⟨⟨⟨small, -⟩, -⟩, -⟩, rfl⟩ := valid
      exact Nat.not_lt.mpr small large) fun small => .pure fun header => by
      constructor
      · rintro ⟨⟨-, rfl⟩, rfl⟩
        rfl
      · rintro rfl
        exact ⟨⟨⟨⟨Nat.le_of_not_lt small, (not_not.mp genuine).symm⟩,
          (not_not.mp supported).symm⟩, rfl⟩, rfl⟩

theorem LinkHeader.faultless : Faultless (read what) :=
  (readBytes_faultless 4).bind fun _ => .unless <| readNumber_faultless.bind fun _ =>
    readNumber_faultless.bind fun _ => .unless <| readNumber_faultless.bind fun _ =>
      .unless <| .pure _

@[simp]
theorem LinkHeader.length_write (header : LinkHeader) : header.write.length = 16 := by
  simp [write, spiceMagic, width]

/-- Bytes that start with a header and the body it declares. -/
def Holds (data body : Bytes) : Prop :=
  ∃ minor trailing, data = LinkHeader.write ⟨minor, UInt32.ofNat body.length⟩ ++ (body ++ trailing)

theorem openBody_ok {data body : Bytes} (holds : Holds data body)
    (small : body.length ≤ maxLinkMessageSize) :
    openBody what data = .ok (body.length, .new body) := by
  obtain ⟨minor, trailing, rfl⟩ := holds
  have limit : maxLinkMessageSize = 4096 := rfl
  have size : (UInt32.ofNat body.length).toNat = body.length :=
    UInt32.toNat_ofNat_of_lt' (show body.length < 2 ^ 32 by omega)
  have header := (LinkHeader.format what).complete ⟨minor, UInt32.ofNat body.length⟩ []
    (body ++ trailing) (size.symm ▸ small)
  rw [openBody, new_eq_between, header, ok_bind]
  dsimp only
  rw [size, subReader_ok (by simp [between]) (by omega)]
  simp [between]

theorem openBody_ensures (data : Bytes) :
    (openBody what data).Ensures fun opened => ∃ body, Holds data body ∧
      body.length ≤ maxLinkMessageSize ∧ opened = (body.length, .new body) := by
  refine ((LinkHeader.format what).ensures (LinkHeader.faultless what) [] data).bind ?_
  rintro _ ⟨⟨minor, size⟩, rest, small, rfl, rfl⟩
  refine (subReader_ensures _ _ _).bind ?_
  rintro _ ⟨inside, rfl⟩
  have region : (((between ([] ++ LinkHeader.write ⟨minor, size⟩) rest).data.drop 16).take
      size.toNat) = rest.take size.toNat := by
    simp [between]
  have length : (rest.take size.toNat).length = size.toNat := by
    simp [between] at inside
    simp [inside]
  refine ⟨rest.take size.toNat, ⟨minor, rest.drop size.toNat, ?_⟩, ?_, ?_⟩
  · rw [length, take_append_drop, UInt32.ofNat_toNat]
  · rwa [length]
  · rw [region, length]

variable (count max : Nat)

@[simp]
theorem outcome_readReservedVecU32 (reader : BoundedReader) :
    (readReservedVecU32 count max reader).outcome = readVecU32 count max reader := by
  rw [readReservedVecU32, readVecU32]
  split <;> rfl

theorem readReservedVecU32_within (reader : BoundedReader) :
    (readReservedVecU32 count max reader).Within 1 max := by
  rw [readReservedVecU32]
  split
  · exact ⟨Nat.zero_le 1, nofun⟩
  · next few =>
    exact (within_reserve (Nat.le_of_not_lt few)).bind fun _ =>
      within_lift max _

theorem readVecU32_format : WireFormat (readVecU32 count max) (List.flatMap toLeBytes) fun words =>
      words.length = count ∧ count ≤ max :=
  .unless (fun many _ valid => Nat.not_lt.mpr valid.2 many) fun few =>
    (readNumber_format.many count).congr
      (fun _ => and_congr_right fun _ => ⟨fun _ => Nat.le_of_not_lt few, fun _ _ _ => trivial⟩)
      fun _ _ => rfl

theorem readVecU32_faultless : Faultless (readVecU32 count max) :=
  .unless (readNumber_faultless.many count)

/-- The words that the fields count are the first of the bytes. -/
structure WordsIn (bytes : Bytes) (fields : CapsFields) (commonCaps channelCaps : List UInt32) :
    Prop where
  common : commonCaps.length = fields.numCommonCaps.toNat
  channel : channelCaps.length = fields.numChannelCaps.toNat
  common_le : commonCaps.length ≤ maxCapWords
  channel_le : channelCaps.length ≤ maxCapWords
  inside : commonCaps.flatMap toLeBytes ++ channelCaps.flatMap toLeBytes <+: bytes

namespace CapsFields

theorem format : WireFormat read write fun _ => True :=
  readNumber_format.field numCommonCaps fun _ =>
    readNumber_format.field numChannelCaps fun _ =>
    readNumber_format.last capsOffset (fun _ _ => trivial) fun _ _ fields => by
      cases fields
      simp [and_assoc]

theorem faultless : Faultless read :=
  readNumber_faultless.bind fun _ => readNumber_faultless.bind fun _ =>
    readNumber_faultless.bind fun _ => .pure _

variable (fields : CapsFields)

theorem readCaps_ok {commonCaps channelCaps : List UInt32} (before : Bytes) {rest : Bytes}
    (words : WordsIn rest fields commonCaps channelCaps) :
    (fields.readCaps (between before rest)).outcome = .ok (commonCaps, channelCaps) := by
  obtain ⟨common, channel, common_le, channel_le, after, rfl⟩ := words
  have first := (readVecU32_format _ maxCapWords).complete commonCaps before
    (channelCaps.flatMap toLeBytes ++ after) ⟨common, common ▸ common_le⟩
  have second := (readVecU32_format _ maxCapWords).complete channelCaps
    (before ++ commonCaps.flatMap toLeBytes) after ⟨channel, channel ▸ channel_le⟩
  simp only [readCaps, append_assoc, outcome_bind, outcome_readReservedVecU32, first,
    ok_bind, second, outcome_pure]

theorem readCaps_ensures (before rest : Bytes) :
    (fields.readCaps (between before rest)).outcome.Ensures fun words =>
      WordsIn rest fields words.1 words.2 := by
  simp only [readCaps, outcome_bind, outcome_readReservedVecU32]
  refine ((readVecU32_format _ _).ensures (readVecU32_faultless _ _) before rest).bind ?_
  rintro _ ⟨commonCaps, after, ⟨common, common_le⟩, rfl, rfl⟩
  refine ((readVecU32_format _ _).ensures (readVecU32_faultless _ _) _ after).bind ?_
  rintro _ ⟨channelCaps, after, ⟨channel, channel_le⟩, rfl, rfl⟩
  exact ⟨common, channel, common ▸ common_le, channel ▸ channel_le, after, append_assoc _ _ _⟩

theorem readCaps_within (reader : BoundedReader) : (fields.readCaps reader).Within 2 maxCapWords :=
  (readReservedVecU32_within _ _ _).bind fun _ =>
    (readReservedVecU32_within _ _ _).bind fun _ => within_pure _ _

end CapsFields

theorem CapsFields.length_write (fields : CapsFields) : fields.write.length = 12 := by
  simp [write, width]

namespace LinkFields

theorem format : WireFormat read write fun _ => True :=
  readNumber_format.field connectionId fun _ =>
    readNumber_format.field channelType fun _ =>
    readNumber_format.field channelId fun _ =>
    CapsFields.format.last caps (fun _ _ => trivial) fun _ _ fields => by
      cases fields
      simp [and_assoc]

theorem faultless : Faultless read :=
  readNumber_faultless.bind fun _ => readNumber_faultless.bind fun _ =>
    readNumber_faultless.bind fun _ => CapsFields.faultless.bind fun _ => .pure _

theorem length_write (fields : LinkFields) : fields.write.length = 18 := by
  simp [write, width, CapsFields.length_write]

end LinkFields

namespace ReplyFields

theorem format : WireFormat read write fun fields => fields.pubKey.length = 162 :=
  readNumber_format.field error fun _ =>
    (readBytes_format 162).bind pubKey (fun _ _ => rfl) (fun _ valid => valid.1) fun _ sized =>
    CapsFields.format.last caps (fun _ _ => trivial) fun _ _ fields => by
      constructor
      · rintro ⟨⟨⟨-, rfl⟩, rfl⟩, rfl⟩
        rfl
      · rintro rfl
        exact ⟨⟨⟨sized, rfl⟩, rfl⟩, rfl⟩

theorem faultless : Faultless read :=
  readNumber_faultless.bind fun _ => (readBytes_faultless 162).bind fun _ =>
    CapsFields.faultless.bind fun _ => .pure _

theorem length_write (fields : ReplyFields) (sized : fields.pubKey.length = 162) :
    fields.write.length = 178 := by
  simp [write, sized, width, CapsFields.length_write]

end ReplyFields

/-! ## The exchange -/

/-- The message of a body. -/
def message (body : Bytes) : Bytes :=
  LinkHeader.write ⟨spiceVersionMinor, UInt32.ofNat body.length⟩ ++ body

/-- What one side serializes the other parses, also with bytes appended.  On any bytes the parser
returns, reserves little room, and accepts only the whole declared body. -/
structure Exchanged {α : Type} (serialize : α → Outcome LinkError Bytes)
    (parse : Bytes → Reserving LinkError α) (allowed : α → Prop)
    (inBody : α → Bytes → Prop) : Prop where
  returned : ∀ value, allowed value → ∃ body,
    serialize value = .ok (message body) ∧ body.length ≤ maxLinkMessageSize ∧
      ∀ padding trailing, (body ++ padding).length ≤ maxLinkMessageSize →
        (parse (message (body ++ padding) ++ trailing)).outcome = .ok value
  accepted : ∀ data, (parse data).outcome.Ensures fun value => ∃ body,
    Holds data body ∧ body.length ≤ maxLinkMessageSize ∧ inBody value body
  reserved : ∀ data, (parse data).Within 2 maxCapWords

theorem Exchanged.of_body {α : Type} {serialize : α → Outcome LinkError Bytes}
    {parse : Bytes → Reserving LinkError α} {allowed : α → Prop}
    {inBody : α → Bytes → Prop} {what : String}
    {rest : Nat × BoundedReader → Reserving LinkError α}
    (parses : ∀ data, parse data = (liftM (openBody what data) >>= rest))
    (returned : ∀ value, allowed value → ∃ body,
      serialize value = .ok (message body) ∧ body.length ≤ maxLinkMessageSize ∧
      ∀ padding, (body ++ padding).length ≤ maxLinkMessageSize →
        (rest ((body ++ padding).length, .new (body ++ padding))).outcome = .ok value)
    (accepted : ∀ body, (rest (body.length, .new body)).outcome.Ensures (inBody · body))
    (reserved : ∀ opened, (rest opened).Within 2 maxCapWords) :
    Exchanged serialize parse allowed inBody where
  returned value valid := by
    obtain ⟨body, serialized, small, parsed⟩ := returned value valid
    refine ⟨body, serialized, small, fun padding trailing fits => ?_⟩
    have holds : Holds (message (body ++ padding) ++ trailing) (body ++ padding) :=
      ⟨_, trailing, append_assoc _ _ _⟩
    rw [parses, outcome_bind, outcome_lift, openBody_ok what holds fits, ok_bind,
      parsed padding fits]
  accepted data := by
    rw [parses, outcome_bind]
    refine (openBody_ensures what data).bind ?_
    rintro _ ⟨body, holds, small, rfl⟩
    exact (accepted body).mono fun value inBody => ⟨body, holds, small, inBody⟩
  reserved data := by
    rw [parses]
    exact (within_lift _ _).bind reserved

theorem length_words (words : List UInt32) :
    (words.flatMap toLeBytes).length = words.length * 4 := by
  simp [length_flatMap, width]

theorem toNat_count {words : List UInt32} (few : words.length ≤ maxCapWords) :
    (UInt32.ofNat words.length).toNat = words.length :=
  UInt32.toNat_ofNat_of_lt' (Nat.lt_of_le_of_lt few (show 16 < 2 ^ 32 by decide))

theorem wordsIn_counted {commonCaps channelCaps : List UInt32}
    (common_le : commonCaps.length ≤ maxCapWords) (channel_le : channelCaps.length ≤ maxCapWords)
    (capsOffset : UInt32) (rest : Bytes) :
    WordsIn (commonCaps.flatMap toLeBytes ++ channelCaps.flatMap toLeBytes ++ rest)
      ⟨UInt32.ofNat commonCaps.length, UInt32.ofNat channelCaps.length, capsOffset⟩
      commonCaps channelCaps :=
  ⟨(toNat_count common_le).symm, (toNat_count channel_le).symm, common_le, channel_le,
    prefix_append _ _⟩

namespace SpiceLinkMess

/-- The message can be serialized. -/
def Allowed (mess : SpiceLinkMess) : Prop :=
  mess.commonCaps.length ≤ maxCapWords ∧ mess.channelCaps.length ≤ maxCapWords

/-- The body starts with the fields of the message, and its words lie at their offset. -/
def InBody (mess : SpiceLinkMess) (body : Bytes) : Prop :=
  ∃ fields : LinkFields, fields.write <+: body ∧
    fields.caps.capsOffset.toNat ≤ body.length ∧
    WordsIn (body.drop fields.caps.capsOffset.toNat) fields.caps mess.commonCaps
      mess.channelCaps ∧
    mess.connectionId = fields.connectionId ∧ mess.channelType = fields.channelType ∧
    mess.channelId = fields.channelId

theorem capsReader_ok {front rest : Bytes}
    (small : (front ++ rest).length ≤ maxLinkMessageSize) :
    capsReader (between front rest) (front ++ rest).length front.length =
      .ok (between [] rest) := by
  simp only [length_append, maxLinkMessageSize] at small
  have inside : front.length ≤ (front ++ rest).length := by simp
  have region : ((front ++ rest).drop front.length).take
      ((front ++ rest).length - front.length) = rest := by simp
  rw [capsReader, if_pos inside, subReader_ok (by simp [between]) (by simp; omega)]
  exact congrArg (Outcome.ok ∘ new) region

theorem capsReader_ensures {body : BoundedReader} {size : Nat} (sized : body.data.length = size)
    (capsOffset : Nat) : (capsReader body size capsOffset).Ensures fun caps =>
      capsOffset ≤ size ∧ caps = .new (body.data.drop capsOffset) := by
  rw [capsReader]
  split
  · next inside =>
    refine (subReader_ensures _ _ _).mono fun caps region => ⟨inside, ?_⟩
    rw [region.2, take_of_length_le (by rw [length_drop]; omega)]
  · trivial

theorem exchanged : Exchanged serialize parse Allowed InBody := by
  refine .of_body (fun _ => rfl) ?_ ?_ ?_
  · rintro ⟨connectionId, channelType, channelId, commonCaps, channelCaps⟩ ⟨common_le, channel_le⟩
    dsimp only at common_le channel_le
    have limit : maxCapWords = 16 := rfl
    have common := toNat_count common_le
    have channel := toNat_count channel_le
    let fields : LinkFields := ⟨connectionId, channelType, channelId,
      UInt32.ofNat commonCaps.length, UInt32.ofNat channelCaps.length, 18⟩
    let words := commonCaps.flatMap toLeBytes ++ channelCaps.flatMap toLeBytes
    have length : (fields.write ++ words).length =
        18 + (commonCaps.length + channelCaps.length) * 4 := by
      simp only [words, length_append, fields.length_write, length_words]
      omega
    refine ⟨fields.write ++ words, ?_, ?_, fun padding fits => ?_⟩
    · simp only [serialize, common, channel]
      rw [addChecked_ok (by omega), ok_bind, message, length]
      rfl
    · rw [length]
      simp only [maxLinkMessageSize]
      omega
    · rw [append_assoc] at fits
      have read := LinkFields.format.complete fields [] (words ++ padding) trivial
      have caps := capsReader_ok fits
      have found := fields.caps.readCaps_ok [] (wordsIn_counted common_le channel_le 18 padding)
      rw [fields.length_write] at caps
      simp only [append_assoc, outcome_bind, outcome_lift, new_eq_between, read,
        ok_bind]
      rw [nil_append, show fields.caps.capsOffset.toNat = 18 from rfl, caps, ok_bind, found]
      rfl
  · intro body
    simp only [new_eq_between, outcome_bind, outcome_lift]
    refine (LinkFields.format.ensures LinkFields.faultless [] body).bind ?_
    rintro _ ⟨fields, rest, -, rfl, rfl⟩
    refine (capsReader_ensures rfl _).bind ?_
    rintro _ ⟨inside, rfl⟩
    refine (fields.caps.readCaps_ensures [] _).bind fun words found => ?_
    exact ⟨fields, prefix_append _ _, inside, found, rfl, rfl, rfl⟩
  · rintro ⟨size, body⟩
    exact (within_lift _ _).bind fun _ => (within_lift _ _).bind fun _ =>
      (CapsFields.readCaps_within _ _).bind fun _ => within_pure _ _

end SpiceLinkMess

namespace SpiceLinkReply

/-- The reply can be serialized. -/
def Allowed (reply : SpiceLinkReply) : Prop :=
  reply.pubKey.length = 162 ∧ reply.commonCaps.length ≤ maxCapWords ∧
    reply.channelCaps.length ≤ maxCapWords

/-- The body starts with the fields of the reply, and its words follow. -/
def InBody (reply : SpiceLinkReply) (body : Bytes) : Prop :=
  ∃ (fields : ReplyFields) (rest : Bytes), body = fields.write ++ rest ∧
    WordsIn rest fields.caps reply.commonCaps reply.channelCaps ∧
    reply.error = .fromU32 fields.error ∧ reply.pubKey = fields.pubKey ∧
    reply.pubKey.length = 162

theorem exchanged : Exchanged serialize parse Allowed InBody := by
  refine .of_body (fun _ => rfl) ?_ ?_ ?_
  · rintro ⟨status, pubKey, commonCaps, channelCaps⟩ ⟨sized, common_le, channel_le⟩
    dsimp only at sized common_le channel_le
    have limit : maxCapWords = 16 := rfl
    have common := toNat_count common_le
    have channel := toNat_count channel_le
    let fields : ReplyFields := ⟨status.toU32, pubKey, UInt32.ofNat commonCaps.length,
      UInt32.ofNat channelCaps.length,
      if 0 < commonCaps.length + channelCaps.length then 178 else 0⟩
    let words := commonCaps.flatMap toLeBytes ++ channelCaps.flatMap toLeBytes
    have length : (fields.write ++ words).length =
        178 + (commonCaps.length + channelCaps.length) * 4 := by
      simp only [words, length_append, fields.length_write sized, length_words]
      omega
    refine ⟨fields.write ++ words, ?_, ?_, fun padding _ => ?_⟩
    · simp only [serialize, sized, ne_eq, not_true, if_false, common, channel]
      rw [addChecked_ok (by omega), ok_bind, message, length]
      rfl
    · rw [length]
      simp only [maxLinkMessageSize]
      omega
    · have read := ReplyFields.format.complete fields [] (words ++ padding) sized
      have found := fields.caps.readCaps_ok fields.write
        (wordsIn_counted common_le channel_le _ padding)
      simp only [append_assoc, outcome_bind, outcome_lift, new_eq_between, read,
        ok_bind]
      rw [nil_append, found, ok_bind, show fields.error = status.toU32 from rfl,
        SpiceError.fromU32_toU32]
      rfl
  · intro body
    simp only [new_eq_between, outcome_bind, outcome_lift]
    refine (ReplyFields.format.ensures ReplyFields.faultless [] body).bind ?_
    rintro _ ⟨fields, rest, sized, rfl, rfl⟩
    refine (fields.caps.readCaps_ensures _ rest).bind fun words found => ?_
    exact ⟨fields, rest, rfl, found, rfl, rfl, sized⟩
  · rintro ⟨size, body⟩
    exact (within_lift _ _).bind fun _ =>
      (CapsFields.readCaps_within _ _).bind fun _ => within_pure _ _

end SpiceLinkReply

open SpiceLinkReply

/-- Both messages of the handshake are exchanged. -/
theorem handshake_parsed :
    Exchanged SpiceLinkMess.serialize SpiceLinkMess.parse SpiceLinkMess.Allowed
        SpiceLinkMess.InBody ∧
      Exchanged serialize parse Allowed
        InBody :=
  ⟨SpiceLinkMess.exchanged, exchanged⟩

end Ryll
