import Ryll.Foundation.Incremental
import Ryll.Protocol.Reader

/-!
# Reassembly of guest agent messages

The bodies of successive AGENT_DATA messages form one byte stream of guest agent messages, each a
header and as many bytes as it declares.  The messages that `AgentReassembler` finds do not depend
on how the stream is cut into bodies.
-/

namespace Ryll

open List Outcome

def vdAgentProtocol : UInt32 := 1

/-- The header of an agent message. -/
structure VdAgentMessageHeader where
  /-- Should be `vdAgentProtocol`; reading does not check it. -/
  protocol : UInt32
  messageType : UInt32
  opaqueWord : UInt64
  size : UInt32
  deriving DecidableEq

namespace VdAgentMessageHeader

def wireSize : Nat := 20

def new (messageType size : UInt32) : VdAgentMessageHeader :=
  ⟨vdAgentProtocol, messageType, 0, size⟩

def read : Reading VdAgentMessageHeader := do
  let protocol ← readU32
  let messageType ← readU32
  let opaqueWord ← readU64
  let size ← readU32
  return ⟨protocol, messageType, opaqueWord, size⟩

variable (header : VdAgentMessageHeader)

def write : Bytes :=
  toLeBytes header.protocol ++ (toLeBytes header.messageType ++
    (toLeBytes header.opaqueWord ++ toLeBytes header.size))

instance : WireType VdAgentMessageHeader := ⟨read, write⟩

@[simp]
theorem length_write : header.write.length = wireSize := by
  simp [write, WireNumber.width, wireSize]

theorem format : WireFormat read write fun _ => True :=
  readNumber_format.field protocol fun _ =>
    readNumber_format.field messageType fun _ =>
      readNumber_format.field opaqueWord fun _ =>
        readNumber_format.last size (fun _ _ => trivial) fun _ _ header => by
          cases header
          simp
          tauto

theorem decode_write :
    (decode header.write : Outcome LinkError VdAgentMessageHeader) = .ok header := by
  have returned := format.complete header [] [] trivial
  rw [append_nil] at returned
  simp [decode, WireType.read, BoundedReader.new_eq_between, returned]

end VdAgentMessageHeader

/-- A whole agent message. -/
structure AgentMessage where
  header : VdAgentMessageHeader
  payload : Bytes

/-- What is found in the stream. -/
inductive AgentStreamItem
  | message (message : AgentMessage)
  | oversized (header : VdAgentMessageHeader)
  | badProtocol (header : VdAgentMessageHeader)

/-- What is being collected. -/
inductive ReassemblyState
  /-- The bytes of a header received so far. -/
  | header (filled : Bytes)
  | body (header : VdAgentMessageHeader) (payload : Bytes)
  /-- The rest of a body that is being dropped. -/
  | skip (remaining : Nat)
  /-- Nothing, until the next AGENT_DATA begins. -/
  | resync
  deriving DecidableEq

/-- Turns the bodies of successive AGENT_DATA messages back into guest agent messages. -/
structure AgentReassembler where
  /-- The largest body that is accepted. -/
  maxMessageSize : Nat
  state : ReassemblyState

namespace AgentReassembler

variable (maxMessageSize : Nat)

def new : AgentReassembler := ⟨maxMessageSize, .header []⟩

variable (reassembler : AgentReassembler)

def reset : AgentReassembler :=
  { reassembler with state := .header [] }

def atMessageBoundary : Bool :=
  match reassembler.state with
  | .header filled => filled.length == 0
  | .resync => true
  | .body _ _ => false
  | .skip _ => false

def startBody (header : VdAgentMessageHeader) (rest : Bytes) :
    ReassemblyState × Bytes × List AgentStreamItem :=
  if header.protocol ≠ vdAgentProtocol then
    (.resync, [], [.badProtocol header])
  else if maxMessageSize < header.size.toNat then
    (.skip header.size.toNat, rest, [.oversized header])
  else if header.size.toNat = 0 then
    (.header [], rest, [.message ⟨header, []⟩])
  else
    (.body header [], rest, [])

def step (state : ReassemblyState) (rest : Bytes) :
    Outcome Empty (ReassemblyState × Bytes × List AgentStreamItem) :=
  match state with
  | .header filled => do
    let wanted ← subChecked VdAgentMessageHeader.wireSize filled.length
    let count := min wanted rest.length
    let filled := filled ++ rest.take count
    let rest := rest.drop count
    if filled.length < VdAgentMessageHeader.wireSize then
      return (.header filled, rest, [])
    match (decode filled : Outcome LinkError VdAgentMessageHeader) with
    | .ok header => return startBody maxMessageSize header rest
    -- The source expects the header to decode, its length being checked.
    | _ => .fault .assertion
  | .body header payload => do
    let wanted ← subChecked header.size.toNat payload.length
    let count := min wanted rest.length
    let payload := payload ++ rest.take count
    let rest := rest.drop count
    if payload.length < header.size.toNat then
      return (.body header payload, rest, [])
    return (.header [], rest, [.message ⟨header, payload⟩])
  | .skip remaining =>
    let count := min remaining rest.length
    let rest := rest.drop count
    if count < remaining then
      .ok (.skip (remaining - count), rest, [])
    else
      .ok (.header [], rest, [])
  | .resync => .ok (.resync, [], [])

def push (chunk : Bytes) : Outcome Empty (AgentReassembler × List AgentStreamItem) := do
  let state := if reassembler.state = .resync then .header [] else reassembler.state
  let (state, found) ← drain (step reassembler.maxMessageSize) state chunk
  return ({ reassembler with state }, found)

def pushAll (reassembler : AgentReassembler) :
    List Bytes → Outcome Empty (AgentReassembler × List AgentStreamItem)
  | [] => .ok (reassembler, [])
  | chunk :: chunks => do
    let (reassembler, found) ← reassembler.push chunk
    let (reassembler, more) ← reassembler.pushAll chunks
    return (reassembler, found ++ more)

end AgentReassembler

/-! ## The stream as a sequence of messages -/

/-- A guest agent message as a well-behaved peer sends it. -/
structure StreamMessage extends AgentMessage where
  current : header.protocol = vdAgentProtocol
  sized : payload.length = header.size.toNat

namespace StreamMessage

instance : Inhabited StreamMessage := ⟨⟨⟨.new 0 0, []⟩, rfl, rfl⟩⟩

def wire (message : StreamMessage) : Bytes := message.header.write ++ message.payload

/-- What a reassembler with the given limit reports of a message. -/
def item (maxMessageSize : Nat) (message : StreamMessage) : AgentStreamItem :=
  if maxMessageSize < message.header.size.toNat then .oversized message.header
  else .message message.toAgentMessage

/-- What is reported of `kept` bytes: an oversized message is refused with its header. -/
def earlyItems (maxMessageSize : Nat) (message : StreamMessage) (kept : Nat) :
    List AgentStreamItem :=
  if VdAgentMessageHeader.wireSize ≤ kept ∧ maxMessageSize < message.header.size.toNat then
    [.oversized message.header]
  else
    []

@[simp]
theorem length_wire (message : StreamMessage) :
    message.wire.length = VdAgentMessageHeader.wireSize + message.payload.length := by
  simp [wire]

end StreamMessage

namespace AgentReassembler

open VdAgentMessageHeader

variable {maxMessageSize : Nat}

/-- Something is being collected, and it is not complete. -/
def Collecting : ReassemblyState → Prop
  | .header filled => filled.length < wireSize
  | .body header payload => payload.length < header.size.toNat
  | .skip remaining => 0 < remaining
  | .resync => False

theorem collecting_initial : Collecting (.header []) := by
  simp [Collecting, wireSize]

theorem append_take_min {front rest : Bytes} {wanted : Nat} (fits : front.length ≤ wanted) :
    front ++ rest.take (min (wanted - front.length) rest.length) = (front ++ rest).take wanted := by
  rw [take_append, take_of_length_le fits]
  congr 1
  exact take_eq_take_iff.mpr (by omega)

theorem drop_min {front rest : Bytes} {wanted : Nat} (fits : front.length ≤ wanted) :
    rest.drop (min (wanted - front.length) rest.length) = (front ++ rest).drop wanted := by
  rw [drop_append, drop_of_length_le fits, nil_append]
  rcases Nat.le_total (wanted - front.length) rest.length with enough | short
  · rw [Nat.min_eq_left enough]
  · rw [Nat.min_eq_right short, drop_length, drop_of_length_le short]

variable {filled first second : Bytes} {found : List AgentStreamItem} {final : ReassemblyState}
  (rest : Bytes)

theorem step_header (collecting : filled.length < wireSize) :
    step maxMessageSize (.header filled) rest =
      if (filled ++ rest).length < wireSize then
        .ok (.header (filled ++ rest), [], [])
      else
        match (decode ((filled ++ rest).take wireSize) :
            Outcome LinkError VdAgentMessageHeader) with
        | .ok header =>
          .ok (startBody maxMessageSize header
            ((filled ++ rest).drop wireSize))
        | _ => .fault .assertion := by
  have fits := Nat.le_of_lt collecting
  simp only [step, subChecked_ok fits, ok_bind, append_take_min fits, drop_min fits,
    pure_eq, length_take]
  by_cases short : (filled ++ rest).length < wireSize
  · rw [if_pos (by omega), if_pos short, take_of_length_le (Nat.le_of_lt short),
      drop_of_length_le (Nat.le_of_lt short)]
  · rw [if_neg (by omega), if_neg short]

variable {header : VdAgentMessageHeader} {payload : Bytes} {next state : ReassemblyState}

theorem step_body
    (collecting : payload.length < header.size.toNat) :
    step maxMessageSize (.body header payload) rest =
      if (payload ++ rest).length < header.size.toNat then
        .ok (.body header (payload ++ rest), [], [])
      else
        .ok (.header [], (payload ++ rest).drop header.size.toNat,
          [.message ⟨header, (payload ++ rest).take header.size.toNat⟩]) := by
  have fits := Nat.le_of_lt collecting
  simp only [step, subChecked_ok fits, ok_bind, append_take_min fits, drop_min fits,
    pure_eq, length_take]
  by_cases short : (payload ++ rest).length < header.size.toNat
  · rw [if_pos (by omega), if_pos short, take_of_length_le (Nat.le_of_lt short),
      drop_of_length_le (Nat.le_of_lt short)]
  · rw [if_neg (by omega), if_neg short]

theorem step_skip (remaining : Nat) (rest : Bytes) :
    step maxMessageSize (.skip remaining) rest =
      if rest.length < remaining then .ok (.skip (remaining - rest.length), [], [])
      else .ok (.header [], rest.drop remaining, []) := by
  by_cases short : rest.length < remaining
  · simp only [step, Nat.min_eq_right (Nat.le_of_lt short), short, if_true, drop_length]
  · simp only [step, Nat.min_eq_left (Nat.le_of_not_lt short), Nat.lt_irrefl, if_false,
      if_neg short]

theorem startBody_live {rest rest' : Bytes}
    (started : startBody maxMessageSize header rest = (next, rest', found))
    (live : Collecting next) :
    rest' = rest ∧ ∀ other, startBody maxMessageSize header other = (next, other, found) := by
  by_cases current : header.protocol = vdAgentProtocol
  · simp only [startBody, if_neg (not_not.mpr current)] at started ⊢
    split at started
    · simp_all
    · split at started <;> simp_all
  · rw [startBody, if_pos current] at started
    obtain ⟨rfl, -⟩ := Prod.mk.inj started
    exact live.elim

theorem step_header_cases {rest rest' : Bytes}
    (collecting : filled.length < wireSize)
    (stepped : step maxMessageSize (.header filled) rest = .ok (next, rest', found))
    (live : Collecting next) : ((filled ++ rest).length < wireSize ∧
      next = .header (filled ++ rest) ∧ rest' = [] ∧ found = []) ∨
    (wireSize ≤ (filled ++ rest).length ∧
      rest' = (filled ++ rest).drop wireSize ∧ ∃ header : VdAgentMessageHeader,
        decode ((filled ++ rest).take wireSize) = ok header ∧
        ∀ other, startBody maxMessageSize header other = (next, other, found)) := by
  rw [step_header rest collecting] at stepped
  split at stepped
  · next short =>
    cases stepped
    exact .inl ⟨short, rfl, rfl, rfl⟩
  next full =>
  split at stepped
  · next header decoded =>
    obtain ⟨rest_eq, started⟩ := startBody_live (ok.inj stepped) live
    exact .inr ⟨Nat.le_of_not_lt full, rest_eq, header, decoded, started⟩
  · cases stepped

theorem seamless_header {rest : Bytes}
    (collecting : filled.length < wireSize) (nonempty : second ≠ [])
    (stepped : step maxMessageSize (.header filled) (first ++ second) = .ok (next, rest, found))
    (live : Collecting next) :
    Splits (step maxMessageSize) Collecting (.header filled) first second next rest found := by
  by_cases short : (filled ++ first).length < wireSize
  · right
    refine ⟨.header (filled ++ first), short, ?_, ?_, ?_⟩
    · rw [step_header _ collecting, if_pos short]
    · rw [step_header _ short, append_assoc, ← step_header _ collecting, stepped]
    · have second_pos := length_pos_iff.mpr nonempty
      rcases step_header_cases collecting stepped live with ⟨-, -, rfl, -⟩ | ⟨-, rfl, -⟩
      · exact second_pos
      · simp only [length_append, length_drop] at short ⊢
        omega
  · left
    rcases step_header_cases collecting stepped live with
      ⟨whole_short, -⟩ | ⟨-, rest_eq, header, decoded, started⟩
    · simp only [length_append] at short whole_short
      omega
    have enough := Nat.le_of_not_lt short
    rw [← append_assoc, drop_append_of_le_length enough] at rest_eq
    rw [← append_assoc, take_append_of_le_length enough] at decoded
    refine ⟨_, rest_eq, ?_⟩
    rw [step_header _ collecting, if_neg short, decoded]
    exact congrArg ok (started _)

theorem seamless_body {rest : Bytes}
    (collecting : payload.length < header.size.toNat) (nonempty : second ≠ [])
    (stepped : step maxMessageSize (.body header payload) (first ++ second) =
      .ok (next, rest, found)) :
    Splits (step maxMessageSize) Collecting (.body header payload) first second next rest
      found := by
  by_cases short : (payload ++ first).length < header.size.toNat
  · right
    refine ⟨.body header (payload ++ first), short, ?_, ?_, ?_⟩
    · rw [step_body _ collecting, if_pos short]
    · rw [step_body _ short, append_assoc, ← step_body _ collecting, stepped]
    · have second_pos := length_pos_iff.mpr nonempty
      rw [step_body _ collecting] at stepped
      split at stepped <;> simp only [ok.injEq, Prod.mk.injEq] at stepped
      · simpa [← stepped.2.1] using second_pos
      · simp only [← stepped.2.1, length_append, length_drop] at short ⊢
        omega
  · left
    have enough := Nat.le_of_not_lt short
    have whole : ¬ (payload ++ (first ++ second)).length < header.size.toNat := by
      simp only [length_append] at short ⊢
      omega
    rw [step_body _ collecting, if_neg whole, ← append_assoc,
      drop_append_of_le_length enough, take_append_of_le_length enough] at stepped
    cases stepped
    exact ⟨_, rfl, by rw [step_body _ collecting, if_neg short]⟩

theorem seamless_skip {remaining : Nat} {rest : Bytes} (nonempty : second ≠ [])
    (stepped : step maxMessageSize (.skip remaining) (first ++ second) = .ok (next, rest, found)) :
    Splits (step maxMessageSize) Collecting (.skip remaining) first second next rest found := by
  by_cases short : first.length < remaining
  · right
    have again : step maxMessageSize (.skip (remaining - first.length)) second =
        .ok (next, rest, found) := by
      rw [← stepped, step_skip, step_skip, length_append, drop_append,
        drop_of_length_le (Nat.le_of_lt short), nil_append, Nat.sub_sub]
      by_cases whole : first.length + second.length < remaining
      · rw [if_pos whole, if_pos (by omega)]
      · rw [if_neg whole, if_neg (by omega)]
    refine ⟨.skip (remaining - first.length), Nat.sub_pos_of_lt short, ?_, again, ?_⟩
    · rw [step_skip, if_pos short]
    · have second_pos := length_pos_iff.mpr nonempty
      rw [step_skip] at again
      split at again <;> simp only [ok.injEq, Prod.mk.injEq] at again
      · simpa [← again.2.1] using second_pos
      · simp only [← again.2.1, length_drop]
        omega
  · left
    have enough := Nat.le_of_not_lt short
    have whole : ¬ (first ++ second).length < remaining := by
      rw [length_append]
      omega
    rw [step_skip, if_neg whole, drop_append_of_le_length enough] at stepped
    cases stepped
    exact ⟨_, rfl, by rw [step_skip, if_neg short]⟩

/-- The reassembler does not notice where its input is cut, as long as it is in step. -/
theorem step_seamless (maxMessageSize : Nat) : Seamless (step maxMessageSize) Collecting := by
  intro state first second next rest found collecting nonempty stepped live
  cases state with
  | header filled => exact seamless_header collecting nonempty stepped live
  | body header payload => exact seamless_body collecting nonempty stepped
  | skip remaining => exact seamless_skip nonempty stepped
  | resync => exact collecting.elim

/-! ### Whole messages and the beginning of one -/

theorem step_header_write (header : VdAgentMessageHeader) (rest : Bytes) :
    step maxMessageSize (.header []) (header.write ++ rest) =
      .ok (startBody maxMessageSize header rest) := by
  have sized := header.length_write
  have full : ¬ (header.write ++ rest).length < wireSize := by
    rw [length_append]
    omega
  rw [step_header _ collecting_initial, nil_append, if_neg full, take_left' sized,
    drop_left' sized, decode_write]

theorem startBody_oversized
    (current : header.protocol = vdAgentProtocol) (large : maxMessageSize < header.size.toNat) :
    startBody maxMessageSize header rest =
      (.skip header.size.toNat, rest, [.oversized header]) := by
  rw [startBody, if_neg (not_not.mpr current), if_pos large]

theorem startBody_accepted
    (current : header.protocol = vdAgentProtocol) (small : ¬ maxMessageSize < header.size.toNat)
    (nonempty : header.size.toNat ≠ 0) :
    startBody maxMessageSize header rest = (.body header [], rest, []) := by
  rw [startBody, if_neg (not_not.mpr current), if_neg small, if_neg nonempty]

variable {rest : Bytes}

theorem drains_header {more : List AgentStreamItem}
    (started : startBody maxMessageSize header rest = (next, rest, found)) (live : Collecting next)
    (later : Drains (step maxMessageSize) Collecting next rest final more) :
    Drains (step maxMessageSize) Collecting (.header []) (header.write ++ rest) final
      (found ++ more) := by
  have longer : rest.length < (header.write ++ rest).length := by
    simp [wireSize]
  exact .step (ne_nil_of_length_pos (by omega)) (started ▸ step_header_write header rest) live
    longer later

open StreamMessage

theorem drains_message (message : StreamMessage)
    (later : Drains (step maxMessageSize) Collecting (.header []) rest final found) :
    Drains (step maxMessageSize) Collecting (.header []) (message.wire ++ rest) final
      (message.item maxMessageSize :: found) := by
  have current := message.current
  have sized := message.sized
  have enough : ¬ (message.payload ++ rest).length < message.header.size.toNat := by
    rw [length_append]
    omega
  rw [wire, append_assoc]
  by_cases large : maxMessageSize < message.header.size.toNat
  · have positive : 0 < message.header.size.toNat := Nat.zero_lt_of_lt large
    have skipped : step maxMessageSize (.skip message.header.size.toNat)
        (message.payload ++ rest) = .ok (.header [], rest, []) := by
      rw [step_skip, if_neg enough, drop_left' sized]
    rw [item, if_pos large]
    refine drains_header (startBody_oversized _ current large) positive
      (.step (ne_nil_of_length_pos (by omega)) skipped collecting_initial ?_ later)
    rw [length_append]
    omega
  rw [item, if_neg large]
  by_cases empty : message.header.size.toNat = 0
  · have no_payload : message.payload = [] := eq_nil_of_length_eq_zero (by omega)
    have started : startBody maxMessageSize message.header rest =
        (.header [], rest, [.message message.toAgentMessage]) := by
      rw [startBody, if_neg (not_not.mpr current), if_neg large, if_pos empty, ← no_payload]
    rw [no_payload, nil_append]
    exact drains_header started collecting_initial later
  · have positive : ([] : Bytes).length < message.header.size.toNat :=
      Nat.pos_of_ne_zero empty
    have completed : step maxMessageSize (.body message.header []) (message.payload ++ rest) =
        .ok (.header [], rest, [.message message.toAgentMessage]) := by
      rw [step_body _ positive, nil_append, if_neg enough, drop_left' sized, take_left' sized]
    refine drains_header (startBody_accepted _ current large empty) positive
      (.step (ne_nil_of_length_pos (by omega)) completed collecting_initial ?_ later)
    rw [length_append]
    omega

theorem drains_rest (nonempty : rest ≠ [])
    (stepped : step maxMessageSize state rest = .ok (next, [], [])) (live : Collecting next) :
    Drains (step maxMessageSize) Collecting state rest next [] :=
  .step nonempty stepped live (length_pos_iff.mpr nonempty) (.done next)

theorem drains_bodyPart (maxMessageSize : Nat) (message : StreamMessage) {part : Bytes}
    (short : part.length < message.header.size.toNat) :
    ∃ next found final, startBody maxMessageSize message.header part = (next, part, found) ∧
      Collecting next ∧ Drains (step maxMessageSize) Collecting next part final [] ∧
      found = (if maxMessageSize < message.header.size.toNat then [.oversized message.header]
        else []) ∧
      atMessageBoundary ⟨maxMessageSize, final⟩ = false := by
  have current := message.current
  have positive : ([] : Bytes).length < message.header.size.toNat := Nat.zero_lt_of_lt short
  by_cases large : maxMessageSize < message.header.size.toNat
  · refine ⟨_, _, .skip (message.header.size.toNat - part.length),
      startBody_oversized part current large, positive, ?_, (if_pos large).symm, rfl⟩
    by_cases nonempty : part = []
    · subst nonempty
      exact .done _
    · refine drains_rest nonempty ?_ (Nat.sub_pos_of_lt short)
      rw [step_skip, if_pos short]
  · refine ⟨_, _, .body message.header part,
      startBody_accepted part current large (Nat.ne_of_gt positive), positive, ?_,
      (if_neg large).symm, rfl⟩
    by_cases nonempty : part = []
    · subst nonempty
      exact .done _
    · refine drains_rest nonempty ?_ short
      rw [step_body _ positive, nil_append, if_pos short]

theorem drains_partial (message : StreamMessage) {kept : Nat} (cut : kept < message.wire.length) :
    ∃ final, Drains (step maxMessageSize) Collecting (.header []) (message.wire.take kept) final
        (message.earlyItems maxMessageSize kept) ∧
      (atMessageBoundary ⟨maxMessageSize, final⟩ = true ↔ kept = 0) := by
  have sized := message.sized
  have header_sized := message.header.length_write
  rw [length_wire] at cut
  by_cases complete : wireSize ≤ kept
  · have short : (message.payload.take (kept - wireSize)).length <
        message.header.size.toNat := by
      rw [length_take]
      omega
    obtain ⟨next, found, final, started, live, drains, found_eq, inside⟩ :=
      drains_bodyPart maxMessageSize message short
    refine ⟨final, ?_, ?_⟩
    · have bytes : message.wire.take kept =
          message.header.write ++ message.payload.take (kept - wireSize) := by
        rw [wire, take_append, header_sized, take_of_length_le (by omega)]
      have early : message.earlyItems maxMessageSize kept = found ++ [] := by
        rw [found_eq, append_nil]
        simp only [earlyItems, complete, true_and]
      rw [bytes, early]
      exact drains_header started live drains
    · have nonzero : kept ≠ 0 := by
        rw [wireSize] at complete
        omega
      simp [inside, nonzero]
  · have none_early : message.earlyItems maxMessageSize kept = [] :=
      if_neg fun both => complete both.1
    have part_length : (message.wire.take kept).length = kept := by
      rw [length_take, length_wire]
      omega
    rw [none_early]
    refine ⟨.header (message.wire.take kept), ?_, ?_⟩
    · by_cases zero : message.wire.take kept = []
      · rw [zero]
        exact .done _
      · have short : (message.wire.take kept).length < wireSize := by omega
        refine drains_rest zero ?_ short
        rw [step_header _ collecting_initial, nil_append, if_pos short]
    · simp only [atMessageBoundary, part_length, beq_iff_eq]

theorem drains_stream (maxMessageSize : Nat) (messages : List StreamMessage)
    (last : StreamMessage) {kept : Nat} (cut : kept < last.wire.length) :
    ∃ final, Drains (step maxMessageSize) Collecting (.header [])
        (messages.flatMap wire ++ last.wire.take kept) final
        (messages.map (item maxMessageSize) ++ last.earlyItems maxMessageSize kept) ∧
      (atMessageBoundary ⟨maxMessageSize, final⟩ = true ↔ kept = 0) := by
  induction messages with
  | nil => exact drains_partial last cut
  | cons message messages ih =>
    obtain ⟨final, drains, boundary⟩ := ih
    refine ⟨final, ?_, boundary⟩
    rw [flatMap_cons, append_assoc]
    exact drains_message message drains

theorem pushAll_of_drains {chunks : List Bytes} (collecting : Collecting state)
    (drains : Drains (step maxMessageSize) Collecting state chunks.flatten final found) :
    pushAll ⟨maxMessageSize, state⟩ chunks = .ok (⟨maxMessageSize, final⟩, found) := by
  induction chunks generalizing state found with
  | nil =>
    cases drains with
    | done => rfl
    | step nonempty => exact absurd rfl nonempty
  | cons chunk chunks ih =>
    obtain ⟨middle, found₁, found₂, kept, first, second, rfl⟩ :=
      drains.split (step_seamless maxMessageSize) collecting flatten_cons
    have in_step : state ≠ .resync := by
      rintro rfl
      exact collecting
    have pushed : push ⟨maxMessageSize, state⟩ chunk = .ok (⟨maxMessageSize, middle⟩, found₁) := by
      simp [push, in_step, first.drain_eq]
    simp [pushAll, pushed, ih kept second]

/-- However a stream of messages is cut into chunks, the outputs are the messages in order, each
with its payload or refused as oversized, and it ends at a boundary exactly when the stream does. -/
theorem pushAll_reassembles (maxMessageSize : Nat) (messages : List StreamMessage)
    (last : StreamMessage) (kept : Nat) (cut : kept < last.wire.length) (chunks : List Bytes)
    (stream : chunks.flatten = messages.flatMap wire ++ last.wire.take kept) :
    ∃ final, (new maxMessageSize).pushAll chunks =
        .ok (final, messages.map (item maxMessageSize) ++
          last.earlyItems maxMessageSize kept) ∧ (final.atMessageBoundary = true ↔ kept = 0) := by
  obtain ⟨final, drains, boundary⟩ := drains_stream maxMessageSize messages last cut
  rw [← stream] at drains
  exact ⟨⟨maxMessageSize, final⟩, pushAll_of_drains collecting_initial drains, boundary⟩

def greeting : StreamMessage := ⟨⟨⟨vdAgentProtocol, 4, 0, 2⟩, [104, 105]⟩, rfl, rfl⟩

theorem greeting_reassembled : ∃ final, (new 16).pushAll
        [greeting.wire.take 7, [], greeting.wire.drop 7 ++ greeting.wire.take 3] =
        .ok (final, [greeting].map (item 16) ++ greeting.earlyItems 16 3) ∧
      (final.atMessageBoundary = true ↔ 3 = 0) :=
  pushAll_reassembles 16 [greeting] greeting 3 (by decide) _ (by decide)

end AgentReassembler

end Ryll
