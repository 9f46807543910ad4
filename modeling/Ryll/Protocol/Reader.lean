import Ryll.Foundation.Bytes

/-!
# Bounded reading of untrusted wire input

A parser is a computation over a cursor that checks every read.  A wire format is a parser together
with the writer it inverts: reading what was written returns the value and stops right behind it,
and every accepted input is the encoding of the value it is read as.
-/

namespace Ryll

open List Outcome

/-- Why input is refused. -/
inductive LinkError
  /-- The input ended before a read of `needed` bytes could complete. -/
  | truncated (needed available : Nat)
  /-- A declared count or size exceeds a limit. -/
  | tooLarge (what : String) (value max : Nat)
  | badOffset (offset len bufferLen : Nat)
  | pointerIntoFixedPart (offset fixedLen : Nat)
  /-- The input uses a feature the parser does not model. -/
  | unsupported (what : String)
  /-- The first four bytes of a message are not the expected ones. -/
  | badMagic (found : Bytes)
  | unsupportedVersion (major minor : UInt32)
  /-- A public key does not have the size of the wire format. -/
  | badKeyLength (len : Nat)
  deriving DecidableEq

/-- A cursor over a byte slice that tracks position and enforces bounds on every read. -/
@[ext]
structure BoundedReader where
  data : Bytes
  pos : Nat
  /-- The position never leaves the slice. -/
  inside : pos ≤ data.length

/-- A parser: a computation over a reader. -/
abbrev Reading := StateT BoundedReader (Outcome LinkError)

namespace BoundedReader

def new (data : Bytes) : BoundedReader := ⟨data, 0, Nat.zero_le _⟩

variable (reader : BoundedReader)

def remaining : Nat := reader.data.length - reader.pos

variable (offset len : Nat)

def sliceAt : Outcome LinkError Bytes :=
  if offset + len < 2 ^ 64 ∧ offset + len ≤ reader.data.length then
    .ok ((reader.data.drop offset).take len)
  else
    .error (.badOffset offset len reader.data.length)

def subReader : Outcome LinkError BoundedReader := do
  let region ← reader.sliceAt offset len
  return new region

theorem subReader_ok {reader : BoundedReader} {offset len : Nat}
    (inside : offset + len ≤ reader.data.length) (addressed : offset + len < 2 ^ 64) :
    reader.subReader offset len = .ok (new ((reader.data.drop offset).take len)) := by
  rw [subReader, sliceAt, if_pos ⟨addressed, inside⟩]
  rfl

theorem subReader_ensures : (reader.subReader offset len).Ensures fun region =>
      offset + len ≤ reader.data.length ∧ region = new ((reader.data.drop offset).take len) := by
  rw [subReader, sliceAt]
  split
  · rename_i fits
    exact ⟨fits.2, rfl⟩
  · trivial

def between (before rest : Bytes) : BoundedReader :=
  ⟨before ++ rest, before.length, by simp⟩

theorem new_eq_between (data : Bytes) : new data = between [] data := rfl

@[simp]
theorem remaining_between (before rest : Bytes) :
    (between before rest).remaining = rest.length := by
  simp [remaining, between]

end BoundedReader

open BoundedReader

def readBytes (count : Nat) : Reading Bytes := fun reader =>
  if fits : count ≤ reader.remaining then
    .ok ((reader.data.drop reader.pos).take count, ⟨reader.data, reader.pos + count, by
        have inside := reader.inside
        rw [remaining] at fits
        omega⟩)
  else
    .error (.truncated count reader.remaining)

/-- A fixed-width integer type of the wire, as the numbers below `256 ^ width`. -/
class WireNumber (α : Type) where
  width : Nat
  toNumber : α → Nat
  ofNumber : Nat → α
  toNumber_lt : ∀ value, toNumber value < 256 ^ width
  ofNumber_toNumber : ∀ value, ofNumber (toNumber value) = value
  toNumber_ofNumber : ∀ number, number < 256 ^ width → toNumber (ofNumber number) = number

instance : WireNumber UInt8 where
  width := 1
  toNumber := UInt8.toNat
  ofNumber := UInt8.ofNat
  toNumber_lt := UInt8.toNat_lt
  ofNumber_toNumber _ := UInt8.ofNat_toNat
  toNumber_ofNumber _ fits := UInt8.toNat_ofNat_of_lt' fits

instance : WireNumber UInt16 where
  width := 2
  toNumber := UInt16.toNat
  ofNumber := UInt16.ofNat
  toNumber_lt := UInt16.toNat_lt
  ofNumber_toNumber _ := UInt16.ofNat_toNat
  toNumber_ofNumber _ fits := UInt16.toNat_ofNat_of_lt' fits

instance : WireNumber UInt32 where
  width := 4
  toNumber := UInt32.toNat
  ofNumber := UInt32.ofNat
  toNumber_lt := UInt32.toNat_lt
  ofNumber_toNumber _ := UInt32.ofNat_toNat
  toNumber_ofNumber _ fits := UInt32.toNat_ofNat_of_lt' fits

instance : WireNumber UInt64 where
  width := 8
  toNumber := UInt64.toNat
  ofNumber := UInt64.ofNat
  toNumber_lt := UInt64.toNat_lt
  ofNumber_toNumber _ := UInt64.ofNat_toNat
  toNumber_ofNumber _ fits := UInt64.toNat_ofNat_of_lt' fits

instance : WireNumber Int32 where
  width := 4
  toNumber value := value.toUInt32.toNat
  ofNumber number := (UInt32.ofNat number).toInt32
  toNumber_lt value := value.toUInt32.toNat_lt
  ofNumber_toNumber _ := by simp
  toNumber_ofNumber _ fits := UInt32.toNat_ofNat_of_lt' fits

def toLeBytes {α : Type} [WireNumber α] (value : α) : Bytes :=
  toLittleEndian (WireNumber.width α) (WireNumber.toNumber value)

def readNumber (α : Type) [WireNumber α] : Reading α := do
  let bytes ← readBytes (WireNumber.width α)
  return WireNumber.ofNumber (littleEndian bytes)

def readU8 : Reading UInt8 := readNumber UInt8

def readU16 : Reading UInt16 := readNumber UInt16

def readU32 : Reading UInt32 := readNumber UInt32

def readU64 : Reading UInt64 := readNumber UInt64

def readI32 : Reading Int32 := readNumber Int32

def checkCount (what : String) (count size : Nat) : Reading Unit := fun reader =>
  let room := if size = 0 then 2 ^ 64 - 1 else reader.remaining / size
  if room < count then .error (.tooLarge what count room) else .ok ((), reader)

def readMany {α : Type} (read : Reading α) : Nat → Reading (List α)
  | 0 => return []
  | count + 1 => do
    let first ← read
    let rest ← readMany read count
    return first :: rest

def readVecU32 (count max : Nat) : Reading (List UInt32) :=
  if max < count then fun _ => .error (.tooLarge "count" count max)
  else readMany readU32 count

def refuse {α : Type} (reason : LinkError) : Reading α := fun _ => .error reason

def remainingBytes : Reading Nat := fun reader => .ok (reader.remaining, reader)

/-- A message body with a fixed wire layout. -/
class WireType (α : Type) where
  read : Reading α
  write : α → Bytes

def decode {α : Type} [WireType α] (body : Bytes) : Outcome LinkError α := do
  let (value, _) ← (WireType.read : Reading α) (BoundedReader.new body)
  return value

theorem decode_eq_ok {α : Type} [WireType α] {body : Bytes} {value : α} :
    decode body = .ok value ↔
      ∃ reader', (WireType.read : Reading α) (BoundedReader.new body) = .ok (value, reader') := by
  rw [decode, bind_eq_ok]
  constructor
  · rintro ⟨⟨other, reader'⟩, read, same⟩
    cases same
    exact ⟨reader', read⟩
  · rintro ⟨reader', read⟩
    exact ⟨(value, reader'), read, rfl⟩

/-! ## Parsers and the writers they invert -/

section Formats

variable {α β : Type} {read : Reading α} {write : α → Bytes} {good : α → Prop}

/-- A parser and a writer invert each other on the good values. -/
structure WireFormat (read : Reading α) (write : α → Bytes) (good : α → Prop) : Prop where
  /-- Reading what was written returns the value and stops right behind it. -/
  complete : ∀ value before after, good value → read (between before (write value ++ after)) =
      .ok (value, between (before ++ write value) after)
  sound : ∀ before rest value reader', read (between before rest) = .ok (value, reader') →
    good value ∧ ∃ after, rest = write value ++ after ∧
      reader' = between (before ++ write value) after

theorem Reading.bind_apply (first : Reading α) (next : α → Reading β) (reader : BoundedReader) :
    (first >>= next) reader = first reader >>= fun result => next result.1 result.2 := rfl

@[simp]
theorem Reading.pure_apply (value : α) (reader : BoundedReader) :
    (pure value : Reading α) reader = .ok (value, reader) := rfl

theorem Reading.map_apply (make : α → β) (read : Reading α) (reader : BoundedReader) :
    (make <$> read) reader = read reader >>= fun result => .ok (make result.1, result.2) := rfl

theorem Reading.lift_apply (run : Outcome LinkError α) (reader : BoundedReader) :
    (liftM run : Reading α) reader = run >>= fun value => .ok (value, reader) := rfl

theorem Reading.get_apply (reader : BoundedReader) :
    (get : Reading BoundedReader) reader = .ok (reader, reader) := rfl

theorem readBytes_between (count : Nat) (before rest : Bytes) :
    readBytes count (between before rest) = if count ≤ rest.length then
        .ok (rest.take count, between (before ++ rest.take count) (rest.drop count))
      else
        .error (.truncated count rest.length) := by
  have room := remaining_between before rest
  by_cases fits : count ≤ rest.length
  · rw [readBytes, dif_pos (room.symm ▸ fits), if_pos fits]
    congr 2
    · simp [between]
    · ext1 <;> simp [between, fits]
  · rw [readBytes, dif_neg (room.symm ▸ fits), if_neg fits, room]

theorem readBytes_append (before front rest : Bytes) :
    readBytes front.length (between before (front ++ rest)) =
      .ok (front, between (before ++ front) rest) := by
  simp [readBytes_between]

theorem readBytes_ok {count : Nat} {before rest bytes : Bytes} {reader' : BoundedReader}
    (returned : readBytes count (between before rest) = .ok (bytes, reader')) :
    bytes.length = count ∧ ∃ after, rest = bytes ++ after ∧
      reader' = between (before ++ bytes) after := by
  rw [readBytes_between] at returned
  split at returned
  · next fits =>
    cases returned
    exact ⟨by simp [fits], rest.drop count, (take_append_drop count rest).symm, rfl⟩
  · cases returned

open WireNumber

@[simp]
theorem length_toLeBytes [WireNumber α] (value : α) :
    (toLeBytes value).length = width α := by
  rw [toLeBytes, length_toLittleEndian]

open Reading

theorem readNumber_ensures [WireNumber α] (reader : BoundedReader) :
    (readNumber α reader).Ensures fun _ => True := by
  rw [readNumber, bind_apply, readBytes]
  split <;> trivial

theorem readNumber_format [WireNumber α] : WireFormat (readNumber α) toLeBytes fun _ => True where
  complete value before after _ := by
    have sized : (toLeBytes value).length = width α := length_toLeBytes value
    rw [readNumber, bind_apply, ← sized, readBytes_append]
    simp only [ok_bind, pure_apply, toLeBytes,
      littleEndian_toLittleEndian (toNumber_lt value), ofNumber_toNumber]
  sound before rest value reader' returned := by
    obtain ⟨⟨bytes, reader⟩, read, returned⟩ := bind_eq_ok.mp returned
    obtain ⟨sized, after, rfl, rfl⟩ := readBytes_ok read
    cases returned
    have fits : littleEndian bytes < 256 ^ width α := sized ▸ littleEndian_lt bytes
    have written : toLeBytes (ofNumber (littleEndian bytes) : α) = bytes := by
      rw [toLeBytes, toNumber_ofNumber _ fits, ← sized, toLittleEndian_littleEndian]
    rw [written]
    exact ⟨trivial, after, rfl, rfl⟩

/-- An accepted input begins with the encoding of a good value, and the parser stops behind it. -/
def AcceptsOnly (read : Reading α) (write : α → Bytes) (good : α → Prop) : Prop :=
  ∀ before rest value reader', read (between before rest) = .ok (value, reader') →
    good value ∧ ∃ after, rest = write value ++ after ∧
      reader' = between (before ++ write value) after

variable {write' : β → Bytes} {good' : β → Prop} {make : α → β} {next : α → Reading β}
  {rest : β → Bytes}

theorem AcceptsOnly.bind (first : AcceptsOnly read write good) (view : β → α)
    (split : ∀ value, good' value → write' value = write (view value) ++ rest value)
    (second : ∀ front, good front →
      AcceptsOnly (next front) rest fun value => good' value ∧ view value = front) :
    AcceptsOnly (read >>= next) write' good' := by
  intro before input value reader' returned
  obtain ⟨⟨front, reader⟩, read_front, returned⟩ := bind_eq_ok.mp returned
  obtain ⟨front_good, middle, rfl, rfl⟩ := first before input front reader read_front
  obtain ⟨⟨valid, rfl⟩, after, rfl, rfl⟩ := second front front_good _ middle value reader' returned
  refine ⟨valid, after, ?_, ?_⟩
  · rw [split value valid, append_assoc]
  · rw [split value valid, append_assoc]

theorem AcceptsOnly.map
    (format : AcceptsOnly read write good) (written : ∀ front, write' (make front) = write front)
    (wrapped : ∀ value, good' value ↔ ∃ front, good front ∧ make front = value) :
    AcceptsOnly (make <$> read) write' good' := by
  intro before rest value reader' returned
  obtain ⟨⟨front, reader⟩, read_front, returned⟩ := bind_eq_ok.mp returned
  obtain ⟨front_good, after, rfl, rfl⟩ := format before rest front reader read_front
  cases returned
  exact ⟨(wrapped _).mpr ⟨front, front_good, rfl⟩, after, by rw [written], by rw [written]⟩

theorem WireFormat.map
    (format : WireFormat read write good) (written : ∀ front, write' (make front) = write front)
    (wrapped : ∀ value, good' value ↔ ∃ front, good front ∧ make front = value) :
    WireFormat (make <$> read) write' good' where
  complete value before after valid := by
    obtain ⟨front, front_good, rfl⟩ := (wrapped value).mp valid
    rw [written, map_apply, format.complete front before after front_good, ok_bind]
  sound := AcceptsOnly.map format.sound written wrapped

theorem WireFormat.congr {write' : α → Bytes} {good' : α → Prop}
    (format : WireFormat read write good) (same : ∀ value, good value ↔ good' value)
    (written : ∀ value, good value → write value = write' value) :
    WireFormat read write' good' where
  complete value before after valid := by
    have valid := (same value).mpr valid
    rw [← written value valid]
    exact format.complete value before after valid
  sound before rest value reader' returned := by
    obtain ⟨valid, after, split, stopped⟩ := format.sound before rest value reader' returned
    rw [written value valid] at split stopped
    exact ⟨(same value).mp valid, after, split, stopped⟩

theorem WireFormat.bind (first : WireFormat read write good) (view : β → α)
    (split : ∀ value, good' value → write' value = write (view value) ++ rest value)
    (part : ∀ value, good' value → good (view value)) (second : ∀ front, good front →
      WireFormat (next front) rest fun value => good' value ∧ view value = front) :
    WireFormat (read >>= next) write' good' where
  complete value before after valid := by
    have read_front := first.complete (view value) before (rest value ++ after) (part value valid)
    have read_rest := (second (view value) (part value valid)).complete value
      (before ++ write (view value)) after ⟨valid, rfl⟩
    rw [split value valid, append_assoc, bind_apply, read_front, ok_bind,
      read_rest, append_assoc]
  sound := AcceptsOnly.bind first.sound view split fun front valid => (second front valid).sound

/-- A field that may have any value comes first. -/
theorem WireFormat.field (first : WireFormat read write fun _ => True) (view : β → α)
    (second : ∀ front, WireFormat (next front) rest fun value => good' value ∧ view value = front) :
    WireFormat (read >>= next) (fun value => write (view value) ++ rest value) good' :=
  first.bind view (fun _ _ => rfl) (fun _ _ => trivial) fun front _ => second front

theorem WireFormat.pure {value : α} (only : ∀ other, good other ↔ other = value) :
    WireFormat (Pure.pure value) (fun _ => []) good where
  complete other before after valid := by
    obtain rfl := (only other).mp valid
    simp
  sound before rest other reader' returned := by
    cases returned
    exact ⟨(only value).mpr rfl, rest, by simp⟩

theorem WireFormat.last (format : WireFormat read write good) (view : β → α)
    (part : ∀ value, good' value → good (view value))
    (whole : ∀ front, good front → ∀ value, good' value ∧ view value = front ↔ value = make front) :
    WireFormat (read >>= fun front => Pure.pure (make front)) (fun value => write (view value))
      good' :=
  format.bind view (fun value _ => (append_nil (write (view value))).symm) part
    fun front valid => .pure (whole front valid)

theorem readBytes_format (count : Nat) :
    WireFormat (readBytes count) id fun bytes => bytes.length = count where
  complete bytes before after sized := by
    subst sized
    exact readBytes_append before bytes after
  sound before rest bytes reader' returned := by
    obtain ⟨sized, after, split, stopped⟩ := readBytes_ok returned
    exact ⟨sized, after, split, stopped⟩

theorem WireFormat.many (element : WireFormat read write good) (count : Nat) :
    WireFormat (readMany read count) (List.flatMap write) fun values =>
      values.length = count ∧ ∀ value ∈ values, good value where
  complete values before after valid := by
    obtain ⟨sized, valid⟩ := valid
    induction values generalizing count before with
    | nil =>
      subst sized
      simp [readMany]
    | cons first rest ih =>
      subst sized
      have read_first := element.complete first before (rest.flatMap write ++ after)
        (valid first mem_cons_self)
      have read_rest := ih rest.length (before ++ write first) rfl fun value member =>
        valid value (mem_cons_of_mem first member)
      rw [flatMap_cons, append_assoc, length_cons, readMany, bind_apply, read_first,
        ok_bind, bind_apply, read_rest, ok_bind, pure_apply, append_assoc]
  sound := by
    induction count with
    | zero =>
      intro before rest values reader' returned
      cases returned
      exact ⟨by simp, rest, by simp⟩
    | succ count ih =>
      intro before input values reader' returned
      obtain ⟨⟨first, reader⟩, read_first, returned⟩ := bind_eq_ok.mp returned
      obtain ⟨first_good, middle, rfl, rfl⟩ := element.sound _ _ _ _ read_first
      obtain ⟨⟨rest, reader⟩, read_rest, returned⟩ := bind_eq_ok.mp returned
      obtain ⟨⟨sized, rest_good⟩, after, rfl, rfl⟩ := ih _ _ _ _ read_rest
      cases returned
      refine ⟨⟨by rw [length_cons, sized], ?_⟩, after, by simp, by simp⟩
      rintro value (_ | ⟨_, member⟩)
      · exact first_good
      · exact rest_good value member

/-- Checking first that the elements fit into the input changes nothing. -/
theorem WireFormat.counted
    (element : WireFormat read write good) (what : String) (count : Nat) {size : Nat}
    (positive : 0 < size) (sized : ∀ value, (write value).length = size) :
    WireFormat (checkCount what count size >>= fun _ => readMany read count) (List.flatMap write)
      fun values => values.length = count ∧ ∀ value ∈ values, good value where
  complete values before after valid := by
    have long : (values.flatMap write).length = count * size := by
      simp [length_flatMap, sized, valid.1]
    have passed : checkCount what count size (between before (values.flatMap write ++ after)) =
        .ok ((), between before (values.flatMap write ++ after)) := by
      have room : count ≤ (count * size + after.length) / size :=
        (Nat.le_div_iff_mul_le positive).mpr (Nat.le_add_right _ _)
      rw [checkCount, remaining_between, length_append, long, if_neg]
      rw [if_neg (by omega)]
      omega
    rw [bind_apply, passed, ok_bind]
    exact (element.many count).complete values before after valid
  sound before rest values reader' returned := by
    simp only [bind_apply, checkCount, if_neg (Nat.ne_of_gt positive)] at returned
    split at returned
    · simp at returned
    · exact (element.many count).sound before rest values reader' returned

/-! ## Parsers that do not fault -/

/-- A parser that returns or fails, whatever it reads. -/
def Faultless (read : Reading α) : Prop := ∀ reader, (read reader).Ensures fun _ => True

theorem Faultless.bind (first : Faultless read)
    (rest : ∀ value, Faultless (next value)) : Faultless (read >>= next) := by
  intro reader
  exact (first reader).bind fun result _ => rest result.1 result.2

theorem Faultless.pure (value : α) : Faultless (Pure.pure value : Reading α) := fun _ => trivial

theorem readBytes_faultless (count : Nat) : Faultless (readBytes count) := by
  intro reader
  rw [readBytes]
  split
  · trivial
  · trivial

theorem readNumber_faultless [WireNumber α] : Faultless (readNumber α) := readNumber_ensures

theorem Faultless.many (element : Faultless read) (count : Nat) :
    Faultless (readMany read count) := by
  induction count with
  | zero => exact .pure []
  | succ count ih => exact element.bind fun first => ih.bind fun rest => .pure (first :: rest)

/-- What a faultless parser of a format accepts is the encoding of what it returns. -/
theorem WireFormat.ensures
    (format : WireFormat read write good) (faultless : Faultless read) (before rest : Bytes) :
    (read (between before rest)).Ensures fun result => ∃ value after, good value ∧
      rest = write value ++ after ∧ result = (value, between (before ++ write value) after) := by
  have ran := faultless (between before rest)
  cases returned : read (between before rest) with
  | ok result =>
    obtain ⟨valid, after, split, stopped⟩ :=
      format.sound before rest result.1 result.2 returned
    exact ⟨result.1, after, valid, split, Prod.ext rfl stopped⟩
  | error reason => trivial
  | fault cause =>
    rw [returned] at ran
    exact ran

theorem WireFormat.unless {bad : Prop} [Decidable bad] {reason : LinkError}
    (never : bad → ∀ value, ¬ good value) (format : ¬ bad → WireFormat read write good) :
    WireFormat (if bad then refuse reason else read) write good := by
  split
  · next refused => exact ⟨fun value _ _ valid => absurd valid (never refused value), nofun⟩
  · next passed => exact format passed

theorem Faultless.unless {bad : Prop} [Decidable bad] {reason : LinkError}
    (faultless : Faultless read) : Faultless (if bad then refuse reason else read) := by
  split
  · exact fun _ => trivial
  · exact faultless

/-! ## Formats that end their region -/

/-- A parser that may take all of its region, and the writer it inverts at the end. -/
structure RegionFormat (read : Reading α) (write : α → Bytes) (good : α → Prop) : Prop where
  /-- Reading what was written, up to the end of the region, returns the value. -/
  complete : ∀ value before, good value →
    read (between before (write value)) = .ok (value, between (before ++ write value) [])
  sound : AcceptsOnly read write good

theorem WireFormat.region (format : WireFormat read write good) : RegionFormat read write good where
  complete value before valid := by
    have returned := format.complete value before [] valid
    rwa [append_nil] at returned
  sound := format.sound

theorem WireFormat.bindRegion (first : WireFormat read write good) (view : β → α)
    (split : ∀ value, good' value → write' value = write (view value) ++ rest value)
    (part : ∀ value, good' value → good (view value)) (second : ∀ front, good front →
      RegionFormat (next front) rest fun value => good' value ∧ view value = front) :
    RegionFormat (read >>= next) write' good' where
  complete value before valid := by
    have read_front := first.complete (view value) before (rest value) (part value valid)
    have read_rest := (second (view value) (part value valid)).complete value
      (before ++ write (view value)) ⟨valid, rfl⟩
    rw [split value valid, bind_apply, read_front, ok_bind, read_rest, append_assoc]
  sound := AcceptsOnly.bind first.sound view split fun front valid => (second front valid).sound

theorem RegionFormat.map
    (format : RegionFormat read write good) (written : ∀ front, write' (make front) = write front)
    (wrapped : ∀ value, good' value ↔ ∃ front, good front ∧ make front = value) :
    RegionFormat (make <$> read) write' good' where
  complete value before valid := by
    obtain ⟨front, front_good, rfl⟩ := (wrapped value).mp valid
    rw [written, map_apply, format.complete front before front_good, ok_bind]
  sound := format.sound.map written wrapped

theorem RegionFormat.last (format : RegionFormat read write good) (view : β → α)
    (part : ∀ value, good' value → good (view value))
    (whole : ∀ front, good front → ∀ value, good' value ∧ view value = front ↔ value = make front) :
    RegionFormat (read >>= fun front => Pure.pure (make front)) (fun value => write (view value))
      good' where
  complete value before valid := by
    have front_good := part value valid
    obtain made : value = make (view value) := (whole _ front_good value).mp ⟨valid, rfl⟩
    rw [bind_apply, format.complete (view value) before front_good, ok_bind,
      pure_apply, ← made]
  sound := format.sound.bind view (fun value _ => (append_nil (write (view value))).symm)
    fun front valid => (WireFormat.pure (whole front valid)).sound

theorem readRest_format : RegionFormat (remainingBytes >>= readBytes) id fun _ => True where
  complete bytes before _ := by
    have returned := readBytes_append before bytes []
    rw [append_nil] at returned
    simp [bind_apply, remainingBytes, returned]
  sound before rest bytes reader' returned := by
    obtain ⟨-, after, split, stopped⟩ := readBytes_ok returned
    exact ⟨trivial, after, split, stopped⟩

end Formats

end Ryll
