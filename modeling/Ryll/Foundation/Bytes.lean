import Ryll.Foundation.Buffer

/-!
# Byte strings

Borrowed byte slices, positional numerals of either byte order, and the reads of a cursor that
walks a byte string from its front.
-/

namespace Ryll

open List

/-- A byte slice or vector.  The language bounds its length by the largest signed word. -/
structure Slice where
  bytes : Bytes
  /-- No allocation exceeds `isize::MAX` bytes. -/
  bounded : bytes.length < 2 ^ 63
  deriving DecidableEq

def Slice.length (slice : Slice) : Nat := slice.bytes.length

def Slice.single (byte : UInt8) : Slice := ⟨[byte], by simp⟩

/-- The number a byte string denotes with its least significant byte first. -/
def littleEndian : Bytes → Nat
  | [] => 0
  | byte :: bytes => byte.toNat + 256 * littleEndian bytes

def toLittleEndian : Nat → Nat → Bytes
  | 0, _ => []
  | count + 1, value => UInt8.ofNat (value % 256) :: toLittleEndian count (value / 256)

@[simp]
theorem length_toLittleEndian (count value : Nat) :
    (toLittleEndian count value).length = count := by
  induction count generalizing value with
  | zero => rfl
  | succ count ih => simp [toLittleEndian, ih]

variable (bytes : Bytes)

theorem littleEndian_toLittleEndian {count value : Nat} (fits : value < 256 ^ count) :
    littleEndian (toLittleEndian count value) = value := by
  induction count generalizing value with
  | zero =>
    have zero : value = 0 := by simpa using fits
    simp [zero, toLittleEndian, littleEndian]
  | succ count ih =>
    have quotient_fits : value / 256 < 256 ^ count := by
      exact Nat.div_lt_of_lt_mul (by omega)
    have digit : (UInt8.ofNat (value % 256)).toNat = value % 256 := by
      simp
    rw [toLittleEndian, littleEndian, ih quotient_fits, digit]
    omega

theorem littleEndian_lt : littleEndian bytes < 256 ^ bytes.length := by
  induction bytes with
  | nil => simp [littleEndian]
  | cons byte bytes ih =>
    have byte_lt : byte.toNat < 256 := byte.toNat_lt
    rw [littleEndian, length_cons, Nat.pow_succ]
    omega

theorem toLittleEndian_littleEndian : toLittleEndian bytes.length (littleEndian bytes) = bytes := by
  induction bytes with
  | nil => rfl
  | cons byte bytes ih =>
    have byte_lt : byte.toNat < 256 := byte.toNat_lt
    have quotient : (byte.toNat + 256 * littleEndian bytes) / 256 = littleEndian bytes := by omega
    have remainder : (byte.toNat + 256 * littleEndian bytes) % 256 = byte.toNat := by omega
    rw [length_cons, littleEndian, toLittleEndian, quotient, remainder, ih, UInt8.ofNat_toNat]

/-- The number a byte string denotes with its most significant byte first. -/
def bigEndian (bytes : Bytes) : Nat :=
  bytes.foldl (fun value byte => value * 256 + byte.toNat) 0

def toBigEndian : Nat → Nat → Bytes
  | 0, _ => []
  | count + 1, value => toBigEndian count (value / 256) ++ [UInt8.ofNat (value % 256)]

theorem bigEndian_eq_reverse : bigEndian bytes = littleEndian bytes.reverse := by
  induction bytes using List.reverseRecOn with
  | nil => rfl
  | append_singleton bytes byte ih =>
    rw [bigEndian] at ih ⊢
    rw [foldl_append, ih, reverse_append]
    exact Nat.add_comm _ _ |>.trans (congrArg _ (Nat.mul_comm _ _))

theorem toBigEndian_eq_reverse (count value : Nat) :
    toBigEndian count value = (toLittleEndian count value).reverse := by
  induction count generalizing value with
  | zero => rfl
  | succ count ih => rw [toBigEndian, ih, toLittleEndian, reverse_cons]

@[simp]
theorem length_toBigEndian (count value : Nat) : (toBigEndian count value).length = count := by
  rw [toBigEndian_eq_reverse, length_reverse, length_toLittleEndian]

theorem bigEndian_toBigEndian {count value : Nat} (fits : value < 256 ^ count) :
    bigEndian (toBigEndian count value) = value := by
  rw [bigEndian_eq_reverse, toBigEndian_eq_reverse, reverse_reverse,
    littleEndian_toLittleEndian fits]

theorem bigEndian_lt : bigEndian bytes < 256 ^ bytes.length := by
  rw [bigEndian_eq_reverse, ← length_reverse]
  exact littleEndian_lt _

theorem toBigEndian_bigEndian : toBigEndian bytes.length (bigEndian bytes) = bytes := by
  rw [bigEndian_eq_reverse, toBigEndian_eq_reverse, ← length_reverse,
    toLittleEndian_littleEndian, reverse_reverse]

/-- The offset at which a suffix of a byte string begins. -/
def offsetOf (data rest : Bytes) : Nat := data.length - rest.length

theorem offsetOf_le (data rest : Bytes) : offsetOf data rest ≤ data.length :=
  Nat.sub_le _ _

variable {data : Bytes} {byte : UInt8}

theorem offsetOf_drop {offset : Nat} (inside : offset ≤ data.length) :
    offsetOf data (data.drop offset) = offset := by
  rw [offsetOf, length_drop]
  omega

@[simp]
theorem offsetOf_nil (data : Bytes) : offsetOf data [] = data.length := rfl

variable {rest : Bytes}

theorem offsetOf_cons (suffix : byte :: rest <:+ data) :
    offsetOf data (byte :: rest) + 1 = offsetOf data rest := by
  have shorter := suffix.length_le
  simp only [offsetOf, length_cons] at *
  omega

theorem offsetOf_cons_lt (suffix : byte :: rest <:+ data) :
    offsetOf data (byte :: rest) < data.length := by
  have next := offsetOf_cons suffix
  have bound := offsetOf_le data rest
  omega

theorem getElem?_offsetOf (suffix : rest <:+ data) (index : Nat) :
    data[offsetOf data rest + index]? = rest[index]? :=
  getElem?_of_drop (suffix_iff_eq_drop.mp suffix).symm index

theorem suffix_of_cons (suffix : byte :: rest <:+ data) : rest <:+ data :=
  (suffix_cons byte rest).trans suffix

section Cursor

variable {ε : Type}

def readExact (endOfData : ε) (count : Nat) (rest : Bytes) :
    Outcome ε (Bytes × Bytes) :=
  if count ≤ rest.length then .ok (rest.take count, rest.drop count) else .error endOfData

def readBigEndian (endOfData : ε) (count : Nat) (rest : Bytes) :
    Outcome ε (Nat × Bytes) := do
  let (bytes, rest) ← readExact endOfData count rest
  return (bigEndian bytes, rest)

theorem readAt_offsetOf {rest : Bytes} (suffix : byte :: rest <:+ data) :
    (readAt data (offsetOf data (byte :: rest)) : Outcome ε UInt8) = .ok byte :=
  readAt_of_getElem? (getElem?_offsetOf suffix 0)

theorem addUsize_offsetOf {rest : Bytes} (bounded : data.length < 2 ^ 63)
    (suffix : byte :: rest <:+ data) :
    (addUsize (offsetOf data (byte :: rest)) 1 : Outcome ε Nat) = .ok (offsetOf data rest) := by
  have inside := offsetOf_cons_lt suffix
  rw [addUsize_ok (by omega), offsetOf_cons suffix]

variable (endOfData : ε)

theorem readExact_ensures (count : Nat) (rest : Bytes) :
    (readExact endOfData count rest).Ensures fun _ => True := by
  rw [readExact]
  split <;> trivial

theorem readBigEndian_ensures (count : Nat) (rest : Bytes) :
    (readBigEndian endOfData count rest).Ensures fun _ => True :=
  (readExact_ensures endOfData count rest).bind fun _ _ => trivial

theorem readExact_append {count : Nat} {front : Bytes} (exact_length : front.length = count)
    (rest : Bytes) : readExact endOfData count (front ++ rest) = .ok (front, rest) := by
  subst exact_length
  simp [readExact]

theorem readBigEndian_append {count value : Nat} (fits : value < 256 ^ count) (rest : Bytes) :
    readBigEndian endOfData count (toBigEndian count value ++ rest) = .ok (value, rest) := by
  rw [readBigEndian, readExact_append endOfData (length_toBigEndian count value)]
  simp [bigEndian_toBigEndian fits]

end Cursor

end Ryll
