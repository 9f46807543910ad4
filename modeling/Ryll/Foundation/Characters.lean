import Mathlib

/-!
# Characters and their bytes

Classes of Unicode characters, and the bytes of a text in UTF-8: a byte below 128 stands for the
character of that number and for nothing else.
-/

namespace Ryll

open List

def isWhitespace (char : Char) : Bool :=
  let code := char.toNat
  (0x9 ≤ code && code ≤ 0xd) || code == 0x20 || code == 0x85 || code == 0xa0 || code == 0x1680 ||
    (0x2000 ≤ code && code ≤ 0x200a) || code == 0x2028 || code == 0x2029 || code == 0x202f ||
    code == 0x205f || code == 0x3000

def isControl (char : Char) : Bool :=
  char.toNat ≤ 0x1f || (0x7f ≤ char.toNat && char.toNat ≤ 0x9f)

def utf8Bytes (text : List Char) : List UInt8 := text.flatMap String.utf8EncodeChar

theorem utf8Bytes_append (first second : List Char) :
    utf8Bytes (first ++ second) = utf8Bytes first ++ utf8Bytes second :=
  flatMap_append

theorem utf8Bytes_lines (lines : List (List Char)) (ending : List Char) :
    utf8Bytes (lines.flatMap fun line => line ++ ending) =
      (lines.map utf8Bytes).flatMap fun line => line ++ utf8Bytes ending := by
  induction lines with
  | nil => rfl
  | cons line lines ih =>
    rw [flatMap_cons, utf8Bytes_append, utf8Bytes_append, ih, map_cons, flatMap_cons]

theorem toNat_of_mem_utf8EncodeChar {char : Char} {byte : UInt8}
    (member : byte ∈ String.utf8EncodeChar char) (small : byte.toNat < 128) :
    char.toNat = byte.toNat := by
  have code : char.val.toNat = char.toNat := rfl
  simp only [String.utf8EncodeChar, code] at member
  split at member
  · rw [mem_singleton.mp member, UInt8.toNat_ofNat']
    omega
  -- Every byte of a longer encoding is at least 128.
  exfalso
  split at member
  · simp only [mem_cons, not_mem_nil, or_false] at member
    rcases member with rfl | rfl <;> rw [UInt8.toNat_ofNat'] at small <;> omega
  · split at member
    · simp only [mem_cons, not_mem_nil, or_false] at member
      rcases member with rfl | rfl | rfl <;> rw [UInt8.toNat_ofNat'] at small <;> omega
    · simp only [mem_cons, not_mem_nil, or_false] at member
      rcases member with rfl | rfl | rfl | rfl <;> rw [UInt8.toNat_ofNat'] at small <;> omega

theorem not_mem_utf8Bytes {text : List Char} {char : Char} (small : char.toNat < 128)
    (free : char ∉ text) : UInt8.ofNat char.toNat ∉ utf8Bytes text := by
  intro member
  obtain ⟨other, inside, byte⟩ := mem_flatMap.mp member
  have number : (UInt8.ofNat char.toNat).toNat = char.toNat := by
    rw [UInt8.toNat_ofNat']
    omega
  have same := toNat_of_mem_utf8EncodeChar byte (by rwa [number])
  rw [number] at same
  rw [← Char.toNat_inj.mp same] at free
  exact free inside

end Ryll
