import Ryll.Foundation.Outcome

/-!
# Scancodes and text typed as keystrokes

The US-QWERTY table, the encoding of a scancode for the wire, and the translation of a text to the
keys that type it.
-/

namespace Ryll

open List

def makeScancode (base : UInt32) (release : Bool) : UInt32 :=
  let code := if release then base ||| 0x80 else base
  if base ≥ 0x100 then ((code &&& 0xFF) <<< 8) ||| 0xE0 else code

/-- The code that releases the key a press code belongs to, with the break bit of its key. -/
def breakCode (press : UInt32) : UInt32 :=
  if press &&& 0xFF = 0xE0 then press ||| 0x8000 else press ||| 0x80

/-- The arrow keys. -/
inductive Direction
  | up
  | down
  | left
  | right
  deriving DecidableEq

/-- The navigation keys. -/
inductive NavKey
  | delete
  | insert
  | home
  | endKey
  | pageUp
  | pageDown
  deriving DecidableEq

/-- The keys that make white space, and backspace. -/
inductive WSKey
  | space
  | enter
  | backspace
  | tab
  deriving DecidableEq

/-- The punctuation keys. -/
inductive PunctKey
  | minus
  | equals
  | openBracket
  | closeBracket
  | backslash
  | semicolon
  | quote
  | backtick
  | comma
  | period
  | slash
  deriving DecidableEq

/-- A key by what is on it. -/
inductive LogicalKey
  | letter (char : Char)
  | digit (digit : Nat)
  | function (number : Nat)
  | arrow (direction : Direction)
  | navigation (key : NavKey)
  | whitespace (key : WSKey)
  | punctuation (key : PunctKey)
  | escape
  deriving DecidableEq

def logicalKeyTable : List (LogicalKey × UInt32) := [
  -- Letters
  (.letter 'A', 0x1E), (.letter 'B', 0x30), (.letter 'C', 0x2E), (.letter 'D', 0x20),
  (.letter 'E', 0x12), (.letter 'F', 0x21), (.letter 'G', 0x22), (.letter 'H', 0x23),
  (.letter 'I', 0x17), (.letter 'J', 0x24), (.letter 'K', 0x25), (.letter 'L', 0x26),
  (.letter 'M', 0x32), (.letter 'N', 0x31), (.letter 'O', 0x18), (.letter 'P', 0x19),
  (.letter 'Q', 0x10), (.letter 'R', 0x13), (.letter 'S', 0x1F), (.letter 'T', 0x14),
  (.letter 'U', 0x16), (.letter 'V', 0x2F), (.letter 'W', 0x11), (.letter 'X', 0x2D),
  (.letter 'Y', 0x15), (.letter 'Z', 0x2C),
  -- Digits
  (.digit 0, 0x0B), (.digit 1, 0x02), (.digit 2, 0x03), (.digit 3, 0x04), (.digit 4, 0x05),
  (.digit 5, 0x06), (.digit 6, 0x07), (.digit 7, 0x08), (.digit 8, 0x09), (.digit 9, 0x0A),
  -- Function keys
  (.function 1, 0x3B), (.function 2, 0x3C), (.function 3, 0x3D), (.function 4, 0x3E),
  (.function 5, 0x3F), (.function 6, 0x40), (.function 7, 0x41), (.function 8, 0x42),
  (.function 9, 0x43), (.function 10, 0x44), (.function 11, 0x57), (.function 12, 0x58),
  -- Whitespace-adjacent keys
  (.whitespace .space, 0x39), (.whitespace .enter, 0x1C), (.whitespace .backspace, 0x0E),
  (.whitespace .tab, 0x0F),
  -- Escape
  (.escape, 0x01),
  -- Navigation cluster, extended keys
  (.navigation .delete, 0x153), (.navigation .insert, 0x152), (.navigation .home, 0x147),
  (.navigation .endKey, 0x14F), (.navigation .pageUp, 0x149), (.navigation .pageDown, 0x151),
  -- Arrow keys, extended keys
  (.arrow .up, 0x148), (.arrow .down, 0x150), (.arrow .left, 0x14B), (.arrow .right, 0x14D),
  -- Punctuation
  (.punctuation .minus, 0x0C), (.punctuation .equals, 0x0D), (.punctuation .openBracket, 0x1A),
  (.punctuation .closeBracket, 0x1B), (.punctuation .backslash, 0x2B),
  (.punctuation .semicolon, 0x27), (.punctuation .quote, 0x28), (.punctuation .backtick, 0x29),
  (.punctuation .comma, 0x33), (.punctuation .period, 0x34), (.punctuation .slash, 0x35)]

def scancodeForLogicalKey (key : LogicalKey) : Option (UInt32 × UInt32) :=
  (logicalKeyTable.lookup key).map fun base => (makeScancode base false, makeScancode base true)

def scancodeTable : List (Char × UInt32 × Bool) := [
  -- Lowercase letters
  ('a', 0x1E, false), ('b', 0x30, false), ('c', 0x2E, false), ('d', 0x20, false),
  ('e', 0x12, false), ('f', 0x21, false), ('g', 0x22, false), ('h', 0x23, false),
  ('i', 0x17, false), ('j', 0x24, false), ('k', 0x25, false), ('l', 0x26, false),
  ('m', 0x32, false), ('n', 0x31, false), ('o', 0x18, false), ('p', 0x19, false),
  ('q', 0x10, false), ('r', 0x13, false), ('s', 0x1F, false), ('t', 0x14, false),
  ('u', 0x16, false), ('v', 0x2F, false), ('w', 0x11, false), ('x', 0x2D, false),
  ('y', 0x15, false), ('z', 0x2C, false),
  -- Uppercase letters
  ('A', 0x1E, true), ('B', 0x30, true), ('C', 0x2E, true), ('D', 0x20, true),
  ('E', 0x12, true), ('F', 0x21, true), ('G', 0x22, true), ('H', 0x23, true),
  ('I', 0x17, true), ('J', 0x24, true), ('K', 0x25, true), ('L', 0x26, true),
  ('M', 0x32, true), ('N', 0x31, true), ('O', 0x18, true), ('P', 0x19, true),
  ('Q', 0x10, true), ('R', 0x13, true), ('S', 0x1F, true), ('T', 0x14, true),
  ('U', 0x16, true), ('V', 0x2F, true), ('W', 0x11, true), ('X', 0x2D, true),
  ('Y', 0x15, true), ('Z', 0x2C, true),
  -- Digits
  ('0', 0x0B, false), ('1', 0x02, false), ('2', 0x03, false), ('3', 0x04, false),
  ('4', 0x05, false), ('5', 0x06, false), ('6', 0x07, false), ('7', 0x08, false),
  ('8', 0x09, false), ('9', 0x0A, false),
  -- Shifted symbols of the digit row
  ('!', 0x02, true), ('@', 0x03, true), ('#', 0x04, true), ('$', 0x05, true),
  ('%', 0x06, true), ('^', 0x07, true), ('&', 0x08, true), ('*', 0x09, true),
  ('(', 0x0A, true), (')', 0x0B, true),
  -- Punctuation: minus, equals, brackets, backslash, semicolon, quote, grave accent, comma,
  -- period and slash
  ('-', 0x0C, false), ('=', 0x0D, false), ('[', 0x1A, false), (']', 0x1B, false),
  ('\x5c', 0x2B, false), (';', 0x27, false), ('\x27', 0x28, false), ('\x60', 0x29, false),
  (',', 0x33, false), ('.', 0x34, false), ('/', 0x35, false),
  -- Shifted punctuation: underscore, plus, braces, bar, colon, double quote, tilde, angle
  -- brackets and question mark
  ('_', 0x0C, true), ('+', 0x0D, true), ('\x7b', 0x1A, true), ('\x7d', 0x1B, true),
  ('|', 0x2B, true), (':', 0x27, true), ('\x22', 0x28, true), ('~', 0x29, true),
  ('<', 0x33, true), ('>', 0x34, true), ('?', 0x35, true),
  -- Whitespace
  (' ', 0x39, false), ('\t', 0x0F, false), ('\n', 0x1C, false)]

def charToScancode (c : Char) : Option (UInt32 × Bool) := scancodeTable.lookup c

/-- The codes that type a character. -/
structure PasteKey where
  press : UInt32
  release : UInt32
  /-- Whether left shift must be held. -/
  shift : Bool

/-- The characters that no key types. -/
structure PasteError where
  /-- How many distinct ones there are. -/
  count : Nat
  /-- The first three at most. -/
  sample : List Char

def noteBad (bad : List Char) (c : Char) : List Char :=
  if c = '\r' then bad
  else if (charToScancode c).isNone && !bad.contains c then bad ++ [c]
  else bad

def badChars (text : List Char) : List Char := text.foldl noteBad []

def typeChar (c : Char) : Outcome PasteError PasteKey :=
  match charToScancode c with
  | some (base, shift) => .ok ⟨makeScancode base false, makeScancode base true, shift⟩
  | none => .fault .assertion

/-- The characters typed for a text: a line break of any kind is one Enter. -/
def typedChars : List Char → List Char
  | [] => []
  | '\r' :: '\n' :: rest => '\n' :: typedChars rest
  | c :: rest => (if c = '\r' then '\n' else c) :: typedChars rest

/-- The keys that type a text. -/
def translatePaste (text : List Char) : Outcome PasteError (List PasteKey) :=
  let bad := badChars text
  if bad.isEmpty then (typedChars text).mapM typeChar
  else .error ⟨bad.length, bad.take 3⟩

theorem scancodeForLogicalKey_paired {key : LogicalKey} {press release : UInt32}
    (codes : scancodeForLogicalKey key = some (press, release)) : release = breakCode press := by
  have paired : ∀ entry ∈ logicalKeyTable,
      makeScancode entry.2 true = breakCode (makeScancode entry.2 false) := by
    decide +kernel
  obtain ⟨base, found, made⟩ := Option.map_eq_some_iff.mp codes
  obtain ⟨rfl, rfl⟩ := Prod.mk.inj made
  obtain ⟨before, after, table_eq, -⟩ := lookup_eq_some_iff.mp found
  exact paired (key, base) (by rw [table_eq]; simp)

/-! ## What the translation guarantees -/

/-- The code of each row's first key, and the characters of its keys without and with shift. -/
def usQwertyRows : List (Nat × String × String) := [
  (0x02, "1234567890-=", "!@#$%^&*()_+"), (0x0F, "\t", ""),
  (0x10, "qwertyuiop[]\n", "QWERTYUIOP\x7b\x7d"), (0x1E, "asdfghjkl;'\x60", "ASDFGHJKL:\"~"),
  (0x2B, "\\zxcvbnm,./", "|ZXCVBNM<>?"), (0x39, " ", "")]

def usQwertyChars : List Char :=
  usQwertyRows.flatMap fun (_, plain, shifted) => plain.toList ++ shifted.toList

/-- The character that a key types on such a keyboard. -/
def PasteKey.char (key : PasteKey) : Option Char :=
  usQwertyRows.findSome? fun (first, plain, shifted) =>
    if first ≤ key.press.toNat then
      (if key.shift then shifted else plain).toList[key.press.toNat - first]?
    else none

def crlfToLf : List Char → List Char
  | [] => []
  | '\r' :: '\n' :: rest => '\n' :: crlfToLf rest
  | c :: rest => c :: crlfToLf rest

/-- A text with CRLF and then every other CR turned into LF. -/
def unixLines (text : List Char) : List Char :=
  (crlfToLf text).map fun c => if c = '\r' then '\n' else c

/-- The release belongs to the press, and neither is a code of control, shift or alt. -/
structure PasteKey.Typed (key : PasteKey) : Prop where
  paired : key.release = breakCode key.press
  press_plain : key.press ∉ [0x1D, 0x2A, 0x38]
  release_plain : key.release ∉ [0x9D, 0xAA, 0xB8]

variable {c : Char} {bad text : List Char}

theorem typeChar_ok (present : (charToScancode c).isSome) :
    ∃ key, typeChar c = .ok key ∧ key.char = some c ∧ key.Typed := by
  have typed : ∀ entry ∈ scancodeTable,
      PasteKey.char ⟨makeScancode entry.2.1 false, 0, entry.2.2⟩ = some entry.1 ∧
      makeScancode entry.2.1 true = breakCode (makeScancode entry.2.1 false) ∧
      makeScancode entry.2.1 false ∉ [0x1D, 0x2A, 0x38] ∧
      makeScancode entry.2.1 true ∉ [0x9D, 0xAA, 0xB8] := by
    decide +kernel
  obtain ⟨⟨base, shift⟩, found⟩ := Option.isSome_iff_exists.mp present
  obtain ⟨before, after, table_eq, -⟩ := lookup_eq_some_iff.mp found
  obtain ⟨char, paired, press, release⟩ := typed (c, base, shift) (by rw [table_eq]; simp)
  simp only [typeChar, found]
  exact ⟨_, rfl, char, paired, press, release⟩

theorem charToScancode_isSome : (charToScancode c).isSome ↔ c ∈ usQwertyChars := by
  constructor
  · intro present
    have keys : ∀ entry ∈ scancodeTable, entry.1 ∈ usQwertyChars := by decide +kernel
    obtain ⟨key, found⟩ := Option.isSome_iff_exists.mp present
    obtain ⟨before, after, table_eq, -⟩ := lookup_eq_some_iff.mp found
    exact keys (c, key) (by rw [table_eq]; simp)
  · have table : ∀ c ∈ usQwertyChars, (charToScancode c).isSome := by
      rw [← all_eq_true]
      decide +kernel
    exact table c

theorem mem_noteBad {other : Char} : other ∈ noteBad bad c ↔
    other ∈ bad ∨ other = c ∧ other ≠ '\r' ∧ other ∉ usQwertyChars := by
  rw [← charToScancode_isSome, Option.not_isSome_iff_eq_none, ← Option.isNone_iff_eq_none,
    noteBad]
  split
  · grind
  split
  · grind
  · grind

theorem mem_badChars : c ∈ badChars text ↔ c ∈ text ∧ c ≠ '\r' ∧ c ∉ usQwertyChars := by
  have fold : ∀ bad, c ∈ text.foldl noteBad bad ↔
      c ∈ bad ∨ c ∈ text ∧ c ≠ '\r' ∧ c ∉ usQwertyChars := by
    induction text with
    | nil => simp
    | cons first rest ih =>
      intro bad
      rw [foldl_cons, ih, mem_noteBad, or_assoc, mem_cons, or_and_right]
  simpa [badChars] using fold []

theorem typedChars_eq (text : List Char) : typedChars text = unixLines text := by
  unfold unixLines
  fun_induction typedChars text with
  | case1 => rfl
  | case2 rest ih | case3 c rest _ ih => simp [crlfToLf, ih]

theorem mem_typedChars (typed : c ∈ typedChars text) : c = '\n' ∨ c ∈ text ∧ c ≠ '\r' := by
  fun_induction typedChars text with
  | case1 => simp at typed
  | case2 rest ih =>
    rcases mem_cons.mp typed with rfl | later
    · exact .inl rfl
    · exact (ih later).imp_right fun ⟨listed, other⟩ => ⟨by simp [listed], other⟩
  | case3 first rest _ ih =>
    rcases mem_cons.mp typed with rfl | later
    · split
      · exact .inl rfl
      · exact .inr ⟨mem_cons_self, by assumption⟩
    · exact (ih later).imp_right fun ⟨listed, other⟩ => ⟨by simp [listed], other⟩

theorem mapM_typeChar {chars : List Char} (present : ∀ c ∈ chars, c ∈ usQwertyChars) :
    ∃ keys, chars.mapM typeChar = .ok keys ∧ keys.map PasteKey.char = chars.map some ∧
      ∀ key ∈ keys, key.Typed := by
  induction chars with
  | nil => exact ⟨[], rfl, rfl, nofun⟩
  | cons c chars ih =>
    obtain ⟨known, others⟩ := forall_mem_cons.mp present
    obtain ⟨key, made, char, typed⟩ := typeChar_ok (charToScancode_isSome.mpr known)
    obtain ⟨keys, all_made, same, all⟩ := ih others
    refine ⟨key :: keys, ?_, ?_, forall_mem_cons.mpr ⟨typed, all⟩⟩
    · rw [mapM_cons, made, ok_bind, all_made]
      rfl
    · rw [map_cons, map_cons, char, same]

theorem translatePaste_of_known (known : ∀ c ∈ text, c ≠ '\r' → c ∈ usQwertyChars) :
    ∃ keys, translatePaste text = .ok keys ∧ keys.map PasteKey.char = (unixLines text).map some ∧
      ∀ key ∈ keys, key.Typed := by
  have none : badChars text = [] := eq_nil_iff_forall_not_mem.mpr fun c noted =>
    (mem_badChars.mp noted).2.2 (known c (mem_badChars.mp noted).1 (mem_badChars.mp noted).2.1)
  simp only [translatePaste, none, isEmpty_nil, if_true]
  rw [← typedChars_eq]
  refine mapM_typeChar fun c typed => ?_
  rcases mem_typedChars typed with rfl | ⟨listed, plain⟩
  · decide
  · exact known c listed plain

theorem translatePaste_of_unknown (unknown : c ∈ text ∧ c ≠ '\r' ∧ c ∉ usQwertyChars) :
    ∃ error, translatePaste text = .error error := by
  have noted : badChars text ≠ [] := ne_nil_of_mem (mem_badChars.mpr unknown)
  exact ⟨_, if_neg (by simpa using noted)⟩

theorem translatePaste_ensures (text : List Char) :
    (translatePaste text).Ensures fun keys => ∀ key ∈ keys, key.Typed := by
  by_cases known : ∀ c ∈ text, c ≠ '\r' → c ∈ usQwertyChars
  · obtain ⟨keys, returned, -, typed⟩ := translatePaste_of_known known
    rw [returned]
    exact typed
  · push Not at known
    obtain ⟨c, unknown⟩ := known
    obtain ⟨error, failed⟩ := translatePaste_of_unknown unknown
    rw [failed]
    trivial

/-- A text is typed exactly if its characters are on the layout, and no two of these share a key. -/
theorem paste_typed_exactly (text : List Char) :
    ((∃ error, translatePaste text = .error error) ↔
      ∃ c ∈ text, c ≠ '\r' ∧ c ∉ usQwertyChars) ∧
    ((∀ c ∈ text, c ≠ '\r' → c ∈ usQwertyChars) → ∃ keys, translatePaste text = .ok keys ∧
      keys.map PasteKey.char = (unixLines text).map some ∧
      ∀ key ∈ keys, key.release = breakCode key.press) ∧
    ∀ c d key key', typeChar c = .ok key → typeChar d = .ok key' →
      key.press = key'.press → key.shift = key'.shift → c = d := by
  refine ⟨⟨?_, ?_⟩, fun known => ?_, ?_⟩
  · rintro ⟨error, failed⟩
    by_contra known
    push Not at known
    obtain ⟨keys, returned, -⟩ := translatePaste_of_known known
    rw [returned] at failed
    cases failed
  · rintro ⟨c, unknown⟩
    exact translatePaste_of_unknown unknown
  · obtain ⟨keys, returned, typed, all⟩ := translatePaste_of_known known
    exact ⟨keys, returned, typed, fun key listed => (all key listed).paired⟩
  · intro c d key key' first second same_press same_shift
    have char {c key} (made : typeChar c = .ok key) : key.char = some c := by
      have present : (charToScancode c).isSome := by
        cases found : charToScancode c <;> simp_all [typeChar]
      obtain ⟨key', made', char, -⟩ := typeChar_ok present
      cases made.symm.trans made'
      exact char
    have same : key.char = key'.char := by rw [PasteKey.char, PasteKey.char, same_press, same_shift]
    exact Option.some.inj ((char first).symm.trans (same.trans (char second)))

end Ryll
