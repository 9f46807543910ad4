import Ryll.Foundation.Blanks
import Ryll.Foundation.Outcome

/-!
# Expected certificate subjects

A host subject is a text of comma-separated `key=value` entries.  Parsing it gives the attributes
that the subject of the server's certificate has to carry, in order, with their values in a normal
form.  A text is accepted exactly if it is an encoding of a list of attributes.
-/

namespace Ryll

open List

/-- The attributes that are known. -/
inductive SubjectAttr
  | countryName
  | stateOrProvinceName
  | localityName
  | organizationName
  | organizationalUnitName
  | commonName
  | domainComponent
  | emailAddress
  deriving DecidableEq

namespace SubjectAttr

def fromKey : List Char → Option SubjectAttr
  | ['C'] => some countryName
  | ['S', 'T'] => some stateOrProvinceName
  | ['L'] => some localityName
  | ['O'] => some organizationName
  | ['O', 'U'] => some organizationalUnitName
  | ['C', 'N'] => some commonName
  | ['D', 'C'] => some domainComponent
  | ['e', 'm', 'a', 'i', 'l', 'A', 'd', 'd', 'r', 'e', 's', 's'] => some emailAddress
  | _ => none

def oid : SubjectAttr → List Nat
  | countryName => [2, 5, 4, 6]
  | stateOrProvinceName => [2, 5, 4, 8]
  | localityName => [2, 5, 4, 7]
  | organizationName => [2, 5, 4, 10]
  | organizationalUnitName => [2, 5, 4, 11]
  | commonName => [2, 5, 4, 3]
  | domainComponent => [0, 9, 2342, 19200300, 100, 1, 25]
  | emailAddress => [1, 2, 840, 113549, 1, 9, 1]

def shortName : SubjectAttr → List Char
  | countryName => ['C']
  | stateOrProvinceName => ['S', 'T']
  | localityName => ['L']
  | organizationName => ['O']
  | organizationalUnitName => ['O', 'U']
  | commonName => ['C', 'N']
  | domainComponent => ['D', 'C']
  | emailAddress => ['e', 'm', 'a', 'i', 'l', 'A', 'd', 'd', 'r', 'e', 's', 's']

theorem fromKey_eq_some {key : List Char} {attr : SubjectAttr} :
    fromKey key = some attr ↔ key = attr.shortName := by
  constructor
  · intro found
    unfold fromKey at found
    split at found <;> cases found <;> rfl
  · rintro rfl
    cases attr <;> rfl

theorem shortName_plain (attr : SubjectAttr) :
    ∀ c ∈ attr.shortName, c ≠ '\\' ∧ c ≠ ',' ∧ c ≠ '=' ∧ c ≠ ' ' := by
  cases attr <;> simp [shortName]

end SubjectAttr

/-- Why a subject is refused. -/
inductive SubjectMismatch
  | count (found expected : Nat)
  | attrType (index : Nat) (found : List Nat) (expected : SubjectAttr)
  | encoding (index : Nat) (attr : SubjectAttr)
  | value (index : Nat) (attr : SubjectAttr) (found : List Char)
  deriving DecidableEq

/-- Why a text is refused. -/
inductive HostSubjectError
  | invalidEscape
  | missingAssignment (key : List Char)
  | truncatedEntry (key : List Char)
  | emptyValue (key : List Char)
  | unknownKey (key : List Char)
  | certificateParse (reason : String)
  | mismatch (expected : List Char) (reason : SubjectMismatch)
  deriving DecidableEq

def isAsciiWhitespace (c : Char) : Bool :=
  c == ' ' || c == '\t' || c == '\n' || c == '\x0c' || c == '\r'

variable (value : List Char)

def normalise : List Char :=
  ([' '].intercalate (words isAsciiWhitespace value)).map Char.toLower

/-- What a value is compared by: trimmed, runs of white space collapsed, case folded. -/
def normalForm : List Char :=
  (collapse isAsciiWhitespace ' ' (trim isAsciiWhitespace value)).map Char.toLower

theorem normalise_eq : normalise value = normalForm value := by
  rw [normalise, join_words, normalForm]

/-- A parsed host subject. -/
structure ExpectedSubject where
  original : List Char
  entries : List (SubjectAttr × List Char)

/-- An attribute of a certificate's subject; the text is missing if its encoding is unsupported. -/
structure SubjectAttribute where
  attrType : List Nat
  asStr : Option (List Char)

/-- What reading a certificate gives: the bytes after it and the parts of its subject. -/
abbrev ParsedCertificate := Except String (Nat × List (List SubjectAttribute))

namespace ExpectedSubject

def matchEntries (expected : ExpectedSubject) : Nat → List SubjectAttribute →
    List (SubjectAttr × List Char) → Outcome HostSubjectError Unit
  | index, ava :: avas, (attr, want) :: entries =>
    if ava.attrType ≠ attr.oid then
      .error (.mismatch expected.original (.attrType index ava.attrType attr))
    else
      match ava.asStr with
      | none => .error (.mismatch expected.original (.encoding index attr))
      | some got =>
        if normalise got ≠ want then
          .error (.mismatch expected.original (.value index attr got))
        else
          expected.matchEntries (index + 1) avas entries
  | _, _, _ => .ok ()

def matchesCertDer (expected : ExpectedSubject) (parsed : ParsedCertificate) :
    Outcome HostSubjectError Unit :=
  match parsed with
  | .error reason => .error (.certificateParse reason)
  | .ok (rem, subject) =>
    if rem ≠ 0 then
      .error (.certificateParse
        (toString rem ++ " bytes of trailing data after the certificate"))
    else if subject.flatten.length ≠ expected.entries.length then
      .error (.mismatch expected.original
        (.count subject.flatten.length expected.entries.length))
    else
      expected.matchEntries 0 subject.flatten expected.entries

/-- An attribute of a certificate is the expected one, with the same value in normal form. -/
def Carries (ava : SubjectAttribute) (entry : SubjectAttr × List Char) : Prop :=
  ava.attrType = entry.1.oid ∧ ∃ got, ava.asStr = some got ∧ normalForm got = entry.2

variable {expected : ExpectedSubject}

theorem matchEntries_eq_ok {index : Nat} {avas : List SubjectAttribute}
    {entries : List (SubjectAttr × List Char)} (same : avas.length = entries.length) :
    expected.matchEntries index avas entries = .ok () ↔ List.Forall₂ Carries avas entries := by
  induction avas generalizing index entries with
  | nil =>
    obtain rfl := length_eq_zero_iff.mp same.symm
    simp [matchEntries]
  | cons ava avas ih =>
    obtain ⟨⟨attr, want⟩, entries, rfl⟩ := exists_cons_of_length_eq_add_one same.symm
    have others := @ih (index + 1) entries (by simpa using same)
    rw [List.forall₂_cons, matchEntries, Carries]
    by_cases typed : ava.attrType = attr.oid
    · cases text : ava.asStr with
      | none => simp [typed]
      | some got =>
        by_cases equal : normalForm got = want <;> simp [typed, normalise_eq, equal, others]
    · simp [typed]

theorem matchesCertDer_eq_ok {parsed : ParsedCertificate} :
    expected.matchesCertDer parsed = .ok () ↔ ∃ subject, parsed = .ok (0, subject) ∧
      List.Forall₂ Carries subject.flatten expected.entries := by
  rcases parsed with reason | ⟨rem, subject⟩
  · simp [matchesCertDer]
  rw [matchesCertDer]
  by_cases whole : rem = 0
  · by_cases counted : subject.flatten.length = expected.entries.length
    · simp only [whole, counted, ne_eq, not_true_eq_false, if_false, matchEntries_eq_ok counted,
        Except.ok.injEq, Prod.mk.injEq, true_and, exists_eq_left']
    · have differs : ¬ List.Forall₂ Carries subject.flatten expected.entries :=
        fun matched => counted matched.length_eq
      simp only [whole, counted, ne_eq, not_true_eq_false, not_false_eq_true, if_false, if_true,
        reduceCtorEq, Except.ok.injEq, Prod.mk.injEq, true_and, exists_eq_left', differs]
  · simp [whole]

end ExpectedSubject

/-- The state of the parser. -/
structure SubjectParser where
  entries : List (SubjectAttr × List Char)
  key : List Char
  value : List Char
  inValue : Bool

namespace SubjectParser

variable (parser : SubjectParser)

def terminate : Outcome HostSubjectError SubjectParser :=
  if parser.value = [] then
    .error (.emptyValue parser.key)
  else
    match SubjectAttr.fromKey parser.key with
    | none => .error (.unknownKey parser.key)
    | some attr => .ok ⟨parser.entries ++ [(attr, normalise parser.value)], [], [], false⟩

def readKey (c : Char) (escaped : Bool) : Outcome HostSubjectError SubjectParser :=
  if c = ' ' ∧ parser.key = [] then
    .ok parser
  else if c = ',' ∧ ¬ escaped then
    .error (.missingAssignment parser.key)
  else if c = '=' ∧ ¬ escaped then
    .ok { parser with inValue := true }
  else
    .ok { parser with key := parser.key ++ [c] }

def readValue (c : Char) (escaped : Bool) : Outcome HostSubjectError SubjectParser :=
  if c = ',' ∧ ¬ escaped then
    parser.terminate
  else
    .ok { parser with value := parser.value ++ [c] }

def read (c : Char) (escaped : Bool) : Outcome HostSubjectError SubjectParser :=
  if parser.inValue then parser.readValue c escaped else parser.readKey c escaped

def finish : Outcome HostSubjectError (List (SubjectAttr × List Char)) :=
  if parser.inValue then do
    let parser ← parser.terminate
    return parser.entries
  else if parser.key = [] then
    .ok parser.entries
  else
    .error (.truncatedEntry parser.key)

def loop : List Char → SubjectParser → Outcome HostSubjectError (List (SubjectAttr × List Char))
  | [], parser => parser.finish
  | c :: rest, parser =>
    if c = '\\' then
      match rest with
      | [] => .error .invalidEscape
      | next :: rest =>
        if next = '\\' ∨ next = ',' then do
          let parser ← parser.read next true
          loop rest parser
        else
          .error .invalidEscape
    else do
      let parser ← parser.read c false
      loop rest parser

end SubjectParser

/-- Parse a host subject. -/
def parseHostSubject (subject : List Char) : Outcome HostSubjectError ExpectedSubject := do
  let entries ← SubjectParser.loop subject ⟨[], [], [], false⟩
  return ⟨subject, entries⟩

/-- An attribute as it is written, after a number of spaces. -/
structure SubjectEntry where
  spaces : Nat
  attr : SubjectAttr
  value : List Char

def escape : List Char → List Char
  | [] => []
  | c :: rest => if c = '\\' ∨ c = ',' then '\\' :: c :: escape rest else c :: escape rest

theorem escape_of_plain {text : List Char} (plain : ∀ c ∈ text, c ≠ '\\' ∧ c ≠ ',') :
    escape text = text := by
  induction text with
  | nil => rfl
  | cons c rest ih =>
    obtain ⟨backslash, comma⟩ := plain c (by simp)
    rw [escape, if_neg (by simp [backslash, comma]),
      ih fun c member => plain c (mem_cons_of_mem _ member)]

namespace SubjectEntry

variable (entry : SubjectEntry)

def encode : List Char :=
  List.replicate entry.spaces ' ' ++ entry.attr.shortName ++ '=' :: escape entry.value

def encodeAll (entries : List SubjectEntry) : List Char := [','].intercalate (entries.map encode)

theorem encodeAll_singleton : encodeAll [entry] = entry.encode := by
  simp [encodeAll]

theorem encodeAll_cons_cons (next : SubjectEntry) (list : List SubjectEntry) :
    encodeAll (entry :: next :: list) = entry.encode ++ ',' :: encodeAll (next :: list) := by
  simp [encodeAll]

def denoted : SubjectAttr × List Char := (entry.attr, normalForm entry.value)

/-- What may follow the entries: spaces, after a comma if there are entries, or nothing. -/
def Ending : List SubjectEntry → List Char → Prop
  | [], tail => ∃ spaces, tail = List.replicate spaces ' '
  | _ :: _, tail => tail = [] ∨ ∃ spaces, tail = ',' :: List.replicate spaces ' '

end SubjectEntry

open SubjectEntry

namespace SubjectParser

variable {entries found : List (SubjectAttr × List Char)} {key value rest text : List Char}

def between (entries : List (SubjectAttr × List Char)) : SubjectParser := ⟨entries, [], [], false⟩

theorem loop_plain {c : Char} (plain : c ≠ '\\') (parser : SubjectParser) :
    loop (c :: rest) parser = parser.read c false >>= loop rest := by
  cases rest <;> exact if_neg plain

theorem loop_spaces (spaces : Nat) :
    loop (List.replicate spaces ' ' ++ rest) (between entries) = loop rest (between entries) := by
  induction spaces with
  | zero => rfl
  | succ spaces ih =>
    rw [replicate_succ, cons_append, loop_plain (by decide)]
    simpa [read, readKey, between] using ih

theorem loop_key (plain : ∀ c ∈ text, c ≠ '\\' ∧ c ≠ ',' ∧ c ≠ '=' ∧ c ≠ ' ') :
    loop (text ++ rest) ⟨entries, key, [], false⟩ =
      loop rest ⟨entries, key ++ text, [], false⟩ := by
  induction text generalizing key with
  | nil => simp
  | cons c text ih =>
    obtain ⟨backslash, comma, equals, space⟩ := plain c (by simp)
    rw [cons_append, loop_plain backslash]
    simp only [read, readKey, Bool.false_eq_true, if_false, space, comma, equals, false_and,
      ok_bind]
    rw [ih fun c member => plain c (mem_cons_of_mem _ member)]
    simp

theorem loop_value (text : List Char) : loop (escape text ++ rest) ⟨entries, key, value, true⟩ =
      loop rest ⟨entries, key, value ++ text, true⟩ := by
  induction text generalizing value with
  | nil => simp [escape]
  | cons c text ih =>
    rw [escape]
    split
    · next special =>
      rw [cons_append, cons_append, loop, if_pos special]
      simp [read, readValue, ih]
    · next plain =>
      rw [not_or] at plain
      rw [cons_append, loop_plain plain.1]
      simp [read, readValue, plain.2, ih]

variable {parser : SubjectParser} {entry : SubjectEntry}

theorem terminate_eq_ok {next : SubjectParser} :
    parser.terminate = .ok next ↔ ∃ attr : SubjectAttr, parser.key = attr.shortName ∧
      parser.value ≠ [] ∧ next = between (parser.entries ++ [(attr, normalForm parser.value)]) := by
  by_cases filled : parser.value = []
  · simp [terminate, filled]
  · simp only [terminate, filled, if_false, normalise_eq, ← SubjectAttr.fromKey_eq_some]
    cases known : SubjectAttr.fromKey parser.key with
    | none => simp
    | some attr => simp [between, filled, eq_comm]

theorem loop_entry (entry : SubjectEntry) : loop (entry.encode ++ rest) (between entries) =
      loop rest ⟨entries, entry.attr.shortName, entry.value, true⟩ := by
  rw [encode, append_assoc, append_assoc, loop_spaces, between,
    loop_key entry.attr.shortName_plain, cons_append, loop_plain (by decide)]
  exact loop_value entry.value

theorem loop_entry_comma (filled : entry.value ≠ []) :
    loop (entry.encode ++ ',' :: rest) (between entries) =
      loop rest (between (entries ++ [entry.denoted])) := by
  have complete : read ⟨entries, entry.attr.shortName, entry.value, true⟩ ',' false =
      .ok (between (entries ++ [entry.denoted])) :=
    terminate_eq_ok.mpr ⟨entry.attr, rfl, filled, rfl⟩
  rw [loop_entry, loop_plain (by decide), complete, ok_bind]

theorem loop_entry_nil (filled : entry.value ≠ []) :
    loop entry.encode (between entries) = .ok (entries ++ [entry.denoted]) := by
  have complete : terminate ⟨entries, entry.attr.shortName, entry.value, true⟩ =
      .ok (between (entries ++ [entry.denoted])) :=
    terminate_eq_ok.mpr ⟨entry.attr, rfl, filled, rfl⟩
  rw [← append_nil entry.encode, loop_entry, loop, finish, if_pos rfl, complete]
  rfl

theorem loop_only_spaces (spaces : Nat) :
    loop (List.replicate spaces ' ') (between entries) = .ok entries := by
  rw [← append_nil (List.replicate spaces ' '), loop_spaces]
  rfl

theorem loop_encodeAll {tail : List Char} {list : List SubjectEntry}
    (filled : ∀ entry ∈ list, entry.value ≠ []) (ending : Ending list tail) :
    loop (encodeAll list ++ tail) (between entries) =
      .ok (entries ++ list.map denoted) := by
  induction list generalizing entries with
  | nil =>
    obtain ⟨spaces, rfl⟩ := ending
    simpa [encodeAll] using loop_only_spaces spaces
  | cons entry list ih =>
    have here : entry.value ≠ [] := filled entry (by simp)
    cases list with
    | nil =>
      rw [encodeAll_singleton]
      rcases ending with rfl | ⟨spaces, rfl⟩
      · rw [append_nil, loop_entry_nil here, map_singleton]
      · rw [loop_entry_comma here, loop_only_spaces, map_singleton]
    | cons next list =>
      rw [encodeAll_cons_cons, append_assoc, cons_append,
        loop_entry_comma here, ih (fun entry member => filled entry (by simp [member])) ending]
      simp

@[elab_as_elim]
theorem loop_induction {motive : List Char → SubjectParser → Prop}
    (ends : ∀ parser, parser.finish = .ok found → motive [] parser)
    (escaped : ∀ c rest parser next, c = '\\' ∨ c = ',' → parser.read c true = .ok next →
      loop rest next = .ok found → motive rest next → motive ('\\' :: c :: rest) parser)
    (plain : ∀ c rest parser next, c ≠ '\\' → parser.read c false = .ok next →
      loop rest next = .ok found → motive rest next → motive (c :: rest) parser)
    (text : List Char) (parser : SubjectParser) (accepted : loop text parser = .ok found) :
    motive text parser := by
  fun_induction loop text parser with
  | case1 parser => exact ends parser accepted
  | case2 => cases accepted
  | case3 parser next rest special ih =>
    obtain ⟨after, read, accepted⟩ := bind_eq_ok.mp accepted
    exact escaped next rest parser after special read accepted (ih after accepted)
  | case4 => cases accepted
  | case5 c rest parser other ih =>
    obtain ⟨after, read, accepted⟩ := bind_eq_ok.mp accepted
    exact plain c rest parser after other read accepted (ih after accepted)

theorem value_of_loop (accepted : loop text parser = .ok found) (inside : parser.inValue) :
    ∃ (more : List Char) (attr : SubjectAttr), parser.key = attr.shortName ∧
      parser.value ++ more ≠ [] ∧
      let entries := parser.entries ++ [(attr, normalForm (parser.value ++ more))]
      (text = escape more ∧ found = entries) ∨
        ∃ rest, text = escape more ++ ',' :: rest ∧ loop rest (between entries) = .ok found := by
  revert inside
  refine loop_induction ?_ ?_ ?_ text parser accepted
  · intro parser done inside
    rw [finish, if_pos inside] at done
    obtain ⟨next, complete, same⟩ := bind_eq_ok.mp done
    obtain ⟨attr, known, filled, rfl⟩ := terminate_eq_ok.mp complete
    cases same
    exact ⟨[], attr, known, by simpa using filled, .inl ⟨rfl, by simp [between]⟩⟩
  · intro c rest parser next special step _ ih inside
    simp only [read, inside, if_true, readValue, not_true_eq_false, and_false, if_false] at step
    cases step
    obtain ⟨more, attr, known, filled, split⟩ := ih rfl
    refine ⟨c :: more, attr, known, by simp, ?_⟩
    simpa [escape, special] using split
  · intro c rest parser next plain step accepted ih inside
    by_cases comma : c = ','
    · simp only [read, inside, if_true, readValue, comma, Bool.false_eq_true, not_false_eq_true,
        and_self] at step
      obtain ⟨attr, known, filled, rfl⟩ := terminate_eq_ok.mp step
      exact ⟨[], attr, known, by simpa using filled, .inr ⟨rest, by simp [escape, comma],
        by simpa using accepted⟩⟩
    · simp only [read, inside, if_true, readValue, comma, false_and, if_false] at step
      cases step
      obtain ⟨more, attr, known, filled, split⟩ := ih rfl
      refine ⟨c :: more, attr, known, by simp, ?_⟩
      simpa [escape, plain, comma] using split

theorem key_of_loop (accepted : loop text parser = .ok found) (inside : parser.inValue = false) :
    (parser.key = [] ∧ found = parser.entries ∧ ∃ spaces, text = List.replicate spaces ' ') ∨
      ∃ (spaces : Nat) (more rest : List Char), (parser.key ≠ [] → spaces = 0) ∧
        text = List.replicate spaces ' ' ++ escape more ++ '=' :: rest ∧
        loop rest { parser with key := parser.key ++ more, inValue := true } = .ok found := by
  revert inside
  refine loop_induction ?_ ?_ ?_ text parser accepted
  · intro parser done inside
    by_cases fresh : parser.key = []
    · simp only [finish, inside, Bool.false_eq_true, if_false, fresh, if_true] at done
      cases done
      exact .inl ⟨fresh, rfl, 0, rfl⟩
    · simp [finish, inside, fresh] at done
  · intro c rest parser next special step _ ih inside
    have pushed : next = { parser with key := parser.key ++ [c] } := by
      rcases special with rfl | rfl <;> simpa [read, inside, readKey, eq_comm] using step
    subst pushed
    obtain ⟨fresh, -⟩ | ⟨spaces, more, rest, none, rfl, onward⟩ := ih inside
    · simp at fresh
    · refine .inr ⟨0, c :: more, rest, fun _ => rfl, ?_, by simpa using onward⟩
      simp [none, escape, special]
  · intro c rest parser next plain step accepted ih inside
    rw [read, inside, if_neg (by decide), readKey] at step
    split at step
    · -- A space before the key.
      next blank =>
        cases step
        obtain ⟨rfl, fresh⟩ := blank
        obtain ⟨-, same, spaces, rfl⟩ | ⟨spaces, more, rest, -, rfl, onward⟩ := ih inside
        · exact .inl ⟨fresh, same, spaces + 1, rfl⟩
        · exact .inr ⟨spaces + 1, more, rest, fun used => absurd fresh used, rfl, onward⟩
    · split at step
      · cases step
      · next comma =>
        split at step
        · next equals =>
          cases step
          obtain ⟨rfl, -⟩ := equals
          exact .inr ⟨0, [], rest, fun _ => rfl, rfl, by simpa using accepted⟩
        · cases step
          obtain ⟨fresh, -⟩ | ⟨spaces, more, rest, none, rfl, onward⟩ := ih inside
          · simp at fresh
          · refine .inr ⟨0, c :: more, rest, fun _ => rfl, ?_, by simpa using onward⟩
            have other : c ≠ ',' := by simpa using comma
            simp [none, escape, plain, other]

theorem entry_of_loop (accepted : loop text (between entries) = .ok found) :
    (found = entries ∧ ∃ spaces, text = List.replicate spaces ' ') ∨
      ∃ entry : SubjectEntry, entry.value ≠ [] ∧
        ((text = entry.encode ∧ found = entries ++ [entry.denoted]) ∨
          ∃ rest, text = entry.encode ++ ',' :: rest ∧
            loop rest (between (entries ++ [entry.denoted])) = .ok found) := by
  obtain ⟨-, same, spaces, rfl⟩ | ⟨spaces, key, rest, -, rfl, onward⟩ := key_of_loop accepted rfl
  · exact .inl ⟨same, spaces, rfl⟩
  right
  obtain ⟨value, attr, known, filled, split⟩ := value_of_loop onward rfl
  obtain rfl : key = attr.shortName := known
  have plain : escape attr.shortName = attr.shortName :=
    escape_of_plain fun c member =>
      ⟨(attr.shortName_plain c member).1, (attr.shortName_plain c member).2.1⟩
  refine ⟨⟨spaces, attr, value⟩, filled, ?_⟩
  rcases split with ⟨rfl, rfl⟩ | ⟨after, rfl, complete⟩
  · exact .inl ⟨by simp [encode, plain], rfl⟩
  · exact .inr ⟨after, by simp [encode, plain], complete⟩

theorem encodeAll_of_loop (accepted : loop text (between entries) = .ok found) :
    ∃ list tail, (∀ entry ∈ list, entry.value ≠ []) ∧ Ending list tail ∧
      text = encodeAll list ++ tail ∧
      found = entries ++ list.map denoted := by
  -- Each entry shortens the text by more than its comma.
  induction size : text.length using Nat.strong_induction_on generalizing text entries with
  | h size ih =>
    obtain ⟨rfl, spaces, rfl⟩ | ⟨entry, filled, ⟨rfl, rfl⟩ | ⟨rest, rfl, onward⟩⟩ :=
      entry_of_loop accepted
    · exact ⟨[], _, by simp, ⟨spaces, rfl⟩, by simp [encodeAll], by simp⟩
    · exact ⟨[entry], [], by simpa using filled, .inl rfl,
        by simp [encodeAll_singleton], by simp⟩
    · obtain ⟨list, tail, others, ending, rfl, rfl⟩ :=
        ih rest.length (by simp at size; omega) onward rfl
      cases list with
      | nil =>
        obtain ⟨spaces, rfl⟩ := ending
        exact ⟨[entry], _, by simpa using filled, .inr ⟨spaces, rfl⟩,
          by simp [encodeAll], by simp⟩
      | cons next list =>
        refine ⟨entry :: next :: list, tail, ?_, ending, ?_, by simp⟩
        · intro other member
          rcases mem_cons.mp member with rfl | member
          · exact filled
          · exact others other member
        · simp [encodeAll_cons_cons]

end SubjectParser

/-- A host subject is accepted exactly if it is an encoding of filled entries, and then denotes
their attributes in order. -/
theorem parseHostSubject_iff (subject : List Char) (expected : ExpectedSubject) :
    parseHostSubject subject = .ok expected ↔ expected.original = subject ∧ ∃ list tail,
        (∀ entry ∈ list, entry.value ≠ []) ∧ Ending list tail ∧
        subject = encodeAll list ++ tail ∧
        expected.entries = list.map denoted := by
  constructor
  · intro accepted
    obtain ⟨entries, parsed, same⟩ := bind_eq_ok.mp accepted
    cases same
    obtain ⟨list, tail, filled, ending, split, found⟩ := SubjectParser.encodeAll_of_loop parsed
    exact ⟨rfl, list, tail, filled, ending, split, by simpa using found⟩
  · rintro ⟨rfl, list, tail, filled, ending, split, same⟩
    have accepted := @SubjectParser.loop_encodeAll [] tail list filled ending
    rw [← split, nil_append, ← same] at accepted
    rw [parseHostSubject, ← SubjectParser.between, accepted]
    rfl

end Ryll
