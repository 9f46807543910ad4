import Mathlib

/-!
# Words of a text

A text is cut into words at its blanks.  Joining the words with one space is the same as trimming
the text and collapsing each run of blanks inside it to one space.
-/

namespace Ryll

open List

variable {α : Type} (blank : α → Bool) (space : α)

def words (text : List α) : List (List α) := (text.splitOnP blank).filter fun word => !word.isEmpty

def trim (text : List α) : List α := (text.dropWhile blank).rdropWhile blank

/-- A text with each run of blanks replaced by one space. -/
def collapse : List α → List α
  | [] => []
  | symbol :: rest =>
    if blank symbol then
      if rest.head?.any blank then collapse rest else space :: collapse rest
    else
      symbol :: collapse rest

/-- Words that stand after a blank: nothing if there are none. -/
def spaced : List (List α) → List α
  | [] => []
  | word :: rest => space :: [space].intercalate (word :: rest)

variable {blank space} {symbol : α} {text rest : List α}

theorem words_nil : words blank [] = [] := by simp [words]

theorem words_cons_blank (blanks : blank symbol) :
    words blank (symbol :: rest) = words blank rest := by
  simp [words, splitOnP_cons_eq_if_modifyHead, blanks]

theorem words_cons_last (letter : ¬ blank symbol) (ends : ∀ next ∈ rest.head?, blank next) :
    words blank (symbol :: rest) = [symbol] :: words blank rest := by
  cases rest with
  | nil => simp [words, splitOnP_cons_eq_if_modifyHead, letter]
  | cons next rest =>
    have blanks : blank next := ends next rfl
    simp [words, splitOnP_cons_eq_if_modifyHead, letter, blanks]

theorem words_cons_inside {next : α} (rest : List α) (letter : ¬ blank symbol)
    (inside : ¬ blank next) : ∃ word others, words blank (next :: rest) = word :: others ∧
      words blank (symbol :: next :: rest) = (symbol :: word) :: others := by
  rcases split : rest.splitOnP blank with _ | ⟨word, others⟩
  · exact absurd split (splitOnP_ne_nil _ _)
  · refine ⟨next :: word, others.filter fun word => !word.isEmpty, ?_, ?_⟩
    · simp [words, splitOnP_cons_eq_if_modifyHead, inside, split]
    · simp [words, splitOnP_cons_eq_if_modifyHead, letter, inside, split]

theorem join_words_cons (letter : ¬ blank symbol) :
    [space].intercalate (words blank (symbol :: rest)) =
      symbol :: if rest.head?.any blank then spaced space (words blank rest)
        else [space].intercalate (words blank rest) := by
  cases rest with
  | nil =>
    rw [words_cons_last letter (by simp)]
    simp [words_nil]
  | cons next rest =>
    by_cases blanks : blank next
    · rw [words_cons_last letter (by simpa using blanks)]
      cases words blank (next :: rest) <;> simp [blanks, spaced]
    · obtain ⟨word, others, split, joined⟩ := words_cons_inside rest letter blanks
      rw [split, joined]
      cases others <;> simp [blanks]

theorem words_ne_nil (letter : ¬ blank symbol) : words blank (symbol :: rest) ≠ [] := by
  intro none
  have joined := @join_words_cons _ blank symbol symbol rest letter
  simp [none] at joined

theorem rdropWhile_cons :
    (symbol :: rest).rdropWhile blank =
      if rest.rdropWhile blank = [] then (if blank symbol then [] else [symbol])
      else symbol :: rest.rdropWhile blank := by
  simp only [List.rdropWhile, reverse_cons, dropWhile_append, reverse_eq_nil_iff, List.isEmpty_iff]
  split
  · by_cases blanks : blank symbol <;> simp [blanks]
  · simp

theorem words_eq_nil_iff : words blank text = [] ↔ text.rdropWhile blank = [] := by
  induction text with
  | nil => simp [words_nil]
  | cons symbol rest ih =>
    rw [rdropWhile_cons]
    by_cases blanks : blank symbol
    · rw [words_cons_blank blanks, ih]
      by_cases ends : rest.rdropWhile blank = [] <;> simp [blanks, ends]
    · by_cases ends : rest.rdropWhile blank = [] <;> simp [blanks, ends, words_ne_nil blanks]

theorem head?_rdropWhile (kept : text.rdropWhile blank ≠ []) :
    (text.rdropWhile blank).head? = text.head? := by
  cases text with
  | nil => simp
  | cons symbol rest =>
    rw [rdropWhile_cons] at kept ⊢
    split at kept
    · next ends =>
      by_cases blanks : blank symbol
      · simp [blanks] at kept
      · simp [ends, blanks]
    · next more => simp [more]

theorem collapse_rdropWhile :
    collapse blank space (text.rdropWhile blank) =
      if text.head?.any blank then spaced space (words blank text)
      else [space].intercalate (words blank text) := by
  induction text with
  | nil => simp [collapse, words_nil]
  | cons symbol rest ih =>
    rw [rdropWhile_cons]
    by_cases ends : rest.rdropWhile blank = []
    · have none : words blank rest = [] := words_eq_nil_iff.mpr ends
      by_cases blanks : blank symbol
      · simp [ends, blanks, collapse, words_cons_blank blanks, none, spaced]
      · simp [ends, blanks, collapse, join_words_cons blanks, none, spaced]
    · rw [if_neg ends, collapse, head?_rdropWhile ends, ih]
      by_cases blanks : blank symbol
      · obtain ⟨word, others, some⟩ := exists_cons_of_ne_nil (mt words_eq_nil_iff.mp ends)
        by_cases before : rest.head?.any blank <;>
          simp [blanks, before, words_cons_blank blanks, some, spaced]
      · simp [blanks, join_words_cons blanks]

theorem words_dropWhile : words blank (text.dropWhile blank) = words blank text := by
  induction text with
  | nil => rfl
  | cons symbol rest ih =>
    by_cases blanks : blank symbol
    · rw [dropWhile_cons_of_pos blanks, ih, words_cons_blank blanks]
    · rw [dropWhile_cons_of_neg blanks]

theorem join_words :
    [space].intercalate (words blank text) = collapse blank space (trim blank text) := by
  have inside : (text.dropWhile blank).head?.any blank = false := by
    rcases split : text.dropWhile blank with _ | ⟨symbol, rest⟩
    · rfl
    · have letter := head?_dropWhile_not blank text
      simpa [split] using letter
  rw [trim, collapse_rdropWhile, inside, words_dropWhile]
  simp

end Ryll
