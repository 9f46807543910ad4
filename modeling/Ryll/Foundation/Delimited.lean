import Mathlib

/-!
# Texts that end at a delimiter

A text read symbol by symbol ends where a delimiter has first been read.  A text made of lines that
hold no part of their terminator holds exactly one terminator for each line.
-/

namespace Ryll

open List

variable {α : Type} {delimiter text before rest : List α}

/-- The delimiter is first read in full at a position. -/
def EndsAt (delimiter text : List α) (position : Nat) : Prop :=
  position ≤ text.length ∧ delimiter <:+ text.take position ∧
    ∀ earlier < position, ¬ delimiter <:+ text.take earlier

theorem EndsAt.unique {first second : Nat} (one : EndsAt delimiter text first)
    (other : EndsAt delimiter text second) : first = second := by
  rcases Nat.lt_trichotomy first second with less | same | more
  · exact absurd one.2.1 (other.2.2 first less)
  · exact same
  · exact absurd other.2.1 (one.2.2 second more)

theorem exists_endsAt (complete : delimiter <:+ text) :
    ∃ position, EndsAt delimiter text position := by
  classical
  have whole : delimiter <:+ text.take text.length := by simpa using complete
  have found : ∃ position, delimiter <:+ text.take position := ⟨text.length, whole⟩
  exact ⟨Nat.find found, Nat.find_min' found whole, Nat.find_spec found,
    fun earlier less => Nat.find_min found less⟩

theorem clear_append_singleton {symbol : α} (incomplete : ¬ delimiter <:+ before ++ [symbol])
    (clear : ∀ earlier ≤ before.length, ¬ delimiter <:+ (before ++ symbol :: rest).take earlier)
    (earlier : Nat) (reached : earlier ≤ (before ++ [symbol]).length) :
    ¬ delimiter <:+ (before ++ [symbol] ++ rest).take earlier := by
  rcases Nat.lt_or_eq_of_le reached with less | rfl
  · have within : earlier ≤ before.length := by simpa [Nat.lt_succ_iff] using less
    simpa using clear earlier within
  · rwa [take_left]

theorem pair_suffix_take {first second : α} {position : Nat} (inside : position + 2 ≤ text.length) :
    [first, second] <:+ text.take (position + 2) ↔
      (text.zip text.tail)[position]? = some (first, second) := by
  have split : text.take (position + 2) = text.take position ++
      [text[position], text[position + 1]] := by
    rw [take_succ_eq_append_getElem (show position + 1 < text.length by omega),
      take_succ_eq_append_getElem (show position < text.length by omega), append_assoc]
    rfl
  have pair : (text.zip text.tail)[position]? = some (text[position], text[position + 1]) := by
    simp [getElem?_zip_eq_some]
  rw [split, pair]
  constructor
  · rintro ⟨front, same⟩
    obtain ⟨-, same⟩ := append_inj' same rfl
    simpa [eq_comm] using same
  · intro same
    obtain ⟨rfl, rfl⟩ := Prod.mk.inj (Option.some.inj same)
    exact suffix_append _ _

theorem endsAt_pair_iff [DecidableEq α] {first second : α} {position : Nat} :
    EndsAt [first, second] text (position + 2) ↔
      (text.zip text.tail).findIdx? (· == (first, second)) = some position := by
  have width : (text.zip text.tail).length = text.length - 1 := by simp
  rw [findIdx?_eq_some_iff_getElem]
  constructor
  · rintro ⟨inside, found, clear⟩
    rw [pair_suffix_take inside, List.getElem?_eq_some_iff] at found
    obtain ⟨reached, same⟩ := found
    refine ⟨reached, by simpa using same, ?_⟩
    intro earlier less standing
    refine clear (earlier + 2) (by omega) ((pair_suffix_take (by omega)).mpr ?_)
    exact List.getElem?_eq_some_iff.mpr ⟨by omega, by simpa using standing⟩
  · rintro ⟨inside, found, clear⟩
    have within : position + 2 ≤ text.length := by omega
    refine ⟨within, ?_, ?_⟩
    · rw [pair_suffix_take within]
      exact List.getElem?_eq_some_iff.mpr ⟨inside, by simpa using found⟩
    · intro earlier less complete
      have long : 2 ≤ earlier := by
        have short := complete.length_le
        simp at short
        omega
      obtain ⟨start, rfl⟩ := Nat.exists_eq_add_of_le' long
      rw [pair_suffix_take (by omega), List.getElem?_eq_some_iff] at complete
      obtain ⟨_, same⟩ := complete
      exact clear start (by omega) (by simpa using same)

/-- How often two symbols stand next to each other. -/
def adjacent [DecidableEq α] (first second : α) (text : List α) : Nat :=
  (text.zip text.tail).count (first, second)

section Adjacent

variable [DecidableEq α] {first second : α}

theorem adjacent_cons_of_ne {symbol : α} (other : symbol ≠ first) :
    adjacent first second (symbol :: rest) = adjacent first second rest := by
  cases rest with
  | nil => simp [adjacent]
  | cons next rest => simp [adjacent, other]

theorem adjacent_append_of_not_mem (free : first ∉ before) :
    adjacent first second (before ++ rest) = adjacent first second rest := by
  induction before with
  | nil => rfl
  | cons symbol before ih =>
    rw [mem_cons, not_or] at free
    rw [cons_append, adjacent_cons_of_ne (Ne.symm free.1), ih free.2]

theorem adjacent_pair (distinct : second ≠ first) :
    adjacent first second (first :: second :: rest) = adjacent first second rest + 1 := by
  have skip : adjacent first second (second :: rest) = adjacent first second rest :=
    adjacent_cons_of_ne distinct
  rw [← skip]
  simp [adjacent]

theorem adjacent_lines (distinct : second ≠ first) {lines : List (List α)}
    (free : ∀ line ∈ lines, first ∉ line) :
    adjacent first second (lines.flatMap fun line => line ++ [first, second]) = lines.length := by
  induction lines with
  | nil => rfl
  | cons line lines ih =>
    rw [flatMap_cons, append_assoc, adjacent_append_of_not_mem (free line (by simp)),
      cons_append, cons_append, nil_append, adjacent_pair distinct,
      ih fun line member => free line (mem_cons_of_mem _ member), length_cons]

end Adjacent

end Ryll
