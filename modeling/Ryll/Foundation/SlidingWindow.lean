import Mathlib

/-!
# Copies within a sliding window

A back-reference appends elements found a fixed distance behind the end of what has been produced
so far.  The source and the destination may overlap, in which case the copy repeats elements that
it has itself just produced.
-/

namespace Ryll

variable {α : Type}

/-- Append `count` elements, each copied from `distance` places before the end. -/
def copyBack (window : List α) (distance : Nat) : Nat → List α
  | 0 => window
  | count + 1 =>
    match window[window.length - distance]? with
    | some element => copyBack (window ++ [element]) distance count
    | none => window

@[simp]
theorem copyBack_zero (window : List α) (distance : Nat) :
    copyBack window distance 0 = window := rfl

variable {distance : Nat} {window : List α}

theorem copyBack_succ {element : α}
    (present : window[window.length - distance]? = some element) (count : Nat) :
    copyBack window distance (count + 1) = copyBack (window ++ [element]) distance count := by
  simp [copyBack, present]

theorem exists_source (positive : 0 < distance) (inside : distance ≤ window.length) :
    ∃ element, window[window.length - distance]? = some element :=
  ⟨window[window.length - distance], List.getElem?_eq_getElem (by omega)⟩

theorem length_copyBack (positive : 0 < distance)
    (inside : distance ≤ window.length) (count : Nat) :
    (copyBack window distance count).length = window.length + count := by
  induction count generalizing window with
  | zero => rfl
  | succ count ih =>
    obtain ⟨element, present⟩ := exists_source positive inside
    rw [copyBack_succ present, ih (by simp; omega)]
    simp
    omega

theorem prefix_copyBack (window : List α) (distance count : Nat) :
    window <+: copyBack window distance count := by
  induction count generalizing window with
  | zero => exact List.prefix_rfl
  | succ count ih =>
    rw [copyBack]
    split
    · exact (List.prefix_append window _).trans (ih _)
    · exact List.prefix_rfl

end Ryll
