import Mathlib

/-!
# Row order of a raster

A raster is stored row by row.  `mirrorRows` lists its rows from the last to the first.
-/

namespace Ryll

variable {α β : Type}

/-- The first `height` rows of a raster, last row first. -/
def mirrorRows (width : Nat) (cells : List α) : Nat → List α
  | 0 => []
  | height + 1 => (cells.drop (height * width)).take width ++ mirrorRows width cells height

theorem length_mirrorRows {width height : Nat} {cells : List α}
    (enough : height * width ≤ cells.length) :
    (mirrorRows width cells height).length = height * width := by
  induction height with
  | zero => simp [mirrorRows]
  | succ height ih =>
    rw [Nat.succ_mul] at enough
    rw [mirrorRows, List.length_append, List.length_take, List.length_drop, ih (by omega),
      Nat.succ_mul]
    omega

theorem take_eq_of_mirrorRows_eq {width height : Nat} {cells cells' : List α}
    (enough : height * width ≤ cells.length) (enough' : height * width ≤ cells'.length)
    (same : mirrorRows width cells height = mirrorRows width cells' height) :
    cells.take (height * width) = cells'.take (height * width) := by
  induction height with
  | zero => simp
  | succ height ih =>
    rw [Nat.succ_mul] at enough enough' ⊢
    have rows := List.append_inj same (by
      simp only [List.length_take, List.length_drop]
      omega)
    rw [List.take_add, List.take_add, ih (by omega) (by omega) rows.2, rows.1]

end Ryll
