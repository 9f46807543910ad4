import Ryll.Foundation.Outcome

/-!
# Painting a field region by region

A field assigns a value to every point.  Painting a region changes the value of each of its points
once, in a way that may depend on the point, and leaves the others alone.  Painting disjoint
regions one after the other paints their union.
-/

namespace Ryll

variable {π α : Type}

/-- The values in a region were changed, each of them once, and no others. -/
def Painted (region : π → Prop) (change : π → α → α) (before after : π → α) : Prop :=
  ∀ point, (region point → after point = change point (before point)) ∧
    (¬region point → after point = before point)

namespace Painted

variable {change : π → α → α} {before between after : π → α}

theorem refl (nowhere : π → Prop) (empty : ∀ point, ¬nowhere point) :
    Painted nowhere change before before :=
  fun point => ⟨fun inside => absurd inside (empty point), fun _ => rfl⟩

variable {region : π → Prop}

theorem congr {region' : π → Prop} (painted : Painted region change before after)
    (same : ∀ point, region' point ↔ region point) : Painted region' change before after := by
  intro point
  rw [same point]
  exact painted point

theorem congr_change {change' : π → α → α} (painted : Painted region change before after)
    (same : ∀ point, region point → change' point (before point) = change point (before point)) :
    Painted region change' before after := by
  intro point
  refine ⟨fun inside => ?_, (painted point).2⟩
  rw [same point inside]
  exact (painted point).1 inside

theorem union {first second : π → Prop} (early : Painted first change before between)
    (late : Painted second change between after) (apart : ∀ point, first point → ¬second point) :
    Painted (fun point => first point ∨ second point) change before after := by
  intro point
  constructor
  · rintro (inside | inside)
    · rw [(late point).2 (apart point inside), (early point).1 inside]
    · have outside : ¬first point := fun inside' => apart point inside' inside
      rw [(late point).1 inside, (early point).2 outside]
  · intro outside
    rw [not_or] at outside
    rw [(late point).2 outside.2, (early point).2 outside.1]

end Painted

/-! ## Loops that paint -/

section Loops

variable {ε σ ι : Type} (view : σ → π → α) {change : π → α → α}

/-- A fold whose items paint disjoint regions paints their union. -/
theorem foldlM_painted {body : σ → ι → Outcome ε σ} (invariant : σ → Prop)
    (region : ι → π → Prop) {items : List ι}
    (apart : items.Pairwise fun first second => ∀ point, region first point → ¬region second point)
    (round : ∀ state, ∀ item ∈ items, invariant state → (body state item).Ensures fun state' =>
      invariant state' ∧ Painted (region item) change (view state) (view state'))
    {state : σ} (initial : invariant state) :
    (items.foldlM body state).Ensures fun state' => invariant state' ∧
      Painted (fun point => ∃ item ∈ items, region item point) change (view state)
        (view state') := by
  induction items generalizing state with
  | nil => exact ⟨initial, .refl _ (by simp)⟩
  | cons item items ih =>
    obtain ⟨first, rest⟩ := List.pairwise_cons.mp apart
    refine (round state item List.mem_cons_self initial).bind fun state' ⟨kept, early⟩ => ?_
    have later := ih rest
      (fun state other listed => round state other (List.mem_cons_of_mem item listed)) kept
    refine later.mono fun state'' ⟨kept', late⟩ => ⟨kept', ?_⟩
    have both := early.union late ?_
    · exact both.congr fun point => by simp
    · rintro point inside ⟨other, listed, inside'⟩
      exact first other listed point inside inside'

theorem forIndex_painted {body : Nat → σ → Outcome ε σ} (region : Nat → π → Prop)
    (apart : ∀ first second, first < second → ∀ point, region first point → ¬region second point)
    {start count : Nat} (round : ∀ index state, start ≤ index → index < start + count →
      (body index state).Ensures fun state' =>
        Painted (region index) change (view state) (view state')) (state : σ) :
    (forIndex body start count state).Ensures fun state' =>
      Painted (fun point => ∃ index, start ≤ index ∧ index < start + count ∧ region index point)
        change (view state) (view state') := by
  induction count generalizing start state with
  | zero =>
    refine .refl _ fun point => ?_
    rintro ⟨index, lower, upper, -⟩
    omega
  | succ count ih =>
    refine (round start state (Nat.le_refl start) (by omega)).bind fun state' early => ?_
    have later := @ih (start + 1)
      (fun index state lower upper => round index state (by omega) (by omega)) state'
    refine later.mono fun state'' late => ?_
    have both := early.union late ?_
    · refine both.congr fun point => ?_
      constructor
      · rintro ⟨index, lower, upper, inside⟩
        rcases Nat.eq_or_lt_of_le lower with rfl | later
        · exact .inl inside
        · exact .inr ⟨index, later, by omega, inside⟩
      · rintro (inside | ⟨index, lower, upper, inside⟩)
        · exact ⟨start, Nat.le_refl start, by omega, inside⟩
        · exact ⟨index, by omega, by omega, inside⟩
    · rintro point inside ⟨index, lower, upper, inside'⟩
      exact apart start index lower point inside inside'

end Loops

end Ryll
