import Ryll.Foundation.Outcome

/-!
# Computations that reserve room

A parser reserves room for a list before it reads the elements, so a hostile count can exhaust the
memory of a program that returns an error a moment later.  `Reserving` records each reservation,
also those of a computation that fails.
-/

namespace Ryll

/-- A computation and its reservations. -/
structure Reserving (ε α : Type) where
  /-- The number of elements of each reservation, in order. -/
  reserved : List Nat
  outcome : Outcome ε α

namespace Reserving

variable {ε α β : Type}

def reserve (count : Nat) : Reserving ε Unit := ⟨[count], .ok ()⟩

instance : Monad (Reserving ε) where
  pure value := ⟨[], .ok value⟩
  bind first rest :=
    match first.outcome with
    | .ok value => ⟨first.reserved ++ (rest value).reserved, (rest value).outcome⟩
    | .error reason => ⟨first.reserved, .error reason⟩
    | .fault cause => ⟨first.reserved, .fault cause⟩

instance : MonadLift (Outcome ε) (Reserving ε) := ⟨fun outcome => ⟨[], outcome⟩⟩

/-- What is returned does not depend on what is reserved. -/
@[simp]
theorem outcome_bind (first : Reserving ε α) (rest : α → Reserving ε β) :
    (first >>= rest).outcome = first.outcome >>= fun value => (rest value).outcome := by
  obtain ⟨reserved, outcome⟩ := first
  cases outcome <;> rfl

@[simp]
theorem outcome_lift (outcome : Outcome ε α) : (liftM outcome : Reserving ε α).outcome = outcome :=
  rfl

@[simp]
theorem outcome_pure (value : α) : (pure value : Reserving ε α).outcome = .ok value := rfl

/-- At most `count` reservations, each for at most `room` elements. -/
def Within (count room : Nat) (run : Reserving ε α) : Prop :=
  run.reserved.length ≤ count ∧ ∀ size ∈ run.reserved, size ≤ room

theorem within_lift (room : Nat) (outcome : Outcome ε α) :
    Within 0 room (liftM outcome : Reserving ε α) := ⟨Nat.le_refl 0, nofun⟩

theorem within_pure (room : Nat) (value : α) : Within 0 room (pure value : Reserving ε α) :=
  ⟨Nat.le_refl 0, nofun⟩

theorem within_reserve {size room : Nat} (small : size ≤ room) :
    Within 1 room (reserve size : Reserving ε Unit) :=
  ⟨Nat.le_refl 1, fun _ listed => List.mem_singleton.mp listed ▸ small⟩

theorem Within.bind {first : Reserving ε α} {rest : α → Reserving ε β} {count count' room : Nat}
    (early : Within count room first) (late : ∀ value, Within count' room (rest value)) :
    Within (count + count') room (first >>= rest) := by
  obtain ⟨reserved, outcome⟩ := first
  cases outcome with
  | ok value =>
    refine ⟨?_, fun size listed => ?_⟩
    · exact List.length_append ▸ Nat.add_le_add early.1 (late value).1
    · rcases List.mem_append.mp listed with before | after
      · exact early.2 size before
      · exact (late value).2 size after
  | error reason | fault cause => exact ⟨Nat.le_add_right_of_le early.1, early.2⟩

end Reserving

end Ryll
