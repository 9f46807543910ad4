import Ryll.Foundation.Outcome

/-!
# Machines that consume their input piece by piece

A machine takes what its state wants from the front of the input, and is run until the input is used
up.  When a step that is offered less takes the same, or takes all there is and finishes as before
on the remainder, the machine does not notice where its input was cut.
-/

namespace Ryll

open List

variable {ε σ α β : Type} (step : σ → List α → Outcome ε (σ × List α × List β))

/-- One round of draining the input: a step, unless nothing is left. -/
def drainRound : σ × List α × List β → Outcome ε (Flow (σ × List α × List β) (σ × List β))
  | (state, [], found) => .ok (.leave (state, found))
  | (state, item :: rest, found) => do
    let (state, rest, more) ← step state (item :: rest)
    return .next (state, rest, found ++ more)

/-- Take steps until the input is used up. -/
def drain (state : σ) (input : List α) : Outcome ε (σ × List β) :=
  loop (drainRound step) (input.length + 1) (state, input, [])

/-- Steps through good states that use the input up. -/
inductive Drains (good : σ → Prop) : σ → List α → σ → List β → Prop
  | done (state : σ) : Drains good state [] state []
  | step {state next final : σ} {input rest : List α} {found more : List β}
      (nonempty : input ≠ []) (stepped : step state input = .ok (next, rest, found))
      (reached : good next) (shorter : rest.length < input.length)
      (later : Drains good next rest final more) :
      Drains good state input final (found ++ more)

/-- A step stops inside the first part of its input, or takes it whole and goes on in the second. -/
def Splits (good : σ → Prop) (state : σ) (first second : List α) (next : σ) (rest : List α)
    (found : List β) : Prop :=
  (∃ rest', rest = rest' ++ second ∧ step state first = .ok (next, rest', found)) ∨
    ∃ middle, good middle ∧ step state first = .ok (middle, [], []) ∧
      step middle second = .ok (next, rest, found) ∧ rest.length < second.length

/-- Where the input of a step is cut makes no difference. -/
def Seamless (good : σ → Prop) : Prop :=
  ∀ state first second next rest found, good state → second ≠ [] →
    step state (first ++ second) = .ok (next, rest, found) → good next →
      Splits step good state first second next rest found

variable {step} {good : σ → Prop} {final : σ} {found : List β} {state : σ} {input : List α}

theorem loop_drainRound (drains : Drains step good state input final found) {rounds : Nat}
    (enough : input.length < rounds) (earlier : List β) :
    loop (drainRound step) rounds (state, input, earlier) = .ok (final, earlier ++ found) := by
  induction drains generalizing rounds earlier with
  | done state =>
    obtain ⟨rounds, rfl⟩ := Nat.exists_eq_succ_of_ne_zero (Nat.ne_zero_of_lt enough)
    simp [loop, drainRound]
  | @step state next final input rest found more nonempty stepped _ shorter _ ih =>
    obtain ⟨rounds, rfl⟩ := Nat.exists_eq_succ_of_ne_zero (Nat.ne_zero_of_lt enough)
    obtain ⟨item, tail, rfl⟩ := exists_cons_of_ne_nil nonempty
    rw [loop, drainRound, stepped]
    simp only [ok_bind, pure_eq]
    rw [ih (by omega), append_assoc]

/-- A derivation of steps is what the machine computes. -/
theorem Drains.drain_eq (drains : Drains step good state input final found) :
    drain step state input = .ok (final, found) :=
  loop_drainRound drains (Nat.lt_succ_self _) []

/-- A machine without seams drains its input in two parts as it drains the whole. -/
theorem Drains.split (seamless : Seamless step good) {first second : List α}
    (drains : Drains step good state input final found) (start : good state)
    (cut : input = first ++ second) :
    ∃ middle found₁ found₂, good middle ∧ Drains step good state first middle found₁ ∧
      Drains step good middle second final found₂ ∧ found = found₁ ++ found₂ := by
  induction drains generalizing first second with
  | done state =>
    obtain ⟨rfl, rfl⟩ := append_eq_nil_iff.mp cut.symm
    exact ⟨state, [], [], start, .done state, .done state, rfl⟩
  | @step state next final input rest found more nonempty stepped reached shorter later ih =>
    subst cut
    by_cases first_empty : first = []
    · subst first_empty
      exact ⟨state, [], found ++ more, start, .done state,
        .step nonempty stepped reached shorter later, rfl⟩
    by_cases second_empty : second = []
    · subst second_empty
      rw [append_nil] at nonempty stepped shorter
      obtain ⟨middle, found₁, found₂, kept, early, late, rfl⟩ :=
        ih reached (append_nil rest).symm
      refine ⟨middle, found ++ found₁, found₂, kept, ?_, late, by rw [append_assoc]⟩
      exact .step nonempty stepped reached shorter early
    rcases seamless state first second next rest found start second_empty stepped reached with
      ⟨rest', rfl, early⟩ | ⟨middle, kept, early, late, shorter'⟩
    · have shorter' : rest'.length < first.length := by
        simpa only [length_append, Nat.add_lt_add_iff_right] using shorter
      obtain ⟨middle, found₁, found₂, kept, first_drains, second_drains, rfl⟩ := ih reached rfl
      exact ⟨middle, found ++ found₁, found₂, kept,
        .step first_empty early reached shorter' first_drains, second_drains,
        by rw [append_assoc]⟩
    · exact ⟨middle, [], found ++ more, kept,
        .step first_empty early kept (length_pos_iff.mpr first_empty) (.done middle),
        .step second_empty late reached shorter' later, rfl⟩

end Ryll
