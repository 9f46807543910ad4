import Ryll.Foundation.Outcome

/-!
# Runs of a transition system

A system takes labelled steps, each of which may be disabled in a state.  A run is a sequence of
labels.  Conditions on the steps of a run and properties of the states along it are stated once
here, with the invariant rule that connects them.
-/

namespace Ryll

variable {σ ι : Type} (step : σ → ι → Option σ)

/-- The state a sequence of steps leads to, if every step is enabled. -/
def run : σ → List ι → Option σ
  | state, [] => some state
  | state, label :: labels => (step state label).bind fun state' => run state' labels

/-- Steps that are always enabled. -/
abbrev total (next : σ → ι → σ) (state : σ) (label : ι) : Option σ := some (next state label)

/-- Steps that are enabled where a computation returns. -/
abbrev returning {ε : Type} (next : σ → ι → Outcome ε σ) (state : σ) (label : ι) : Option σ :=
  (next state label).toOption

/-- Every step of a run is taken in a state in which the condition allows it. -/
def Meets (condition : σ → ι → Prop) : σ → List ι → Prop
  | _, [] => True
  | state, label :: labels =>
    condition state label ∧ ∀ state', step state label = some state' → Meets condition state' labels

/-- A property of every state of a run, the first and the last included. -/
def Along (holds : σ → Prop) : σ → List ι → Prop
  | state, [] => holds state
  | state, label :: labels =>
    holds state ∧ ∀ state', step state label = some state' → Along holds state' labels

/-- A condition on the next state, if there is one, can be decided by taking the step. -/
def decidableNext {now : Prop} [Decidable now] {later : σ → Prop}
    (decided : ∀ state, Decidable (later state)) :
    ∀ next : Option σ, Decidable (now ∧ ∀ state', next = some state' → later state')
  | none => decidable_of_iff now ⟨fun holds => ⟨holds, nofun⟩, And.left⟩
  | some state =>
    have := decided state
    decidable_of_iff (now ∧ later state)
      ⟨fun both => ⟨both.1, fun _ same => Option.some.inj same ▸ both.2⟩,
        fun all => ⟨all.1, all.2 state rfl⟩⟩

/-- Conditions on a run can be evaluated. -/
def decidableMeets (condition : σ → ι → Prop) [∀ state label, Decidable (condition state label)] :
    ∀ state labels, Decidable (Meets step condition state labels)
  | _, [] => .isTrue trivial
  | state, label :: labels =>
    decidableNext (fun state' => decidableMeets condition state' labels) (step state label)

instance (condition : σ → ι → Prop) [∀ state label, Decidable (condition state label)] (state : σ)
    (labels : List ι) : Decidable (Meets step condition state labels) :=
  decidableMeets step condition state labels

/-- Properties of the states can be evaluated. -/
def decidableAlong (holds : σ → Prop) [DecidablePred holds] :
    ∀ state labels, Decidable (Along step holds state labels)
  | state, [] => inferInstanceAs (Decidable (holds state))
  | state, label :: labels =>
    decidableNext (fun state' => decidableAlong holds state' labels) (step state label)

instance (holds : σ → Prop) [DecidablePred holds] (state : σ) (labels : List ι) :
    Decidable (Along step holds state labels) :=
  decidableAlong step holds state labels

variable {step} {condition condition' : σ → ι → Prop} {holds : σ → Prop} {state state' final : σ}
  {label : ι} {labels : List ι}

theorem run_cons : run step state (label :: labels) = some final ↔
    ∃ state', step state label = some state' ∧ run step state' labels = some final :=
  Option.bind_eq_some_iff

variable {first second : List ι}

theorem run_append : run step state (first ++ second) = some final ↔
    ∃ middle, run step state first = some middle ∧ run step middle second = some final := by
  induction first generalizing state with
  | nil => simp [run]
  | cons label labels ih =>
    rw [List.cons_append, run_cons]
    constructor
    · rintro ⟨state', stepped, rest⟩
      obtain ⟨middle, reached, later⟩ := ih.mp rest
      exact ⟨middle, run_cons.mpr ⟨state', stepped, reached⟩, later⟩
    · rintro ⟨middle, reached, later⟩
      obtain ⟨state', stepped, rest⟩ := run_cons.mp reached
      exact ⟨state', stepped, ih.mpr ⟨middle, rest, later⟩⟩

theorem run_total (next : σ → ι → σ) (state : σ) (labels : List ι) :
    run (total next) state labels = some (labels.foldl next state) := by
  induction labels generalizing state with
  | nil => rfl
  | cons label labels ih => exact ih (next state label)

theorem run_returning {ε : Type} {next : σ → ι → Outcome ε σ} :
    run (returning next) state labels = some final ↔ labels.foldlM next state = .ok final := by
  induction labels generalizing state with
  | nil => simp [run]
  | cons label labels ih => simp only [run_cons, List.foldlM_cons, bind_eq_ok, toOption_eq_some, ih]

theorem Meets.cons (allowed : condition state label) (stepped : step state label = some state')
    (rest : Meets step condition state' labels) : Meets step condition state (label :: labels) := by
  refine ⟨allowed, fun other stepped' => ?_⟩
  obtain rfl := Option.some.inj (stepped.symm.trans stepped')
  exact rest

theorem Along.cons (now : holds state) (stepped : step state label = some state')
    (rest : Along step holds state' labels) : Along step holds state (label :: labels) := by
  refine ⟨now, fun other stepped' => ?_⟩
  obtain rfl := Option.some.inj (stepped.symm.trans stepped')
  exact rest

theorem Meets.always (always : ∀ state label, condition state label) :
    Meets step condition state labels := by
  induction labels generalizing state with
  | nil => trivial
  | cons label labels ih => exact ⟨always state label, fun state' _ => ih⟩

theorem Meets.and (meets : Meets step condition state labels)
    (meets' : Meets step condition' state labels) :
    Meets step (fun state label => condition state label ∧ condition' state label) state
      labels := by
  induction labels generalizing state with
  | nil => trivial
  | cons label labels ih =>
    refine ⟨⟨meets.1, meets'.1⟩, fun state' stepped => ?_⟩
    exact ih (meets.2 state' stepped) (meets'.2 state' stepped)

theorem Along.head (along : Along step holds state labels) : holds state := by
  cases labels with
  | nil => exact along
  | cons label labels => exact along.1

theorem Along.last (along : Along step holds state labels)
    (reached : run step state labels = some final) : holds final := by
  induction labels generalizing state with
  | nil =>
    cases reached
    exact along
  | cons label labels ih =>
    obtain ⟨state', stepped, rest⟩ := run_cons.mp reached
    exact ih (along.2 state' stepped) rest

theorem Along.meets (implied : ∀ state label state', holds state → step state label = some state' →
      holds state' → condition state label) (along : Along step holds state labels)
    (reached : run step state labels = some final) : Meets step condition state labels := by
  induction labels generalizing state with
  | nil => trivial
  | cons label labels ih =>
    obtain ⟨state', stepped, rest⟩ := run_cons.mp reached
    have later := along.2 state' stepped
    exact .cons (implied state label state' along.1 stepped later.head) stepped (ih later rest)

theorem Meets.left (meets : Meets step condition state (first ++ second)) :
    Meets step condition state first := by
  induction first generalizing state with
  | nil => trivial
  | cons label labels ih => exact ⟨meets.1, fun state' stepped => ih (meets.2 state' stepped)⟩

theorem Meets.right {middle : σ} (meets : Meets step condition state (first ++ second))
    (reached : run step state first = some middle) : Meets step condition middle second := by
  induction first generalizing state with
  | nil =>
    cases reached
    exact meets
  | cons label labels ih =>
    obtain ⟨state', stepped, rest⟩ := run_cons.mp reached
    exact ih (meets.2 state' stepped) rest

/-! ## Invariants -/

theorem Along.of_invariant (invariant : σ → Prop) (implied : ∀ state, invariant state → holds state)
    (kept : ∀ state label state', invariant state → condition state label →
      step state label = some state' → invariant state')
    (initial : invariant state) (meets : Meets step condition state labels) :
    Along step holds state labels := by
  induction labels generalizing state with
  | nil => exact implied state initial
  | cons label labels ih =>
    refine ⟨implied state initial, fun state' stepped => ?_⟩
    exact ih (kept state label state' initial meets.1 stepped) (meets.2 state' stepped)

theorem Meets.of_invariant (invariant : σ → Prop)
    (implied : ∀ state label, invariant state → condition state label → condition' state label)
    (kept : ∀ state label state', invariant state → condition state label →
      step state label = some state' → invariant state')
    (initial : invariant state) (meets : Meets step condition state labels) :
    Meets step condition' state labels := by
  induction labels generalizing state with
  | nil => trivial
  | cons label labels ih =>
    refine ⟨implied state label initial meets.1, fun state' stepped => ?_⟩
    exact ih (kept state label state' initial meets.1 stepped) (meets.2 state' stepped)

variable {invariant : σ → Prop}

/-- What every allowed step keeps holds at the end of every run of allowed steps. -/
theorem run_invariant (kept : ∀ state label state', invariant state → condition state label →
      step state label = some state' → invariant state')
    {state final : σ} {labels : List ι} (initial : invariant state)
    (meets : Meets step condition state labels)
    (reached : run step state labels = some final) : invariant final :=
  (Along.of_invariant invariant (fun _ => id) kept initial meets).last reached

theorem run_keeps (kept : ∀ state label state', invariant state → step state label = some state' →
      invariant state') {state final : σ} {labels : List ι} (initial : invariant state)
    (reached : run step state labels = some final) : invariant final :=
  run_invariant (fun state label state' holds _ => kept state label state' holds) initial
    (.always fun _ _ => trivial) reached

/-- The invariant rule for steps that are always enabled. -/
theorem foldl_invariant {next : σ → ι → σ}
    (kept : ∀ state label, invariant state → condition state label → invariant (next state label))
    (initial : invariant state) (meets : Meets (total next) condition state labels) :
    invariant (labels.foldl next state) := by
  refine run_invariant ?_ initial meets (run_total next state labels)
  rintro state label state' holds allowed ⟨⟩
  exact kept state label holds allowed

theorem meets_congr (invariant : σ → Prop)
    (agree : ∀ state label state', invariant state → step state label = some state' →
      (condition state label ↔ condition' state label))
    (kept : ∀ state label state', invariant state → condition' state label →
      step state label = some state' → invariant state')
    (initial : invariant state) (reached : run step state labels = some final) :
    Meets step condition state labels ↔ Meets step condition' state labels := by
  induction labels generalizing state with
  | nil => exact Iff.rfl
  | cons label labels ih =>
    obtain ⟨state', stepped, rest⟩ := run_cons.mp reached
    have same := agree state label state' initial stepped
    constructor
    · intro meets
      have allowed := same.mp meets.1
      have later := ih (kept state label state' initial allowed stepped) rest
      exact .cons allowed stepped (later.mp (meets.2 state' stepped))
    · intro meets
      have later := ih (kept state label state' initial meets.1 stepped) rest
      exact .cons (same.mpr meets.1) stepped (later.mpr (meets.2 state' stepped))

/-- When allowed steps are enabled and keep an invariant, runs of allowed steps are defined. -/
theorem run_defined (invariant : σ → Prop)
    (kept : ∀ state label, invariant state → condition state label →
      ∃ state', step state label = some state' ∧ invariant state')
    (initial : invariant state) (meets : Meets step condition state labels) :
    ∃ final, run step state labels = some final ∧ invariant final := by
  induction labels generalizing state with
  | nil => exact ⟨state, rfl, initial⟩
  | cons label labels ih =>
    obtain ⟨state', stepped, later⟩ := kept state label initial meets.1
    obtain ⟨final, reached, last⟩ := ih later (meets.2 state' stepped)
    exact ⟨final, run_cons.mpr ⟨state', stepped, reached⟩, last⟩

end Ryll
