import Mathlib

/-!
# Computations that may fault

A Rust function can return a value, return an error, or stop the program: an index leaves its
buffer, an integer operation leaves its type (overflow checks are on), a shift reaches the width of
its word.  A loop that exhausts its rounds is a fault as well, so a computation that never faults
also terminates.
-/

namespace Ryll

open List

/-- Ways in which an operation stops the program instead of returning. -/
inductive Fault
  /-- An index or a slice bound lies outside its buffer. -/
  | bounds
  /-- An integer operation left the range of its type. -/
  | overflow
  /-- A shift amount reached the width of the shifted word. -/
  | shift
  /-- A loop ran past the number of rounds allotted to it. -/
  | diverged
  | assertion
  deriving DecidableEq

/-- The result of running a function: a value, a returned error, or a fault. -/
inductive Outcome (ε α : Type)
  | ok (value : α)
  | error (reason : ε)
  | fault (cause : Fault)
  deriving DecidableEq

namespace Outcome

variable {ε α β γ : Type}

def bind (first : Outcome ε α) (rest : α → Outcome ε β) : Outcome ε β :=
  match first with
  | ok value => rest value
  | error reason => error reason
  | fault cause => fault cause

instance : Monad (Outcome ε) where
  pure := ok
  bind := bind

@[simp]
theorem pure_eq (value : α) : (pure value : Outcome ε α) = ok value := rfl

@[simp]
theorem ok_bind (value : α) (rest : α → Outcome ε β) : (ok value >>= rest) = rest value := rfl

@[simp]
theorem error_bind (reason : ε) (rest : α → Outcome ε β) :
    (error reason >>= rest) = error reason := rfl

@[simp]
theorem fault_bind (cause : Fault) (rest : α → Outcome ε β) :
    (fault cause >>= rest) = fault cause := rfl

theorem bind_assoc (first : Outcome ε α) (second : α → Outcome ε β) (third : β → Outcome ε γ) :
    (first >>= second) >>= third = first >>= fun value => second value >>= third := by
  cases first <;> rfl

variable {first : Outcome ε α} {value : α}
  {rest : α → Outcome ε β} {post : α → Prop} {run : Outcome ε α}

theorem bind_eq_ok {value : β} :
    first >>= rest = ok value ↔ ∃ middle, first = ok middle ∧ rest middle = ok value := by
  cases first <;> simp

instance : LawfulMonad (Outcome ε) :=
  LawfulMonad.mk' (Outcome ε)
    (fun outcome => by cases outcome <;> rfl)
    (fun _ _ => rfl)
    bind_assoc

/-- The computation does not fault, and a returned value satisfies `post`. -/
def Ensures (run : Outcome ε α) (post : α → Prop) : Prop :=
  match run with
  | ok value => post value
  | error _ => True
  | fault _ => False

instance (run : Outcome ε α) (post : α → Prop) [DecidablePred post] :
    Decidable (run.Ensures post) :=
  match run with
  | ok value => inferInstanceAs (Decidable (post value))
  | error _ => .isTrue trivial
  | fault _ => .isFalse id

@[simp]
theorem ensures_ok : (ok value : Outcome ε α).Ensures post ↔ post value := Iff.rfl

@[simp]
theorem ensures_error {reason : ε} : (error reason : Outcome ε α).Ensures post := trivial

@[simp]
theorem not_ensures_fault {cause : Fault} : ¬ (fault cause : Outcome ε α).Ensures post := id

theorem Ensures.mono {weaker : α → Prop}
    (ensured : run.Ensures post) (weaken : ∀ value, post value → weaker value) :
    run.Ensures weaker := by
  cases run with
  | ok value => exact weaken value ensured
  | error => trivial
  | fault => exact ensured

theorem Ensures.bind {middle : α → Prop} {post : β → Prop} (ensured : first.Ensures middle)
    (continued : ∀ value, middle value → (rest value).Ensures post) :
    (first >>= rest).Ensures post := by
  cases first with
  | ok value => exact continued value ensured
  | error => trivial
  | fault => exact ensured

theorem Ensures.returns {run : Outcome Empty α}
    (ensured : run.Ensures post) : ∃ value, run = .ok value ∧ post value := by
  cases run with
  | ok value => exact ⟨value, rfl, ensured⟩
  | error reason => exact reason.elim
  | fault cause => exact ensured.elim

def ofExcept : Except ε α → Outcome ε α
  | .ok value => ok value
  | .error reason => error reason

theorem ofExcept_ensures (result : Except ε α) :
    (ofExcept result).Ensures fun value => result = .ok value := by
  cases result with
  | ok value => exact rfl
  | error reason => trivial

def toOption : Outcome ε α → Option α
  | ok value => some value
  | error _ => none
  | fault _ => none

theorem toOption_eq_some : run.toOption = some value ↔ run = ok value := by
  cases run <;> simp [toOption]

theorem Ensures.of_eq_ok (ensured : run.Ensures post) (returned : run = ok value) : post value := by
  rw [returned] at ensured
  exact ensured

/-- Two computations stop in the same way, and the values they return are related. -/
def Refines (related : α → β → Prop) : Outcome ε α → Outcome ε β → Prop
  | ok concrete, ok abstract => related concrete abstract
  | error reason, error reason' => reason = reason'
  | fault cause, fault cause' => cause = cause'
  | _, _ => False

/-- Refining computations fault alike, and a returned value meets what holds of every value. -/
theorem Refines.ensures_iff {related : α → β → Prop} {concrete : Outcome ε α}
    {abstract : Outcome ε β} (refines : concrete.Refines related abstract)
    (always : ∀ value, post value) : concrete.Ensures post ↔ abstract.Ensures fun _ => True := by
  cases concrete with
  | ok value =>
    cases abstract with
    | ok value' => simp [always value]
    | error | fault => exact refines.elim
  | error | fault => cases abstract <;> simp_all [Refines]

theorem Refines.bind {ε α β γ δ : Type} {related : α → β → Prop} {related' : γ → δ → Prop}
    {concrete : Outcome ε α} {abstract : Outcome ε β} {next : α → Outcome ε γ}
    {next' : β → Outcome ε δ} (refines : concrete.Refines related abstract)
    (continued : ∀ value value', related value value' →
      (next value).Refines related' (next' value')) :
    (concrete >>= next).Refines related' (abstract >>= next') := by
  cases concrete <;> cases abstract <;> first
    | exact continued _ _ refines
    | exact refines
    | exact refines.elim

section

variable {related : α → β → Prop} {concrete : Outcome ε α} {abstract : Outcome ε β}
  (refines : concrete.Refines related abstract)
include refines

variable {related' : γ → β → Prop}

theorem Refines.bind_ok {next : α → Outcome ε γ} (continued : ∀ value value', related value value' →
      ∃ result, next value = ok result ∧ related' result value') :
    (concrete >>= next).Refines related' abstract := by
  cases concrete with
  | ok value =>
    cases abstract with
    | ok value' =>
      obtain ⟨result, returned, kept⟩ := continued value value' refines
      rw [ok_bind, returned]
      exact kept
    | error | fault => exact refines.elim
  | error | fault => cases abstract <;> exact refines

theorem Refines.map {view : α → γ}
    (weaken : ∀ value value', related value value' → related' (view value) value') :
    (concrete >>= fun value => ok (view value)).Refines related' abstract :=
  refines.bind_ok fun value value' kept => ⟨view value, rfl, weaken value value' kept⟩

end

end Outcome

export Outcome (ok_bind fault_bind pure_eq bind_eq_ok ensures_ok toOption_eq_some)

/-! ## Checked arithmetic -/

section Arithmetic

variable {ε : Type}

def addChecked (width left right : Nat) : Outcome ε Nat :=
  if left + right < 2 ^ width then .ok (left + right) else .fault .overflow

variable (left right : Nat)

def subChecked : Outcome ε Nat :=
  if right ≤ left then .ok (left - right) else .fault .overflow

def mulChecked (width left right : Nat) : Outcome ε Nat :=
  if left * right < 2 ^ width then .ok (left * right) else .fault .overflow

def addUsize : Outcome ε Nat := addChecked 64 left right

def mulUsize : Outcome ε Nat := mulChecked 64 left right

def wrappingSub (width left right : Nat) : Nat :=
  (left + (2 ^ width - right % 2 ^ width)) % 2 ^ width

variable {width left right : Nat}

theorem addChecked_ok (fits : left + right < 2 ^ width) :
    (addChecked width left right : Outcome ε Nat) = .ok (left + right) :=
  if_pos fits

theorem subChecked_ok (ordered : right ≤ left) :
    (subChecked left right : Outcome ε Nat) = .ok (left - right) :=
  if_pos ordered

theorem mulChecked_ok (fits : left * right < 2 ^ width) :
    (mulChecked width left right : Outcome ε Nat) = .ok (left * right) :=
  if_pos fits

theorem addUsize_ok (fits : left + right < 2 ^ 64) :
    (addUsize left right : Outcome ε Nat) = .ok (left + right) :=
  addChecked_ok fits

theorem addUsize_fault (overflows : 2 ^ 64 ≤ left + right) :
    (addUsize left right : Outcome ε Nat) = .fault .overflow :=
  if_neg (Nat.not_lt.mpr overflows)

theorem mulUsize_ok (fits : left * right < 2 ^ 64) :
    (mulUsize left right : Outcome ε Nat) = .ok (left * right) :=
  mulChecked_ok fits

theorem wrappingSub_of_le (ordered : right ≤ left)
    (fits : left < 2 ^ width) : wrappingSub width left right = left - right := by
  have right_fits : right < 2 ^ width := Nat.lt_of_le_of_lt ordered fits
  rw [wrappingSub, Nat.mod_eq_of_lt right_fits,
    show left + (2 ^ width - right) = (left - right) + 2 ^ width by omega,
    Nat.add_mod_right, Nat.mod_eq_of_lt (by omega)]

theorem wrappingSub_of_lt (ordered : left < right)
    (fits : right < 2 ^ width) : wrappingSub width left right = left + 2 ^ width - right := by
  rw [wrappingSub, Nat.mod_eq_of_lt fits, Nat.mod_eq_of_lt (by omega)]
  omega

end Arithmetic

/-! ## Bounded loops -/

section Loops

variable {ε σ ρ : Type}

/-- What one round of a loop asks for: another round, or to leave with a result. -/
inductive Flow (σ ρ : Type)
  | next (state : σ)
  | leave (result : ρ)

/-- What holds of the state of another round, or of the result. -/
def Flow.Satisfies (again : σ → Prop) (done : ρ → Prop) : Flow σ ρ → Prop
  | .next state => again state
  | .leave result => done result

def loop (body : σ → Outcome ε (Flow σ ρ)) : Nat → σ → Outcome ε ρ
  | 0, _ => .fault .diverged
  | rounds + 1, state => body state >>= fun
      | .next state => loop body rounds state
      | .leave result => .ok result

def forRange (body : σ → Outcome ε (Flow σ σ)) : Nat → σ → Outcome ε σ
  | 0, state => .ok state
  | count + 1, state => body state >>= fun
      | .next state => forRange body count state
      | .leave state => .ok state

/-- A loop over the indices `start, start + 1, ..., start + count - 1`. -/
def forIndex (body : Nat → σ → Outcome ε σ) : Nat → Nat → σ → Outcome ε σ
  | _, 0, state => .ok state
  | start, count + 1, state => body start state >>= forIndex body (start + 1) count

def forIndexWhile (body : Nat → σ → Outcome ε (Flow σ σ)) : Nat → Nat → σ → Outcome ε σ
  | _, 0, state => .ok state
  | start, count + 1, state => body start state >>= fun
      | .next state => forIndexWhile body (start + 1) count state
      | .leave state => .ok state

variable {body : σ → Outcome ε (Flow σ ρ)} {count : Nat} {state : σ} {start : Nat}

theorem loop_ensures (invariant : σ → Prop) {post : ρ → Prop} (measure : σ → Nat)
    (round : ∀ state, invariant state → (body state).Ensures (Flow.Satisfies
      (fun state' => invariant state' ∧ measure state' < measure state) post))
    {rounds : Nat} (initial : invariant state) (enough : measure state < rounds) :
    (loop body rounds state).Ensures post := by
  induction rounds generalizing state with
  | zero => omega
  | succ rounds ih =>
    refine (round state initial).bind ?_
    rintro (state' | result) kept
    · have lower : measure state' < measure state := kept.2
      exact ih kept.1 (by omega)
    · exact kept

theorem loop_returns (invariant : σ → Prop) (post : ρ → Prop)
    (round : ∀ state flow, invariant state → body state = .ok flow → match flow with
      | .next state' => invariant state'
      | .leave result => post result)
    {rounds : Nat} {result : ρ} (initial : invariant state)
    (returned : loop body rounds state = .ok result) : post result := by
  induction rounds generalizing state with
  | zero => simp [loop] at returned
  | succ rounds ih =>
    rw [loop] at returned
    cases step : body state with
    | ok flow =>
      rw [step, ok_bind] at returned
      have kept := round state flow initial step
      cases flow with
      | next state' => exact ih kept returned
      | leave result' =>
        simp only [Outcome.ok.injEq] at returned
        exact returned ▸ kept
    | error reason | fault cause => simp [step] at returned

/-- An indexed loop is faultless when each round carries its invariant to the next index. -/
theorem forIndex_ensures {body : Nat → σ → Outcome ε σ} (invariant : Nat → σ → Prop)
    (round : ∀ index state, start ≤ index → index < start + count → invariant index state →
      (body index state).Ensures (invariant (index + 1))) (initial : invariant start state) :
    (forIndex body start count state).Ensures (invariant (start + count)) := by
  induction count generalizing start state with
  | zero => exact initial
  | succ count ih =>
    refine (round start state (Nat.le_refl start) (by omega) initial).bind fun state' kept => ?_
    have later := ih (fun index state lower upper =>
      round index state (by omega) (by omega)) kept
    rwa [show start + 1 + count = start + (count + 1) by omega] at later

variable (invariant : σ → Prop) {body : Nat → σ → Outcome ε (Flow σ σ)}

/-- An indexed loop that may end early is faultless when each round keeps an invariant. -/
theorem forIndexWhile_ensures
    (round : ∀ index state, start ≤ index → index < start + count → invariant state →
      (body index state).Ensures (Flow.Satisfies invariant invariant)) (initial : invariant state) :
    (forIndexWhile body start count state).Ensures invariant := by
  induction count generalizing start state with
  | zero => exact initial
  | succ count ih =>
    refine (round start state (Nat.le_refl start) (by omega) initial).bind ?_
    rintro (state' | state') kept
    · exact ih (fun index state lower upper => round index state (by omega) (by omega)) kept
    · exact kept

/-- A loop whose body leaves at a known index is a loop up to there. -/
theorem forIndexWhile_eq (body' : Nat → σ → Outcome ε σ)
    {stop : Nat} (ordered : start ≤ stop)
    (runs : ∀ index state, index < start + count → index < stop →
      body index state = body' index state >>= fun state' => .ok (.next state'))
    (leaves : ∀ index state, index < start + count → stop ≤ index →
      body index state = .ok (.leave state)) (state : σ) : forIndexWhile body start count state =
      forIndex body' start (min count (stop - start)) state := by
  induction count generalizing start state with
  | zero => rw [Nat.zero_min]; rfl
  | succ count ih =>
    rw [forIndexWhile]
    by_cases ended : stop ≤ start
    · rw [leaves start state (by omega) ended, show min (count + 1) (stop - start) = 0 by omega]
      rfl
    have rounds : min (count + 1) (stop - start) = min count (stop - (start + 1)) + 1 := by
      omega
    rw [runs start state (by omega) (by omega), rounds, forIndex, bind_assoc]
    congr 1
    funext state'
    exact ih (by omega) (fun index state upper => runs index state (by omega))
      (fun index state upper => leaves index state (by omega)) state'

theorem foldlM_ensures {ι : Type} {body : σ → ι → Outcome ε σ} {items : List ι}
    (round : ∀ state, ∀ item ∈ items, invariant state → (body state item).Ensures invariant)
    (initial : invariant state) : (items.foldlM body state).Ensures invariant := by
  induction items generalizing state with
  | nil => exact initial
  | cons item items ih =>
    refine (round state item mem_cons_self initial).bind fun state' kept => ?_
    exact ih (fun state other listed => round state other (mem_cons_of_mem item listed)) kept

/-- A fold reaches every item when each round settles its own and keeps the others settled. -/
theorem foldlM_covers {ι : Type} {body : σ → ι → Outcome ε σ}
    (settled : ι → σ → Prop) {items : List ι}
    (round : ∀ state, ∀ item ∈ items, invariant state → (body state item).Ensures fun state' =>
      invariant state' ∧ settled item state' ∧ ∀ other, settled other state → settled other state')
    (initial : invariant state) : (items.foldlM body state).Ensures fun state' =>
      invariant state' ∧ (∀ item ∈ items, settled item state') ∧
        ∀ other, settled other state → settled other state' := by
  induction items generalizing state with
  | nil => exact ⟨initial, nofun, fun _ => id⟩
  | cons item items ih =>
    refine (round state item mem_cons_self initial).bind ?_
    rintro state' ⟨kept, own, others⟩
    refine (ih (fun state other listed => round state other (mem_cons_of_mem item listed))
      kept).mono ?_
    rintro state'' ⟨kept', rest, later⟩
    refine ⟨kept', fun other listed => ?_, fun other before => later other (others other before)⟩
    rcases mem_cons.mp listed with rfl | tail
    · exact later _ own
    · exact rest other tail

theorem mapM_relates {ι α : Type} {body : ι → Outcome ε α} {related : ι → α → Prop}
    {items : List ι} (each : ∀ item ∈ items, (body item).Ensures (related item)) :
    (items.mapM body).Ensures fun results =>
      (∀ result ∈ results, ∃ item ∈ items, related item result) ∧
        ∀ item ∈ items, ∃ result ∈ results, related item result := by
  induction items with
  | nil => exact ⟨nofun, nofun⟩
  | cons item items ih =>
    rw [mapM_cons]
    refine (each item mem_cons_self).bind fun result new => ?_
    refine (ih fun other listed => each other (mem_cons_of_mem item listed)).bind
      fun results ⟨made, mapped⟩ => ?_
    refine ⟨forall_mem_cons.mpr ⟨⟨item, mem_cons_self, new⟩, fun other listed => ?_⟩,
      forall_mem_cons.mpr ⟨⟨result, mem_cons_self, new⟩, fun other listed => ?_⟩⟩
    · obtain ⟨source, listed', relation⟩ := made other listed
      exact ⟨source, mem_cons_of_mem item listed', relation⟩
    · obtain ⟨target, listed', relation⟩ := mapped other listed
      exact ⟨target, mem_cons_of_mem result listed', relation⟩

end Loops

end Ryll
