import Ryll.Foundation.Runs

/-!
# A signal raised once

A sticky signal pairs a flag with a notifier that wakes only the waiters enabled at the moment of
the call.  Any number of raises and waits run interleaved, one atomic step at a time, and a wait
may be dropped wherever it stands.
-/

namespace Ryll

/-- Where a raise stands. -/
inductive RaisePhase
  | idle
  /-- Called, the flag not yet swapped. -/
  | called
  /-- The swap found the flag unset, and `notify_waiters` is next. -/
  | notifying
  | returned (raised : Bool)

/-- Where a call of `wait` stands; an enabled waiter knows whether a notification reached it. -/
inductive WaitPhase
  | idle
  /-- The waiter exists but is not enabled. -/
  | created
  | enabled (notified : Bool)
  /-- The flag was loaded unset, and the await is next. -/
  | checked (notified : Bool)
  | blocked (notified : Bool)
  | returned
  | dropped

/-- A step of a wait. -/
inductive WaiterStep
  | create
  | enable
  | load
  | block
  | wake
  | drop

namespace WaitPhase

def advance (flag : Bool) : WaiterStep → WaitPhase → Option WaitPhase
  | .create, idle => some created
  | .enable, created => some (enabled false)
  | .load, enabled notified => some (if flag then returned else checked notified)
  | .block, checked notified => some (blocked notified)
  | .wake, blocked true => some returned
  | .drop, created | .drop, enabled _ | .drop, checked _ | .drop, blocked _ => some dropped
  | _, _ => none

def notify : WaitPhase → WaitPhase
  | enabled _ => enabled true
  | checked _ => checked true
  | blocked _ => blocked true
  | phase => phase

/-- The wait has returned, or is going to whatever the flag says. -/
def answered : WaitPhase → Bool
  | enabled notified | checked notified | blocked notified => notified
  | returned => true
  | _ => false

/-- The wait is past its look at the flag and no notification reached it. -/
def unanswered : WaitPhase → Bool
  | checked notified | blocked notified => !notified
  | _ => false

theorem answered_advance {step : WaiterStep} {phase phase' : WaitPhase}
    (advanced : advance false step phase = some phase') (before : phase.answered = false) :
    phase'.answered = false := by
  unfold advance at advanced
  split at advanced <;> cases advanced <;> first | exact before | rfl

theorem unanswered_advance {step : WaiterStep} {phase phase' : WaitPhase}
    (advanced : advance true step phase = some phase') (before : phase.unanswered = false) :
    phase'.unanswered = false := by
  unfold advance at advanced
  split at advanced <;> cases advanced <;> first | exact before | rfl

theorem unanswered_notify (phase : WaitPhase) : phase.notify.unanswered = false := by
  cases phase <;> rfl

end WaitPhase

/-- The signal with its raises and waits. -/
structure StickySignal where
  flag : Bool := false
  raises : Nat → RaisePhase := fun _ => .idle
  waits : Nat → WaitPhase := fun _ => .idle

namespace StickySignal

/-- A step of a raise or a wait. -/
inductive Label
  | call (raise : Nat)
  | swap (raise : Nat)
  | notifyWaiters (raise : Nat)
  | wait (wait : Nat) (step : WaiterStep)

def step (signal : StickySignal) : Label → Option StickySignal
  | .call raise =>
    match signal.raises raise with
    | .idle => some { signal with raises := Function.update signal.raises raise .called }
    | _ => none
  | .swap raise =>
    match signal.raises raise with
    | .called =>
      let phase := if signal.flag then .returned false else .notifying
      some { signal with flag := true, raises := Function.update signal.raises raise phase }
    | _ => none
  | .notifyWaiters raise =>
    match signal.raises raise with
    | .notifying =>
      some { signal with
        waits := fun wait => (signal.waits wait).notify
        raises := Function.update signal.raises raise (.returned true) }
    | _ => none
  | .wait wait step =>
    ((signal.waits wait).advance signal.flag step).map fun phase =>
      { signal with waits := Function.update signal.waits wait phase }

/-- At most one raise wins the swap, and after it has notified no wait is left unanswered. -/
structure Sound (signal : StickySignal) : Prop where
  unraised : signal.flag = false →
    (∀ raise, signal.raises raise = .idle ∨ signal.raises raise = .called) ∧
      ∀ wait, (signal.waits wait).answered = false
  raised : signal.flag = true → ∃ winner,
    (signal.raises winner = .notifying ∨ signal.raises winner = .returned true ∧
      ∀ wait, (signal.waits wait).unanswered = false) ∧
    ∀ raise ≠ winner, signal.raises raise ≠ .notifying ∧ signal.raises raise ≠ .returned true

theorem sound_start : ({} : StickySignal).Sound where
  unraised _ := ⟨fun _ => .inl rfl, fun _ => rfl⟩
  raised := nofun

variable {signal signal' : StickySignal}

theorem Sound.other {raise : Nat} (sound : signal.Sound) (phase : RaisePhase)
    (before : signal.raises raise = .idle ∨ signal.raises raise = .called)
    (waiting : signal.flag = false → phase = .called)
    (lost : phase ≠ .notifying ∧ phase ≠ .returned true) :
    Sound { signal with raises := Function.update signal.raises raise phase } where
  unraised unset := by
    obtain ⟨raises, waits⟩ := sound.unraised unset
    refine ⟨fun other => ?_, waits⟩
    by_cases same : other = raise
    · exact .inr (by simp [same, waiting unset])
    · simpa [same] using raises other
  raised set := by
    obtain ⟨winner, won, alone⟩ := sound.raised set
    have apart : winner ≠ raise := by
      rintro rfl
      rcases before with idle | called <;> simp_all
    refine ⟨winner, by simpa [apart] using won, fun other differs => ?_⟩
    by_cases same : other = raise
    · simpa [same] using lost
    · simpa [same] using alone other differs

theorem Sound.step {label : Label} (sound : signal.Sound)
    (stepped : signal.step label = some signal') : signal'.Sound := by
  cases label with
  | call raise =>
    rw [StickySignal.step] at stepped
    split at stepped <;> cases stepped
    exact sound.other .called (.inl (by assumption)) (fun _ => rfl) ⟨nofun, nofun⟩
  | swap raise =>
    rw [StickySignal.step] at stepped
    split at stepped <;> cases stepped
    rename_i called
    cases set : signal.flag with
    | true =>
      have kept := sound.other (.returned false) (.inr called) (by simp [set]) ⟨nofun, nofun⟩
      simpa [set] using kept
    | false =>
      obtain ⟨raises, -⟩ := sound.unraised set
      refine ⟨nofun, fun _ => ⟨raise, .inl (by simp), fun other differs => ?_⟩⟩
      rcases raises other with idle | waiting <;> simp [*]
  | notifyWaiters raise =>
    rw [StickySignal.step] at stepped
    split at stepped <;> cases stepped
    rename_i notifying
    cases set : signal.flag with
    | false => rcases (sound.unraised set).1 raise with idle | called <;> simp_all
    | true =>
      obtain ⟨winner, won, alone⟩ := sound.raised set
      have same : raise = winner := by
        by_contra differs
        exact (alone raise differs).1 notifying
      refine ⟨by simp, fun _ => ⟨raise, .inr ⟨by simp, ?_⟩, fun other differs => ?_⟩⟩
      · exact fun wait => WaitPhase.unanswered_notify _
      · simpa [differs] using alone other (same ▸ differs)
  | wait wait step =>
    obtain ⟨phase, advanced, rfl⟩ := Option.map_eq_some_iff.mp stepped
    refine ⟨fun unset => ?_, fun set => ?_⟩
    · obtain ⟨raises, waits⟩ := sound.unraised unset
      rw [show signal.flag = false from unset] at advanced
      refine ⟨raises, fun other => ?_⟩
      by_cases same : other = wait
      · simpa [same] using WaitPhase.answered_advance advanced (waits wait)
      · simpa [same] using waits other
    · obtain ⟨winner, won, alone⟩ := sound.raised set
      rw [show signal.flag = true from set] at advanced
      refine ⟨winner, won.imp_right fun ⟨finished, waits⟩ => ⟨finished, fun other => ?_⟩, alone⟩
      by_cases same : other = wait
      · simpa [same] using WaitPhase.unanswered_advance advanced (waits wait)
      · simpa [same] using waits other

/-- Some raise was called, and every raise that was has returned. -/
def Settled (signal : StickySignal) : Prop :=
  (∃ raise, signal.raises raise ≠ .idle) ∧
    ∀ raise, signal.raises raise ≠ .idle → ∃ raised, signal.raises raise = .returned raised

/-- Once every raise has returned no wait is blocked without a wake-up, a wait has returned only if
some raise has swapped the flag, and exactly one raise returns true. -/
theorem level_triggered (labels : List Label) (reached : run step {} labels = some signal) :
    (signal.Settled → ∀ wait, signal.waits wait ≠ .blocked false) ∧
    (∀ wait, signal.waits wait = .returned → signal.flag = true ∧
      ∃ raise, signal.raises raise ≠ .idle ∧ signal.raises raise ≠ .called) ∧
    (∀ first second, signal.raises first = .returned true →
      signal.raises second = .returned true → first = second) ∧
    (signal.Settled → ∃ raise, signal.raises raise = .returned true) := by
  have sound : signal.Sound :=
    run_keeps (fun _ _ _ kept stepped => kept.step stepped) sound_start reached
  have finished : signal.Settled → ∃ winner, signal.raises winner = .returned true ∧
      ∀ wait, (signal.waits wait).unanswered = false := by
    rintro ⟨⟨raise, started⟩, returned⟩
    cases set : signal.flag with
    | false =>
      obtain ⟨raised, done⟩ := returned raise started
      rcases (sound.unraised set).1 raise with idle | called <;> simp_all
    | true =>
      obtain ⟨winner, notifying | won, -⟩ := sound.raised set
      · obtain ⟨raised, done⟩ := returned winner (by simp [notifying])
        simp_all
      · exact ⟨winner, won⟩
  refine ⟨fun settled wait blocked => ?_, fun wait done => ?_, fun first second one two => ?_,
    fun settled => (finished settled).imp fun _ => And.left⟩
  · obtain ⟨-, -, answered⟩ := finished settled
    have := answered wait
    rw [blocked] at this
    exact Bool.noConfusion this
  · cases set : signal.flag with
    | false =>
      have := (sound.unraised set).2 wait
      rw [done] at this
      exact Bool.noConfusion this
    | true =>
      obtain ⟨winner, notifying | ⟨won, -⟩, -⟩ := sound.raised set
      · exact ⟨rfl, winner, by simp [notifying]⟩
      · exact ⟨rfl, winner, by simp [won]⟩
  · cases set : signal.flag with
    | false => rcases (sound.unraised set).1 first with idle | called <;> simp_all
    | true =>
      obtain ⟨winner, -, alone⟩ := sound.raised set
      have unique : ∀ raise, signal.raises raise = .returned true → raise = winner := by
        intro raise won
        by_contra differs
        exact (alone raise differs).2 won
      rw [unique first one, unique second two]

def overtaken : List Label :=
  [.wait 0 .create, .wait 0 .enable, .wait 0 .load, .call 0, .swap 0, .notifyWaiters 0,
    .wait 0 .block, .wait 0 .wake]

theorem overtaken_returns : ∃ signal, run step {} overtaken = some signal ∧
    signal.waits 0 = .returned ∧ signal.flag = true :=
  ⟨_, rfl, rfl, ((level_triggered overtaken rfl).2.1 0 rfl).1⟩

end StickySignal

end Ryll
