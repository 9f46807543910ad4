import Ryll.Compression.GlzDictionary
import Ryll.Foundation.Runs

/-!
# Waiting for an image of another channel

A decoder whose reference is not in the dictionary waits for an insertion by another channel.  A
notification reaches only a decoder that is already waiting, so a reference can be lost to the order
of steps; `stored_reference_resolves` says which orders are safe.
-/

namespace Ryll

open Option ByteBoundedLru

/-- Where the waiting decoder stands. -/
inductive DecoderPhase
  /-- About to look the image up. -/
  | lookup
  /-- Not found; about to ask whether the cap evicted it. -/
  | evictedCheck
  /-- About to compare the clock with the deadline and to start waiting. -/
  | deadlineCheck
  /-- Waiting for a notification, which may already have come. -/
  | waiting (woken : Bool)
  /-- Woken; about to look the image up again. -/
  | recheck
  /-- Finished with the pixels found, or without any. -/
  | resolved (pixels : Option Slice)

/-- Where a channel's insertion stands. -/
inductive InsertPhase
  /-- Not inserting. -/
  | idle
  | stored (imageId : Nat) (evictedKeys : List Nat)
  | tombstoned (imageId : Nat)

/-- The image whose insertion has yet to be announced. -/
def InsertPhase.unannounced : InsertPhase → Option Nat
  | .idle => none
  | .stored imageId _ | .tombstoned imageId => some imageId

/-- The decoder, the dictionary and the channels. -/
structure WaitState where
  dictionary : GlzDictionary
  decoder : DecoderPhase
  /-- Whether the deadline of the decoder has passed. -/
  expired : Bool
  channels : Nat → InsertPhase

/-- An atomic step. -/
inductive WaitStep
  | decoder
  | expire
  | store (channel imageId : Nat) (pixels : Slice)
  /-- A channel updates the tombstones for the image it stored. -/
  | tombstone (channel : Nat)
  | notify (channel : Nat)
  | remove (imageId : Nat)
  | evictOlderThan (oldestValid : Nat)
  | clear

namespace WaitState

variable (state : WaitState) (sourceId : Nat)

def look (missing : DecoderPhase) : WaitState :=
  let (found, images) := state.dictionary.images.get sourceId
  { state with
    dictionary := { state.dictionary with images }
    decoder := found.elim missing fun pixels => .resolved (some pixels) }

def decoderStep (state : WaitState) : Option WaitState :=
  match state.decoder with
  | .lookup => some (state.look sourceId .evictedCheck)
  | .evictedCheck =>
    if state.dictionary.wasEvicted sourceId then some { state with decoder := .resolved none }
    else some { state with decoder := .deadlineCheck }
  | .deadlineCheck =>
    if state.expired then some { state with decoder := .resolved none }
    else some { state with decoder := .waiting false }
  | .waiting true => some { state with decoder := .recheck }
  | .waiting false => if state.expired then some { state with decoder := .resolved none } else none
  | .recheck => some (state.look sourceId .deadlineCheck)
  | .resolved _ => none

/-- The deadline exists from the moment the decoder takes the slow path. -/
def hasDeadline : Bool :=
  match state.decoder with
  | .deadlineCheck => true
  | .waiting _ => true
  | .recheck => true
  | _ => false

def wake : DecoderPhase → DecoderPhase
  | .waiting _ => .waiting true
  | phase => phase

variable (state : WaitState)

def step : WaitStep → Option WaitState
  | .decoder => state.decoderStep sourceId
  | .expire =>
    if state.hasDeadline ∧ state.expired = false then some { state with expired := true } else none
  | .store channel imageId pixels =>
    match state.channels channel,
      (state.dictionary.images.insertRecordingEvicted imageId pixels : Outcome Unit _) with
    | .idle, .ok (images, _, evictedKeys) =>
      some { state with
        dictionary := { state.dictionary with images }
        channels := Function.update state.channels channel (.stored imageId evictedKeys) }
    | _, _ => none
  | .tombstone channel =>
    match state.channels channel with
    | .stored imageId evictedKeys =>
      some { state with
        dictionary := { state.dictionary with
          evictedIds := GlzDictionary.tombstone state.dictionary.evictedIds evictedKeys imageId }
        channels := Function.update state.channels channel (.tombstoned imageId) }
    | _ => none
  | .notify channel =>
    match state.channels channel with
    | .tombstoned _ =>
      some { state with
        decoder := wake state.decoder
        channels := Function.update state.channels channel .idle }
    | _ => none
  | .remove imageId => some { state with dictionary := (state.dictionary.remove imageId).2 }
  | .evictOlderThan oldestValid =>
    some { state with dictionary := (state.dictionary.evictOlderThan oldestValid).2 }
  | .clear => some { state with dictionary := state.dictionary.clear }

/-- The pixels stored under the id that the decoder refers to. -/
def held : Option Slice :=
  peek sourceId state.dictionary.images.inner

/-- The image is stored. -/
def Present : Prop := (state.held sourceId).isSome

/-- Some channel has stored the image and not yet notified the waiters. -/
def Unannounced : Prop :=
  ∃ channel, (state.channels channel).unannounced = some sourceId

/-- The decoder has looked for the image in vain and cannot be woken yet. -/
def BetweenLookAndWait : Prop :=
  state.decoder = .evictedCheck ∨ state.decoder = .deadlineCheck

/-- The decoder has looked for the image in vain and does not know of a later insertion. -/
def Unaware : Prop :=
  state.BetweenLookAndWait ∨ state.decoder = .waiting false

variable (state : WaitState)

/-- The image is not announced between a look in vain and the next wait, no tombstone of a stored
image is met, and the deadline does not pass between storing and announcing it. -/
def Timely : WaitStep → Prop
  | .notify channel =>
    (state.channels channel).unannounced = some sourceId → ¬ state.BetweenLookAndWait
  | .decoder => state.decoder = .evictedCheck → state.dictionary.wasEvicted sourceId →
      ¬ state.Present sourceId
  | .expire => ¬ state.Unannounced sourceId
  | _ => True

/-! ## The steps -/

theorem held_look (missing : DecoderPhase) :
    (state.look sourceId missing).held sourceId = state.held sourceId :=
  peek_get _ _ _

theorem look_decoder (missing : DecoderPhase) : (state.look sourceId missing).decoder =
      (state.held sourceId).elim missing fun pixels => .resolved (some pixels) := by
  rw [look, held, ← GlzDictionary.get_eq_peek]

theorem wake_cases (phase : DecoderPhase) :
    (∃ woken, phase = .waiting woken) ∨ wake phase = phase := by
  cases phase <;> simp [wake]

variable {sourceId : Nat} {state' : WaitState} {allowed : Slice → Prop}

theorem unannounced_update {channels : Nat → InsertPhase} {channel : Nat} {phase : InsertPhase}
    (kept : (channels channel).unannounced = some sourceId → phase.unannounced = some sourceId)
    (pending : ∃ other, (channels other).unannounced = some sourceId) :
    ∃ other, (Function.update channels channel phase other).unannounced = some sourceId := by
  obtain ⟨other, announced⟩ := pending
  refine ⟨other, ?_⟩
  by_cases here : other = channel
  · subst here
    rw [Function.update_self, kept announced]
  · rw [Function.update_of_ne here, announced]

/-- While the decoder is unaware of an image that is there, some channel has yet to announce it. -/
def Announced (sourceId : Nat) (state : WaitState) : Prop :=
  state.Unaware → state.Present sourceId → state.Unannounced sourceId

variable {state : WaitState}

theorem announced_decoderStep (announced : state.Announced sourceId)
    (stepped : state.decoderStep sourceId = some state') : state'.Announced sourceId := by
  have look : ∀ missing, (state.look sourceId missing).Announced sourceId := by
    intro missing unaware present
    rw [Present, held_look] at present
    obtain ⟨pixels, found⟩ := isSome_iff_exists.mp present
    have finished := look_decoder sourceId state missing
    rw [found] at finished
    simp [Unaware, BetweenLookAndWait, finished] at unaware
  rw [decoderStep] at stepped
  split at stepped
  · cases stepped
    exact look _
  · rename_i phase
    split at stepped
    · cases stepped
      intro unaware
      simp [Unaware, BetweenLookAndWait] at unaware
    · cases stepped
      exact fun _ => announced (.inl (.inl phase))
  · rename_i phase
    split at stepped
    · cases stepped
      intro unaware
      simp [Unaware, BetweenLookAndWait] at unaware
    · cases stepped
      exact fun _ => announced (.inl (.inr phase))
  · cases stepped
    intro unaware
    simp [Unaware, BetweenLookAndWait] at unaware
  · obtain ⟨-, ⟨⟩⟩ := ite_none_right_eq_some.mp stepped
    intro unaware
    simp [Unaware, BetweenLookAndWait] at unaware
  · cases stepped
    exact look _
  · simp at stepped

theorem announced_of_fewer (announced : state.Announced sourceId)
    (decoder : state'.decoder = state.decoder) (channels : state'.channels = state.channels)
    (fewer : state'.Present sourceId → state.Present sourceId) : state'.Announced sourceId := by
  intro unaware present
  rw [Unannounced, channels]
  rw [Unaware, BetweenLookAndWait, decoder] at unaware
  exact announced unaware (fewer present)

theorem announced_store {channel imageId : Nat} {pixels : Slice}
    (announced : state.Announced sourceId)
    (stepped : state.step sourceId (.store channel imageId pixels) = some state') :
    state'.Announced sourceId := by
  rw [step] at stepped
  split at stepped
  · rename_i images outcome evictedKeys idle inserted
    cases stepped
    intro unaware present
    obtain ⟨held, found⟩ := isSome_iff_exists.mp present
    rcases peek_of_insert inserted found with rfl | before
    · exact ⟨channel, by simp [InsertPhase.unannounced]⟩
    · refine unannounced_update (by rw [idle]; exact nofun) (announced unaware ?_)
      exact isSome_iff_exists.mpr ⟨held, before⟩
  · simp at stepped

theorem announced_step {label : WaitStep} (announced : state.Announced sourceId)
    (timely : state.Timely sourceId label) (stepped : state.step sourceId label = some state') :
    state'.Announced sourceId := by
  cases label with
  | decoder => exact announced_decoderStep announced stepped
  | expire =>
    obtain ⟨-, ⟨⟩⟩ := ite_none_right_eq_some.mp stepped
    exact announced
  | store channel imageId pixels => exact announced_store announced stepped
  | tombstone channel =>
    rw [step] at stepped
    split at stepped
    · rename_i imageId evictedKeys phase
      cases stepped
      intro unaware present
      exact unannounced_update (by rw [phase]; exact id) (announced unaware present)
    · simp at stepped
  | notify channel =>
    rw [step] at stepped
    split at stepped
    · cases stepped
      intro unaware present
      have between : state.BetweenLookAndWait := by
        rw [Unaware, BetweenLookAndWait] at unaware
        rw [BetweenLookAndWait]
        cases phase : state.decoder with
        | waiting woken | lookup | recheck | resolved pixels => simp [phase, wake] at unaware
        | evictedCheck => exact .inl rfl
        | deadlineCheck => exact .inr rfl
      exact unannounced_update (fun own => (timely own between).elim)
        (announced (.inl between) present)
    · simp at stepped
  | remove imageId =>
    cases stepped
    refine announced_of_fewer announced rfl rfl fun present => ?_
    obtain ⟨pixels, found⟩ := isSome_iff_exists.mp present
    have found' : peek sourceId (state.dictionary.images.remove imageId).2.inner = some pixels :=
      found
    rw [peek_remove] at found'
    obtain ⟨-, found'⟩ := ite_none_left_eq_some.mp found'
    exact isSome_iff_exists.mpr ⟨pixels, found'⟩
  | evictOlderThan oldestValid =>
    cases stepped
    refine announced_of_fewer announced rfl rfl fun present => ?_
    obtain ⟨pixels, found⟩ := isSome_iff_exists.mp present
    have found' : peek sourceId (state.dictionary.images.retainKeys
        fun id => decide (id ≥ oldestValid)).2.inner = some pixels := found
    rw [peek_retainKeys] at found'
    obtain ⟨-, found'⟩ := ite_none_right_eq_some.mp found'
    exact isSome_iff_exists.mpr ⟨pixels, found'⟩
  | clear =>
    cases stepped
    refine announced_of_fewer announced rfl rfl fun present => ?_
    simp [Present, held, GlzDictionary.clear, clear] at present

/-! ## Runs -/

/-- If the decoder is finished it has found one of the given pixels, and after the deadline it is
not unaware of the image. -/
def Hopeful (sourceId : Nat) (allowed : Slice → Prop) (state : WaitState) : Prop :=
  state.Announced sourceId ∧ (state.expired = true → ¬ state.Unaware) ∧
    ∀ result, state.decoder = .resolved result → ∃ pixels, allowed pixels ∧ result = some pixels

/-- Allowed pixels are stored. -/
def Holds (sourceId : Nat) (allowed : Slice → Prop) (state : WaitState) : Prop :=
  ∃ pixels, allowed pixels ∧ state.held sourceId = some pixels

variable {state : WaitState}

theorem Holds.present (holds : state.Holds sourceId allowed) :
    state.Present sourceId := by
  obtain ⟨pixels, -, found⟩ := holds
  exact isSome_iff_exists.mpr ⟨pixels, found⟩

theorem hopeful_look (holds : state.Holds sourceId allowed)
    {missing : DecoderPhase} (announced : (state.look sourceId missing).Announced sourceId) :
    (state.look sourceId missing).Hopeful sourceId allowed := by
  obtain ⟨pixels, allowed_pixels, found⟩ := holds
  have finished := look_decoder sourceId state missing
  rw [found, elim_some] at finished
  refine ⟨announced, fun _ => ?_, fun result resolved => ?_⟩
  · simp [Unaware, BetweenLookAndWait, finished]
  · rw [finished] at resolved
    simp only [DecoderPhase.resolved.injEq] at resolved
    exact ⟨pixels, allowed_pixels, resolved.symm⟩

theorem hopeful_of_same (hopeful : state.Hopeful sourceId allowed)
    (announced : state'.Announced sourceId) (decoder : state'.decoder = state.decoder)
    (expired : state'.expired = state.expired) : state'.Hopeful sourceId allowed := by
  refine ⟨announced, fun late unaware => ?_, fun result resolved => ?_⟩
  · rw [Unaware, BetweenLookAndWait, decoder] at unaware
    exact hopeful.2.1 (expired ▸ late) unaware
  · exact hopeful.2.2 result (decoder ▸ resolved)

theorem hopeful_step {label : WaitStep}
    (hopeful : state.Hopeful sourceId allowed) (holds : state.Holds sourceId allowed)
    (timely : state.Timely sourceId label) (stepped : state.step sourceId label = some state') :
    state'.Hopeful sourceId allowed := by
  have announced := announced_step hopeful.1 timely stepped
  cases label with
  | decoder =>
    change state.decoderStep sourceId = some state' at stepped
    rw [decoderStep] at stepped
    split at stepped
    · cases stepped
      exact hopeful_look holds announced
    · rename_i phase
      split at stepped
      · rename_i evicted
        exact (timely phase evicted holds.present).elim
      · cases stepped
        refine ⟨announced, fun late => ?_, fun result resolved => by simp at resolved⟩
        exact (hopeful.2.1 late (.inl (.inl phase))).elim
    · rename_i phase
      split at stepped
      · rename_i late
        exact (hopeful.2.1 late (.inl (.inr phase))).elim
      · rename_i early
        cases stepped
        exact ⟨announced, fun late => (early late).elim, fun result resolved => by simp at resolved⟩
    · cases stepped
      refine ⟨announced, fun _ => ?_, fun result resolved => by simp at resolved⟩
      simp [Unaware, BetweenLookAndWait]
    · rename_i phase
      obtain ⟨late, stepped⟩ := ite_none_right_eq_some.mp stepped
      exact (hopeful.2.1 late (.inr phase)).elim
    · cases stepped
      exact hopeful_look holds announced
    · simp at stepped
  | expire =>
    obtain ⟨-, ⟨⟩⟩ := ite_none_right_eq_some.mp stepped
    exact ⟨announced, fun _ unaware => timely (hopeful.1 unaware holds.present), hopeful.2.2⟩
  | store channel imageId pixels | tombstone channel =>
    rw [step] at stepped
    split at stepped
    · cases stepped
      exact hopeful_of_same hopeful announced rfl rfl
    · simp at stepped
  | notify channel =>
    rw [step] at stepped
    split at stepped
    · cases stepped
      obtain ⟨woken, phase⟩ | same := wake_cases state.decoder
      · refine ⟨announced, fun _ => ?_, fun result resolved => ?_⟩
        · simp [Unaware, BetweenLookAndWait, phase, wake]
        · simp [phase, wake] at resolved
      · exact hopeful_of_same hopeful announced same rfl
    · simp at stepped
  | remove imageId | evictOlderThan oldestValid | clear =>
    cases stepped
    exact hopeful_of_same hopeful announced rfl rfl

theorem look_resolves (holds : state.Holds sourceId allowed)
    (missing : DecoderPhase) :
    ∃ pixels, allowed pixels ∧ (state.look sourceId missing).decoder = .resolved (some pixels) := by
  obtain ⟨pixels, allowed_pixels, found⟩ := holds
  exact ⟨pixels, allowed_pixels, by rw [look_decoder, found, elim_some]⟩

theorem resolves_of_announced (hopeful : state.Hopeful sourceId allowed)
    (holds : state.Holds sourceId allowed) (announced : ¬ state.Unannounced sourceId) :
    ∃ steps ≤ 2, ∃ last pixels, allowed pixels ∧ last.decoder = .resolved (some pixels) ∧
      run (step sourceId) state (List.replicate steps .decoder) = some last := by
  have aware : ¬ state.Unaware := fun unaware => announced (hopeful.1 unaware holds.present)
  cases phase : state.decoder with
  | evictedCheck => exact (aware (.inl (.inl phase))).elim
  | deadlineCheck => exact (aware (.inl (.inr phase))).elim
  | lookup =>
    obtain ⟨pixels, allowed_pixels, resolved⟩ := look_resolves holds .evictedCheck
    exact ⟨1, by decide, _, pixels, allowed_pixels, resolved, by
      simp [run, step, decoderStep, phase]⟩
  | recheck =>
    obtain ⟨pixels, allowed_pixels, resolved⟩ := look_resolves holds .deadlineCheck
    exact ⟨1, by decide, _, pixels, allowed_pixels, resolved, by
      simp [run, step, decoderStep, phase]⟩
  | waiting woken =>
    cases woken with
    | false => exact (aware (.inr phase)).elim
    | true =>
      have awake : ({ state with decoder := .recheck } : WaitState).Holds sourceId allowed :=
        holds
      obtain ⟨pixels, allowed_pixels, resolved⟩ := look_resolves awake .deadlineCheck
      exact ⟨2, le_rfl, _, pixels, allowed_pixels, resolved, by
        simp [List.replicate, run, step, decoderStep, phase]⟩
  | resolved result =>
    obtain ⟨pixels, allowed_pixels, rfl⟩ := hopeful.2.2 result phase
    exact ⟨0, by decide, state, pixels, allowed_pixels, phase, rfl⟩

/-- In a timely run, a reference to an image that is stored before the deadline, and stays, is not
skipped, and resolves to what is stored once the insertion is announced. -/
theorem stored_reference_resolves {sourceId : Nat} {allowed : Slice → Prop}
    {start middle final : WaitState} {before after : List WaitStep}
    (fresh : start.decoder = .lookup) (reached : run (step sourceId) start before = some middle)
    (unresolved : ∀ early, middle.decoder ≠ .resolved early) (inTime : middle.expired = false)
    (stays : Along (step sourceId) (Holds sourceId allowed) middle after)
    (finished : run (step sourceId) middle after = some final)
    (timely : Meets (step sourceId) (Timely sourceId) start (before ++ after)) :
    (∀ result, final.decoder = .resolved result → ∃ pixels, allowed pixels ∧ result = some pixels) ∧
    (¬ final.Unannounced sourceId → ∃ steps ≤ 2, ∃ last pixels, allowed pixels ∧
      last.decoder = .resolved (some pixels) ∧
      run (step sourceId) final (List.replicate steps .decoder) = some last) := by
  have announced : middle.Announced sourceId := by
    refine run_invariant (fun _ _ _ => announced_step) ?_ timely.left reached
    intro unaware
    simp [Unaware, BetweenLookAndWait, fresh] at unaware
  have hopeful : middle.Hopeful sourceId allowed :=
    ⟨announced, fun late => by simp [inTime] at late,
      fun early resolved => (unresolved early resolved).elim⟩
  have kept := run_invariant (fun _ _ _ kept both => hopeful_step kept both.1 both.2) hopeful
    ((stays.meets (fun _ _ _ now _ _ => now) finished).and (timely.right reached)) finished
  exact ⟨kept.2.2, resolves_of_announced kept (stays.last finished)⟩

def initial : WaitState := ⟨freshDictionary, .lookup, false, fun _ => .idle⟩

def greyPixel : Slice := ⟨[9, 9, 9, 255], by decide⟩

theorem holds_greyPixel {state : WaitState} (found : state.held 1 = some greyPixel) :
    state.Holds 1 (· = greyPixel) := ⟨_, rfl, found⟩

def storedRun : List WaitStep := [.decoder, .decoder, .decoder, .store 0 1 greyPixel]

def announcedRun : List WaitStep := [.tombstone 0, .notify 0, .decoder, .decoder]

/-- A decoder that is waiting when the image is announced finds it. -/
theorem awaited_reference_resolves : ∃ middle final, run (step 1) initial storedRun = some middle ∧
      middle.decoder = .waiting false ∧ middle.expired = false ∧
      Along (step 1) (Holds 1 (· = greyPixel)) middle announcedRun ∧
      run (step 1) middle announcedRun = some final ∧
      (∀ result, final.decoder = .resolved result →
        ∃ pixels, pixels = greyPixel ∧ result = some pixels) ∧
      (¬ final.Unannounced 1 → ∃ steps ≤ 2, ∃ last pixels, pixels = greyPixel ∧
        last.decoder = .resolved (some pixels) ∧
        run (step 1) final (List.replicate steps .decoder) = some last) := by
  have stays : ∀ middle, run (step 1) initial storedRun = some middle →
      Along (step 1) (Holds 1 (· = greyPixel)) middle announcedRun := by
    rintro _ ⟨⟩
    exact .cons (holds_greyPixel rfl) rfl (.cons (holds_greyPixel rfl) rfl
      (.cons (holds_greyPixel rfl) rfl (.cons (holds_greyPixel rfl) rfl (holds_greyPixel rfl))))
  have timely : Meets (step 1) (Timely 1) initial (storedRun ++ announcedRun) :=
    .cons nofun rfl (.cons nofun rfl (.cons nofun rfl (.cons trivial rfl (.cons trivial rfl
      (.cons (fun _ => nofun) rfl (.cons nofun rfl (.cons nofun rfl trivial)))))))
  exact ⟨_, _, rfl, rfl, rfl, stays _ rfl, rfl,
    stored_reference_resolves rfl rfl (fun _ => by exact nofun) rfl (stays _ rfl) rfl timely⟩

/-- An image announced between the look in vain and the wait is skipped, though it is there. -/
theorem unheard_reference_skipped :
    ∃ middle final, run (step 1) initial [.decoder, .decoder, .store 0 1 greyPixel] = some middle ∧
      middle.decoder = .deadlineCheck ∧ middle.expired = false ∧
      Along (step 1) (Holds 1 (· = greyPixel)) middle
        [.tombstone 0, .notify 0, .decoder, .expire, .decoder] ∧
      run (step 1) middle [.tombstone 0, .notify 0, .decoder, .expire, .decoder] = some final ∧
      final.decoder = .resolved none := by
  exact ⟨_, _, rfl, rfl, rfl, .cons (holds_greyPixel rfl) rfl (.cons (holds_greyPixel rfl) rfl
    (.cons (holds_greyPixel rfl) rfl (.cons (holds_greyPixel rfl) rfl
      (.cons (holds_greyPixel rfl) rfl (holds_greyPixel rfl))))), rfl, rfl⟩

end WaitState

end Ryll
