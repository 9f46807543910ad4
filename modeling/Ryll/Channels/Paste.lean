import Ryll.Channels.Inputs
import Ryll.Foundation.Runs

/-!
# What a paste does to the keyboard of the guest

Two properties of runs in which user events, cancellations and paste steps interleave: which keys a
paste leaves pressed, and whether the guest and the user agree on the modifiers afterwards.
-/

namespace Ryll

open List InputsChannel Modifier InputsMessage

/-- The key of a message or of an event, and whether it goes down or up. -/
inductive KeyStroke
  | down (code : UInt32)
  | up (code : UInt32)

def InputsMessage.stroke : InputsMessage → Option KeyStroke
  | .keyDown scancode => some (.down scancode)
  | .keyUp scancode => some (.up scancode)
  | _ => none

def InputEvent.stroke : InputEvent → Option KeyStroke
  | .keyDown scancode => some (.down scancode)
  | .keyUp scancode => some (.up scancode)
  | _ => none

namespace Modifier

variable (modifier : Modifier)

def after (held : Bool) : KeyStroke → Bool
  | .down code => code = modifier.press || held
  | .up code => !(code = modifier.release) && held

def heldAfter (strokes : List KeyStroke) : Bool :=
  strokes.foldl modifier.after false

theorem heldAfter_append (first second : List KeyStroke) :
    modifier.heldAfter (first ++ second) = second.foldl modifier.after (modifier.heldAfter first) :=
  foldl_append

variable {modifier : Modifier}

theorem after_mono {less more : Bool} {stroke : KeyStroke} (le : less → more)
    (held : modifier.after less stroke) : modifier.after more stroke := by
  cases stroke <;> cases less <;> cases more <;> simp_all [after]

theorem after_or {first second other : Bool} {stroke : KeyStroke} (le : first → second ∨ other)
    (held : modifier.after first stroke) : modifier.after second stroke ∨ other := by
  cases stroke <;> cases first <;> cases second <;> simp_all [after]

end Modifier

namespace InputsChannel

variable (channel : InputsChannel)

def guestHolds (modifier : Modifier) : Bool :=
  modifier.heldAfter (channel.sent.filterMap fun sent => sent.message.stroke)

theorem guestHolds_send (origin : Origin) (message : InputsMessage) (modifier : Modifier) :
    (channel.send origin message).guestHolds modifier =
      message.stroke.elim (channel.guestHolds modifier)
        (modifier.after (channel.guestHolds modifier)) := by
  rw [guestHolds, send, filterMap_append, heldAfter_append]
  cases stroke : message.stroke with
  | none | some value => simp [stroke, guestHolds]

theorem guestHolds_sendIf (needed : Bool) (origin : Origin) (message : InputsMessage)
    (modifier : Modifier) :
    (channel.sendIf needed origin message).guestHolds modifier =
      if needed then (channel.send origin message).guestHolds modifier
      else channel.guestHolds modifier := by
  unfold sendIf
  split <;> rfl

end InputsChannel

def InputsWorld.userHolds (world : InputsWorld) (modifier : Modifier) : Bool :=
  modifier.heldAfter (world.received.filterMap InputEvent.stroke)

/-! ## What handling an event does -/

namespace InputsChannel

/-- An event other than the start of a paste is passed on. -/
structure Passed (before : InputsChannel) (event : InputEvent) (after : InputsChannel) : Prop where
  paste : after.pasteState = before.pasteState
  sent : ∃ extra, after.sent = before.sent ++ extra ∧ (∀ sent ∈ extra, sent.origin = .frontend) ∧
    (extra.filterMap fun sent => sent.message.stroke) = event.stroke.toList
  held : ∀ modifier, after.held modifier =
    event.stroke.elim (before.held modifier) (modifier.after (before.held modifier))

/-- An event that begins a paste. -/
structure Started (before : InputsChannel) (event : InputEvent) (after : InputsChannel)
    (state : PasteState) : Prop where
  idle : before.pasteState = none
  paste : after.pasteState = some state
  pressing : state.subStep = .press
  saved : state.saved = before.held
  sent : after.sent = (Modifier.all.foldl releaseModifier before).sent
  held : after.held = (Modifier.all.foldl releaseModifier before).held
  stroke : event.stroke = none

theorem Passed.silent {before after : InputsChannel} {event : InputEvent}
    (stroke : event.stroke = none) (paste : after.pasteState = before.pasteState)
    (sent : after.sent = before.sent) (held : after.held = before.held) :
    Passed before event after where
  paste := paste
  sent := ⟨[], by simpa using sent, nofun, by simp [stroke]⟩
  held := by simp [stroke, held]

variable (channel : InputsChannel)

theorem sendMotion_passed {event : InputEvent} {message : InputsMessage}
    (strokeless : event.stroke = none) (mute : message.stroke = none) :
    Passed channel event (channel.sendMotion message) := by
  unfold sendMotion
  split
  · exact ⟨rfl, ⟨[⟨.frontend, message⟩], rfl, by simp, by simp [strokeless, mute]⟩,
      by simp [strokeless, send]⟩
  · exact .silent strokeless rfl rfl rfl

theorem handleInputEvent_ok (now : Nat) (event : InputEvent) :
    ∃ after, channel.handleInputEvent now event = .ok after ∧
      (Passed channel event after ∨ ∃ state, Started channel event after state) := by
  cases event with
  | pasteText text charDelayMs requestId cancel =>
    rw [handleInputEvent, pasteText]
    split
    · exact ⟨_, rfl, .inl (.silent rfl rfl rfl rfl)⟩
    rename_i free
    have idle : channel.pasteState = none := by simp_all
    split
    · refine ⟨_, rfl, ?_⟩
      unfold startPaste
      split
      · exact .inr ⟨_, idle, rfl, rfl, rfl, rfl, rfl, rfl⟩
      · exact .inl (.silent rfl rfl rfl rfl)
    · exact ⟨_, rfl, .inl (.silent rfl rfl rfl rfl)⟩
    · rename_i cause translated
      have ensured := translatePaste_ensures (text.take pasteMaxChars)
      rw [translated] at ensured
      exact ensured.elim
  | keyDown scancode =>
    exact ⟨_, rfl, .inl ⟨rfl, ⟨[⟨.frontend, .keyDown scancode⟩], rfl, by simp, rfl⟩, fun _ => rfl⟩⟩
  | keyUp scancode =>
    exact ⟨_, rfl, .inl ⟨rfl, ⟨[⟨.frontend, .keyUp scancode⟩], rfl, by simp, rfl⟩, fun _ => rfl⟩⟩
  | keyModifiers modifiers =>
    exact ⟨_, rfl, .inl ⟨rfl, ⟨[⟨.frontend, .keyModifiers modifiers⟩], rfl, by simp, rfl⟩,
      fun _ => rfl⟩⟩
  | mouseMove x y | mouseMotion dx dy => exact ⟨_, rfl, .inl (sendMotion_passed channel rfl rfl)⟩
  | mouseDown button x y | mouseUp button x y =>
    exact ⟨_, rfl, .inl ⟨rfl, ⟨[_, _], by simp [send]; exact ⟨rfl, rfl⟩, by simp, rfl⟩,
      fun _ => rfl⟩⟩

end InputsChannel

/-! ## Keys left pressed -/

/-- Every key a paste pressed, save the pending ones, was released afterwards. -/
def ReleasedExcept (pending : List UInt32) (sent : List Sent) : Prop :=
  ∀ before code after, sent = before ++ ⟨.paste, .keyDown code⟩ :: after →
    code ∈ pending ∨ ∃ later ∈ after, later.message = .keyUp (breakCode code)

/-- Every key a paste pressed was released afterwards. -/
def AllReleased (sent : List Sent) : Prop :=
  ∀ before code after, sent = before ++ ⟨.paste, .keyDown code⟩ :: after →
    ∃ later ∈ after, later.message = .keyUp (breakCode code)

variable {sent : List Sent} {pending : List UInt32}

theorem ReleasedExcept.all (released : ReleasedExcept [] sent) :
    AllReleased sent := fun before code after split =>
  (released before code after split).resolve_left not_mem_nil

theorem split_append_singleton {α : Type} {items before after : List α} {last item : α}
    (split : items ++ [last] = before ++ item :: after) :
    (∃ front, after = front ++ [last] ∧ items = before ++ item :: front) ∨
      item = last ∧ after = [] := by
  rcases eq_nil_or_concat' after with rfl | ⟨front, end_, rfl⟩
  · exact .inr ⟨(append_inj' split rfl).2 |> head_eq_of_cons_eq |>.symm, rfl⟩
  · have split' : items ++ [last] = (before ++ item :: front) ++ [end_] := by
      simpa using split
    obtain ⟨same, tail⟩ := append_inj' split' rfl
    obtain rfl := head_eq_of_cons_eq tail
    exact .inl ⟨front, rfl, same⟩

theorem ReleasedExcept.send {new : Sent} (released : ReleasedExcept pending sent)
    (other : new.origin = .paste → ∀ code, new.message = .keyDown code → code ∈ pending) :
    ReleasedExcept pending (sent ++ [new]) := by
  intro before code after split
  rcases split_append_singleton split with ⟨front, rfl, old⟩ | ⟨rfl, rfl⟩
  · refine (released before code front old).imp_right fun ⟨later, listed, up⟩ => ?_
    exact ⟨later, mem_append_left _ listed, up⟩
  · exact .inl (other rfl code rfl)

theorem ReleasedExcept.mono {more : List UInt32} (released : ReleasedExcept pending sent)
    (subset : pending ⊆ more) : ReleasedExcept more sent := fun before code after split =>
  (released before code after split).imp_left fun listed => subset listed

theorem ReleasedExcept.release {code : UInt32} {origin : Origin}
    (released : ReleasedExcept (code :: pending) sent) :
    ReleasedExcept pending (sent ++ [⟨origin, .keyUp (breakCode code)⟩]) := by
  intro before other after split
  rcases split_append_singleton split with ⟨front, rfl, old⟩ | ⟨same, -⟩
  · rcases released before other front old with listed | ⟨later, listed, up⟩
    · rcases mem_cons.mp listed with rfl | pending
      · exact .inr ⟨_, mem_append_right _ (mem_singleton_self _), rfl⟩
      · exact .inl pending
    · exact .inr ⟨later, mem_append_left _ listed, up⟩
  · simp at same

theorem ReleasedExcept.append {extra : List Sent} (released : ReleasedExcept pending sent)
    (others : ∀ new ∈ extra, new.origin ≠ .paste) : ReleasedExcept pending (sent ++ extra) := by
  induction extra generalizing sent with
  | nil => simpa using released
  | cons new extra ih =>
    have first : ReleasedExcept pending (sent ++ [new]) :=
      released.send fun origin => (others new mem_cons_self origin).elim
    simpa using ih first fun other listed => others other (mem_cons_of_mem new listed)

namespace InputsChannel

variable (channel : InputsChannel)

def pendingKeys : List UInt32 :=
  match channel.pasteState with
  | none => []
  | some state =>
    match state.subStep with
    | .press => []
    | .release => if state.key.shift then [state.key.press, 0x2A] else [state.key.press]

/-- Every key pressed by a paste is released, or about to be. -/
def KeysTracked : Prop :=
  ReleasedExcept channel.pendingKeys channel.sent

/-- The log grew by messages about saved modifiers. -/
def SentModifiers (before after : InputsChannel) : Prop :=
  ∃ extra, after.sent = before.sent ++ extra ∧ ∀ new ∈ extra, new.origin = .modifier

theorem SentModifiers.refl : SentModifiers channel channel :=
  ⟨[], by simp, nofun⟩

theorem SentModifiers.foldl {body : InputsChannel → Modifier → InputsChannel}
    (each : ∀ channel modifier, SentModifiers channel (body channel modifier))
    (modifiers : List Modifier) (channel : InputsChannel) :
    SentModifiers channel (modifiers.foldl body channel) := by
  refine foldlRecOn modifiers body (.refl channel) ?_
  rintro after ⟨extra, sent, origins⟩ modifier -
  obtain ⟨extra', sent', origins'⟩ := each after modifier
  refine ⟨extra ++ extra', by rw [sent', sent, append_assoc], fun new listed => ?_⟩
  exact (mem_append.mp listed).elim (origins new) (origins' new)

theorem releaseModifier_sent (modifier : Modifier) :
    SentModifiers channel (channel.releaseModifier modifier) := by
  unfold releaseModifier
  split
  · exact ⟨[⟨.modifier, .keyUp modifier.release⟩], rfl, by simp⟩
  · exact .refl channel

theorem restoreModifier_sent (saved : Modifier → Bool) (channel : InputsChannel)
    (modifier : Modifier) : SentModifiers channel (restoreModifier saved channel modifier) := by
  unfold restoreModifier
  split
  · exact ⟨[⟨.modifier, .keyDown modifier.press⟩], rfl, by simp⟩
  · exact .refl channel

theorem SentModifiers.released {before after : InputsChannel} (sent : SentModifiers before after)
    (released : ReleasedExcept pending before.sent) : ReleasedExcept pending after.sent := by
  obtain ⟨extra, grown, origins⟩ := sent
  rw [grown]
  exact released.append fun new listed => by simp [origins new listed]

theorem completePaste_pasteState (now : Nat) (state : PasteState) :
    (channel.completePaste now state).pasteState = none := by
  refine foldlRecOn (motive := fun after : InputsChannel => after.pasteState = none) Modifier.all
    (restoreModifier state.saved) rfl ?_
  intro after idle modifier _
  unfold restoreModifier
  split <;> exact idle

theorem pressKey_tracked {channel : InputsChannel} {now : Nat} {state : PasteState}
    (released : ReleasedExcept [] channel.sent) : (channel.pressKey now state).KeysTracked := by
  have key_eq : (PasteState.key { state with
      subStep := .release, nextFire := now + state.halfDelay }) = state.key := rfl
  simp only [KeysTracked, pendingKeys, pressKey, key_eq, sendIf]
  have pressed : ∀ {pending : List UInt32} {sent : List Sent} {code : UInt32},
      ReleasedExcept pending sent → code ∈ pending →
        ReleasedExcept pending (sent ++ [⟨.paste, .keyDown code⟩]) := by
    intro pending sent code released listed
    refine released.send fun _ other same => ?_
    rwa [← keyDown.inj same]
  split
  · exact pressed (pressed (released.mono nofun) (by simp)) (by simp)
  · exact pressed (released.mono nofun) (by simp)

/-- The channel when the strokes that end a pasted key are sent. -/
abbrev letGo (channel : InputsChannel) (state : PasteState) : InputsChannel :=
  (channel.send .paste (.keyUp state.key.release)).sendIf state.key.shift .paste (.keyUp 0xAA)

theorem releaseKey_tracked {channel : InputsChannel} {now : Nat} {state : PasteState}
    (paste : channel.pasteState = some state) (releasing : state.subStep = .release)
    (tracked : channel.KeysTracked) : (channel.releaseKey now state).KeysTracked := by
  have typed := state.typed state.key (get_mem _ _)
  have shift_break : (0xAA : UInt32) = breakCode 0x2A := by decide
  have settled : ReleasedExcept []
      (channel.letGo state).sent := by
    simp only [KeysTracked, pendingKeys, paste, releasing] at tracked
    simp only [sendIf]
    split
    · rw [if_pos (by assumption)] at tracked
      rw [typed.paired, shift_break]
      exact tracked.release.release
    · rw [if_neg (by assumption)] at tracked
      rw [typed.paired]
      exact tracked.release
  unfold releaseKey
  split
  · exact settled
  · rw [KeysTracked, pendingKeys, completePaste_pasteState]
    exact (SentModifiers.foldl (restoreModifier_sent state.saved) Modifier.all _).released settled

end InputsChannel

open InputsChannel

namespace InputsWorld

variable (world : InputsWorld)

def isCancelled (state : PasteState) : Bool :=
  state.cancel.any fun token => world.cancelled.contains token

/-- What a timer step that is due does to the channel. -/
inductive Fired (world : InputsWorld) (now : Nat) (state : PasteState) : InputsChannel → Prop
  | cancelled (cancelled : world.isCancelled state) :
      Fired world now state (world.channel.cancelPaste state)
  | pressed (live : ¬ world.isCancelled state) (pressing : state.subStep = .press) :
      Fired world now state (world.channel.pressKey now state)
  | released (live : ¬ world.isCancelled state) (releasing : state.subStep = .release) :
      Fired world now state (world.channel.releaseKey now state)

theorem timer_cases (now : Nat) : ∃ next, world.step (.timer now) = some next ∧
      (next = world ∨ ∃ state, world.channel.pasteState = some state ∧ state.nextFire ≤ now ∧
        ∃ channel, next = { world with channel } ∧ world.Fired now state channel) := by
  cases paste : world.channel.pasteState with
  | none => exact ⟨world, by simp [step, due, paste], .inl rfl⟩
  | some state =>
    by_cases fires : state.nextFire ≤ now
    · have due : world.due now := by simp [due, paste, fires]
      refine ⟨_, if_pos due, .inr ⟨state, rfl, fires, _, rfl, ?_⟩⟩
      simp only [advancePaste, paste]
      split
      · exact .cancelled (by assumption)
      · split
        · exact .pressed (by assumption) (by assumption)
        · exact .released (by assumption) (by assumption)
    · exact ⟨world, by simp [step, due, paste, fires], .inl rfl⟩

theorem input_cases (now : Nat) (event : InputEvent) : ∃ channel, world.step (.input now event) =
        some { world with channel, received := world.received ++ [event] } ∧
      (world.channel.Passed event channel ∨
        ∃ state, world.channel.Started event channel state) := by
  obtain ⟨channel, handled, effect⟩ := world.channel.handleInputEvent_ok now event
  exact ⟨channel, by simp only [step, handled], effect⟩

/-- A paste is not cancelled between the press and the release of a key. -/
def CancelsBetweenKeys : InputsAction → Prop
  | .timer now => ∀ state, world.channel.pasteState = some state → state.nextFire ≤ now →
      world.isCancelled state → state.subStep = .press
  | _ => True

theorem keysTracked_step {world : InputsWorld} {action : InputsAction}
    (tracked : world.channel.KeysTracked) (careful : world.CancelsBetweenKeys action) :
    ∃ next, world.step action = some next ∧ next.channel.KeysTracked := by
  cases action with
  | cancel token | motionAck => exact ⟨_, rfl, tracked⟩
  | input now event =>
    obtain ⟨after, stepped, effect⟩ := world.input_cases now event
    refine ⟨_, stepped, ?_⟩
    rcases effect with passed | ⟨state, started⟩
    · obtain ⟨extra, sent, origins, -⟩ := passed.sent
      have pending : after.pendingKeys = world.channel.pendingKeys := by
        simp only [pendingKeys, passed.paste]
      rw [KeysTracked, pending, sent]
      exact tracked.append fun new listed => by simp [origins new listed]
    · have pending : after.pendingKeys = world.channel.pendingKeys := by
        simp only [pendingKeys, started.paste, started.pressing, started.idle]
      rw [KeysTracked, pending, started.sent]
      exact (SentModifiers.foldl releaseModifier_sent
        Modifier.all world.channel).released tracked
  | timer now =>
    obtain ⟨next, stepped, rfl | ⟨state, paste, due, channel, rfl, fired⟩⟩ :=
      world.timer_cases now
    · exact ⟨_, stepped, tracked⟩
    refine ⟨_, stepped, ?_⟩
    have waiting : state.subStep = .press → ReleasedExcept [] world.channel.sent := by
      intro pressing
      simpa only [KeysTracked, pendingKeys, paste, pressing]
        using tracked
    cases fired with
    | cancelled cancelled => exact waiting (careful state paste due cancelled)
    | pressed live pressing => exact pressKey_tracked (waiting pressing)
    | released live releasing =>
      exact releaseKey_tracked paste releasing tracked

/-- When no paste is cancelled while a key is down, every run is defined, and whenever no paste is
in progress every key it pressed has been released. -/
theorem idle_paste_released (enablePaste : Bool) (actions : List InputsAction)
    (careful : Meets step CancelsBetweenKeys (opened enablePaste) actions) :
    ∃ final, run step (opened enablePaste) actions = some final ∧
      (final.channel.pasteState = none → AllReleased final.channel.sent) := by
  have start : (opened enablePaste).channel.KeysTracked := by
    intro before code after split
    rcases before with _ | ⟨first, before⟩ <;> simp [opened, InputsChannel.opened] at split
  obtain ⟨final, reached, tracked⟩ :=
    run_defined (fun world : InputsWorld => world.channel.KeysTracked)
      (fun _ _ => keysTracked_step) start careful
  refine ⟨final, reached, fun idle => ?_⟩
  have released : ReleasedExcept [] final.channel.sent := by
    simpa only [InputsChannel.KeysTracked, pendingKeys, idle] using tracked
  exact released.all

/-- A paste of two letters, cancelled after the first one. -/
def lateCancellation : List InputsAction :=
  [.input 0 (.pasteText ['A', 'b'] 0 none (some 7)), .timer 0, .timer 0, .cancel 7, .timer 0]

theorem lateCancellation_released : ∃ final, run step (opened true) lateCancellation = some final ∧
    final.channel.pasteState = none ∧ AllReleased final.channel.sent := by
  have careful : Meets step CancelsBetweenKeys (opened true) lateCancellation :=
    .cons trivial rfl (.cons (by rintro _ ⟨⟩ - ⟨⟩) rfl (.cons (by rintro _ ⟨⟩ - ⟨⟩) rfl
      (.cons trivial rfl (.cons (by rintro _ ⟨⟩ - -; rfl) rfl trivial))))
  obtain ⟨final, reached, released⟩ := idle_paste_released true _ careful
  have idle : final.channel.pasteState = none := by
    cases reached
    rfl
  exact ⟨final, reached, idle, released idle⟩

/-- A paste cancelled between the press and the release of its letter leaves the key down. -/
theorem cancelledKey_stuck :
    ∃ final, run step (opened true) [.input 0 (.pasteText ['a'] 0 none (some 7)), .timer 0,
        .cancel 7, .timer 0] = some final ∧
      final.channel.pasteState = none ∧ ¬ AllReleased final.channel.sent := by
  refine ⟨_, rfl, rfl, fun released => ?_⟩
  obtain ⟨later, listed, -⟩ := released [⟨.frontend, .keyModifiers 2⟩] 0x1E [] rfl
  exact absurd listed not_mem_nil

end InputsWorld

/-! ## Modifiers after a paste -/

namespace InputsChannel

variable (channel : InputsChannel)

theorem releaseModifier_guestHolds (released modifier : Modifier) :
    (channel.releaseModifier released).guestHolds modifier =
      if modifier = released ∧ channel.held released then false
      else channel.guestHolds modifier := by
  unfold releaseModifier
  split
  · rename_i held
    refine (guestHolds_send channel _ _ modifier).trans ?_
    cases modifier <;> cases released <;>
      simp [held, stroke, Modifier.after, Modifier.release]
  · rename_i free
    rw [if_neg fun both => free both.2]

variable (saved : Modifier → Bool)

theorem restoreModifier_guestHolds (channel : InputsChannel) (restored modifier : Modifier) :
    (restoreModifier saved channel restored).guestHolds modifier =
      if modifier = restored ∧ saved restored then true else channel.guestHolds modifier := by
  unfold restoreModifier
  split
  · rename_i held
    refine (guestHolds_send channel _ _ modifier).trans ?_
    cases modifier <;> cases restored <;>
      simp [held, stroke, Modifier.after, Modifier.press]
  · rename_i free
    rw [if_neg fun both => free both.2]

theorem releaseModifier_held (released modifier : Modifier) :
    (channel.releaseModifier released).held modifier =
      (channel.held modifier && !(modifier = released)) := by
  unfold releaseModifier
  split <;> by_cases same : modifier = released <;> simp_all

theorem restoreModifier_held (channel : InputsChannel) (restored modifier : Modifier) :
    (restoreModifier saved channel restored).held modifier =
      (channel.held modifier || (modifier = restored && saved restored)) := by
  unfold restoreModifier
  split <;> by_cases same : modifier = restored <;> simp_all

theorem releaseModifiers_spec (modifier : Modifier)
    (agreed : channel.guestHolds modifier = channel.held modifier) :
    (Modifier.all.foldl releaseModifier channel).held modifier = false ∧
      (Modifier.all.foldl releaseModifier channel).guestHolds modifier = false := by
  cases held : channel.held modifier <;> cases modifier <;>
    simp_all [Modifier.all, releaseModifier_held, releaseModifier_guestHolds]

theorem completePaste_spec (now : Nat) (state : PasteState) (modifier : Modifier) :
    (channel.completePaste now state).held modifier =
        (channel.held modifier || state.saved modifier) ∧
      (channel.completePaste now state).guestHolds modifier =
        (channel.guestHolds modifier || state.saved modifier) := by
  change (Modifier.all.foldl (restoreModifier state.saved) _).held modifier = _ ∧
    (Modifier.all.foldl (restoreModifier state.saved) _).guestHolds modifier = _
  cases marked : state.saved modifier <;> cases modifier <;>
    simp_all [Modifier.all, restoreModifier_held, restoreModifier_guestHolds] <;> rfl

theorem Passed.guestHolds {before after : InputsChannel} {event : InputEvent}
    (passed : Passed before event after) (modifier : Modifier) :
    after.guestHolds modifier = event.stroke.elim (before.guestHolds modifier)
      (modifier.after (before.guestHolds modifier)) := by
  obtain ⟨extra, sent, -, strokes⟩ := passed.sent
  rw [InputsChannel.guestHolds, sent, filterMap_append, heldAfter_append, strokes]
  cases event.stroke <;> rfl

theorem pressKey_guestHolds (now : Nat) (state : PasteState) (modifier : Modifier) :
    (channel.pressKey now state).guestHolds modifier =
      (channel.guestHolds modifier || (state.key.shift && modifier = .shift)) := by
  have plain := (state.typed state.key (get_mem _ _)).press_plain
  refine (guestHolds_send _ _ _ modifier).trans ?_
  rw [guestHolds_sendIf, guestHolds_send]
  cases modifier <;> cases state.key.shift <;>
    simp_all [stroke, Modifier.after, Modifier.press]

theorem releaseKey_sends (state : PasteState) (modifier : Modifier) :
    (channel.letGo state).guestHolds modifier =
      (channel.guestHolds modifier && !(state.key.shift && modifier = .shift)) := by
  have plain := (state.typed state.key (get_mem _ _)).release_plain
  rw [guestHolds_sendIf, guestHolds_send, guestHolds_send]
  cases modifier <;> cases state.key.shift <;>
    simp_all [stroke, Modifier.after, Modifier.release]

end InputsChannel

def PasteState.shiftPending (state : PasteState) : Bool :=
  state.subStep = .release && state.key.shift

namespace InputsWorld

variable (world : InputsWorld)

theorem userHolds_receive (channel : InputsChannel) (event : InputEvent)
    (modifier : Modifier) :
    userHolds { world with channel, received := world.received ++ [event] } modifier =
      event.stroke.elim (world.userHolds modifier) (modifier.after (world.userHolds modifier)) := by
  rw [userHolds, filterMap_append, heldAfter_append]
  cases stroke : event.stroke <;> simp [stroke, userHolds]

/-- The modifiers of the user, the channel and the guest; a paste knows of those pressed since its
start. -/
def ModifiersTracked : Prop :=
  match world.channel.pasteState with
  | none => ∀ modifier, world.channel.guestHolds modifier = world.userHolds modifier ∧
      world.channel.held modifier = world.userHolds modifier
  | some state => ∀ modifier, (world.channel.held modifier → world.userHolds modifier) ∧
      (world.userHolds modifier → world.channel.held modifier ∨ state.saved modifier) ∧
      (world.channel.guestHolds modifier = world.channel.held modifier ∨
        modifier = .shift ∧ state.shiftPending)

/-- A cancellation comes while the paste holds no shift and the user holds only what they pressed
since its start; a shifted key is released before the user presses shift; and at the end the user
still holds the saved modifiers. -/
def KeepsModifiers : InputsAction → Prop
  | .timer now => ∀ state, world.channel.pasteState = some state → state.nextFire ≤ now →
      (world.isCancelled state → state.shiftPending = false ∧
        ∀ modifier, world.userHolds modifier → world.channel.held modifier) ∧
      (¬ world.isCancelled state → state.subStep = .release →
        (state.key.shift → world.channel.held .shift = false) ∧
        (state.index + 1 = state.keys.length →
          ∀ modifier, state.saved modifier → world.userHolds modifier))
  | _ => True

variable {world : InputsWorld}

theorem modifiersTracked_passed {event : InputEvent} {channel : InputsChannel}
    (tracked : world.ModifiersTracked) (passed : world.channel.Passed event channel) :
    ModifiersTracked { world with channel, received := world.received ++ [event] } := by
  unfold ModifiersTracked at *
  simp only [passed.paste, passed.guestHolds, passed.held, userHolds_receive] at *
  cases event.stroke with
  | none => exact tracked
  | some stroke =>
    cases paste : world.channel.pasteState with
    | none =>
      simp only [paste] at tracked ⊢
      intro modifier
      rw [(tracked modifier).1, (tracked modifier).2]
      exact ⟨rfl, rfl⟩
    | some state =>
      simp only [paste] at tracked ⊢
      intro modifier
      obtain ⟨known, covered, agreed⟩ := tracked modifier
      exact ⟨after_mono known, after_or covered,
        agreed.imp_left fun same => by rw [same]⟩

variable {state : PasteState}

theorem modifiersTracked_released {now : Nat}
    (tracked : world.ModifiersTracked) (paste : world.channel.pasteState = some state)
    (unshifted : state.key.shift → world.channel.held .shift = false)
    (still_held : state.index + 1 = state.keys.length →
      ∀ modifier, state.saved modifier → world.userHolds modifier) :
    ModifiersTracked { world with channel := world.channel.releaseKey now state } := by
  simp only [ModifiersTracked, paste] at tracked
  let released := world.channel.letGo state
  have held : released.held = world.channel.held := by
    simp only [released, sendIf]
    split <;> rfl
  have guest : ∀ modifier, released.guestHolds modifier = world.channel.held modifier := by
    intro modifier
    obtain ⟨-, -, agreed⟩ := tracked modifier
    rw [releaseKey_sends]
    by_cases shifted : state.key.shift ∧ modifier = .shift
    · obtain ⟨key_shift, rfl⟩ := shifted
      simp [key_shift, unshifted key_shift]
    · have same := agreed.resolve_right fun both => shifted ⟨by
        simpa [PasteState.shiftPending] using (Bool.and_eq_true _ _ ▸ both.2).2, both.1⟩
      cases key_shift : state.key.shift <;> simp_all
  unfold releaseKey
  split
  · intro modifier
    obtain ⟨held_user, covered, -⟩ := tracked modifier
    exact ⟨fun held' => held_user (congrFun held modifier ▸ held'),
      fun user => (covered user).imp_left (congrFun held modifier ▸ ·),
      .inl ((guest modifier).trans (congrFun held modifier).symm)⟩
  · rename_i finished
    have last := still_held (by have := state.inside; omega)
    simp only [ModifiersTracked, completePaste_pasteState]
    intro modifier
    obtain ⟨held_user, covered, -⟩ := tracked modifier
    -- What the channel knows of and what was saved are together what the user holds.
    have user : (world.channel.held modifier || state.saved modifier) =
        world.userHolds modifier := by
      rw [Bool.eq_iff_iff, Bool.or_eq_true]
      exact ⟨fun either => either.elim held_user (last modifier), covered⟩
    obtain ⟨restored_held, restored_guest⟩ :=
      completePaste_spec released now state modifier
    rw [restored_held, restored_guest, guest, held]
    exact ⟨user, user⟩

theorem modifiersTracked_step {action : InputsAction} (tracked : world.ModifiersTracked)
    (kept : world.KeepsModifiers action) :
    ∃ next, world.step action = some next ∧ next.ModifiersTracked := by
  cases action with
  | cancel token | motionAck => exact ⟨_, rfl, tracked⟩
  | input now event =>
    obtain ⟨after, stepped, effect⟩ := world.input_cases now event
    refine ⟨_, stepped, ?_⟩
    rcases effect with passed | ⟨state, started⟩
    · exact modifiersTracked_passed tracked passed
    · simp only [ModifiersTracked, started.idle] at tracked
      simp only [ModifiersTracked, started.paste]
      intro modifier
      obtain ⟨guest, channel_eq⟩ := tracked modifier
      have released := world.channel.releaseModifiers_spec modifier (guest.trans channel_eq.symm)
      have held : after.held modifier = false := by rw [started.held, released.1]
      have guest' : after.guestHolds modifier = false := by
        rw [guestHolds, started.sent]
        exact released.2
      rw [userHolds_receive, started.stroke, held, guest', started.saved, channel_eq]
      exact ⟨nofun, .inr, .inl rfl⟩
  | timer now =>
    obtain ⟨next, stepped, rfl | ⟨state, paste, due, channel, rfl, fired⟩⟩ :=
      world.timer_cases now
    · exact ⟨_, stepped, tracked⟩
    refine ⟨_, stepped, ?_⟩
    obtain ⟨cancelling, releasing⟩ := kept state paste due
    cases fired with
    | cancelled cancelled =>
      obtain ⟨shiftless, known⟩ := cancelling cancelled
      simp only [ModifiersTracked, paste] at tracked
      intro modifier
      obtain ⟨held_user, -, agreed⟩ := tracked modifier
      have same : world.channel.held modifier = world.userHolds modifier :=
        Bool.eq_iff_iff.mpr ⟨held_user, known modifier⟩
      have guest := agreed.resolve_right fun both => by simp [shiftless] at both
      exact ⟨guest.trans same, same⟩
    | pressed live pressing =>
      simp only [ModifiersTracked, paste] at tracked
      intro modifier
      obtain ⟨held_user, covered, agreed⟩ := tracked modifier
      have held :
          (world.channel.pressKey now state).held modifier = world.channel.held modifier := by
        unfold pressKey sendIf
        split <;> rfl
      have guest := agreed.resolve_right fun both => by
        simp [PasteState.shiftPending, pressing] at both
      simp only [pressKey_guestHolds, held, guest]
      refine ⟨held_user, covered, ?_⟩
      by_cases shifted : state.key.shift ∧ modifier = .shift
      · exact .inr ⟨shifted.2, shifted.1⟩
      · left
        cases key_shift : state.key.shift <;> simp_all
    | released live turn =>
      obtain ⟨unshifted, still_held⟩ := releasing live turn
      exact modifiersTracked_released tracked paste unshifted still_held

/-- When every step keeps the modifiers, every run is defined, and between pastes the guest takes
exactly those modifiers to be held that the user holds. -/
theorem idle_paste_modifiers (enablePaste : Bool) (actions : List InputsAction)
    (kept : Meets step KeepsModifiers (opened enablePaste) actions) :
    ∃ final, run step (opened enablePaste) actions = some final ∧ (final.channel.pasteState = none →
        ∀ modifier, final.channel.guestHolds modifier = final.userHolds modifier) := by
  have start : (opened enablePaste).ModifiersTracked := fun _ => ⟨rfl, rfl⟩
  obtain ⟨final, reached, tracked⟩ :=
    run_defined ModifiersTracked (fun _ _ => modifiersTracked_step) start kept
  refine ⟨final, reached, fun idle modifier => ?_⟩
  simp only [ModifiersTracked, idle] at tracked
  exact (tracked modifier).1

/-- Control is held for the whole of a paste of a shifted letter. -/
def heldControl : List InputsAction :=
  [.input 0 (.keyDown 0x1D), .input 0 (.pasteText ['A'] 0 none none), .timer 0, .timer 0]

theorem heldControl_restored : ∃ final, run step (opened true) heldControl = some final ∧
      final.channel.pasteState = none ∧ final.userHolds .ctrl = true ∧
      ∀ modifier, final.channel.guestHolds modifier = final.userHolds modifier := by
  have kept : Meets step KeepsModifiers (opened true) heldControl := by
    refine .cons trivial rfl (.cons trivial rfl (.cons ?_ rfl (.cons ?_ rfl trivial)))
    · rintro state ⟨⟩ -
      exact ⟨nofun, nofun⟩
    · rintro state ⟨⟩ -
      refine ⟨nofun, fun _ _ => ⟨fun _ => rfl, fun _ modifier => ?_⟩⟩
      cases modifier <;> decide
  obtain ⟨final, reached, agree⟩ := idle_paste_modifiers true _ kept
  cases reached
  exact ⟨_, rfl, rfl, rfl, agree rfl⟩

/-- Control that the user released is pressed again, control that they hold stays released after a
cancellation, and shift that they pressed is released with a letter. -/
theorem pastes_disagree : (∃ final, run step (opened true) [.input 0 (.keyDown 0x1D),
        .input 0 (.pasteText ['a'] 0 none none), .timer 0, .input 0 (.keyUp 0x9D), .timer 0] =
          some final ∧ final.channel.pasteState = none ∧ final.channel.guestHolds .ctrl = true ∧
      final.userHolds .ctrl = false) ∧ (∃ final, run step (opened true) [.input 0 (.keyDown 0x1D),
        .input 0 (.pasteText ['a'] 0 none (some 7)), .cancel 7, .timer 0] = some final ∧
      final.channel.pasteState = none ∧ final.channel.guestHolds .ctrl = false ∧
      final.userHolds .ctrl = true) ∧
    ∃ final, run step (opened true) [.input 0 (.pasteText ['A'] 0 none none),
        .input 0 (.keyDown 0x2A), .timer 0, .timer 0] = some final ∧
      final.channel.pasteState = none ∧ final.channel.guestHolds .shift = false ∧
      final.userHolds .shift = true :=
  ⟨⟨_, rfl, rfl, rfl, rfl⟩, ⟨_, rfl, rfl, rfl, rfl⟩, ⟨_, rfl, rfl, rfl, rfl⟩⟩

end InputsWorld

end Ryll
