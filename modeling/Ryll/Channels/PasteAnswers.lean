import Ryll.Channels.Paste

/-!
# How requests to paste are answered

A request that finds pasting enabled and no other paste in progress is answered by one event, which
reports the keys typed for it.  Any other request is dropped without an event.
-/

namespace Ryll

open List Option InputEvent

def PasteEvent.requestId : PasteEvent → Option RequestId
  | completed _ _ requestId | failed _ requestId => requestId

def InputEvent.requestId : InputEvent → Option RequestId
  | .pasteText _ _ requestId _ => requestId
  | _ => none

def InputsAction.requestId : InputsAction → Option RequestId
  | .input _ event => event.requestId
  | _ => none

/-! ## Keys typed -/

def pasteMessages (sent : List Sent) : List InputsMessage :=
  (sent.filter (·.origin = .paste)).map (·.message)

/-- The key pressed last and not released, and the number of keys released, without left shift. -/
def noteKey : Option UInt32 × Nat → InputsMessage → Option UInt32 × Nat
  | (pressed, typed), .keyDown code => if code = 0x2A then (pressed, typed) else (some code, typed)
  | (pressed, typed), .keyUp code =>
    if pressed.any fun press => breakCode press = code then (none, typed + 1)
    else (pressed, typed)
  | keys, _ => keys

/-- The number of keys whose press and release are both among the messages. -/
def typedKeys (messages : List InputsMessage) : Nat := (messages.foldl noteKey (none, 0)).2

theorem pasteMessages_append (first second : List Sent) :
    pasteMessages (first ++ second) = pasteMessages first ++ pasteMessages second := by
  simp [pasteMessages]

/-! ## The history of a channel -/

/-- The channel with what was asked of it and what it did for each request. -/
structure PasteHistory where
  world : InputsWorld
  taken : List RequestId
  typing : List InputsMessage
  /-- Ends of pastes with the messages sent for each (history). -/
  reports : List (PasteEvent × List InputsMessage)

namespace PasteHistory

variable (history : PasteHistory)

def ready : Bool :=
  history.world.channel.enablePaste && history.world.channel.pasteState.isNone

def step (history : PasteHistory) (action : InputsAction) : Option PasteHistory :=
  (history.world.step action).map fun next =>
    let typing := history.typing ++
      pasteMessages (next.channel.sent.drop history.world.channel.sent.length)
    let ended := next.channel.events.drop history.world.channel.events.length
    { world := next
      taken := history.taken ++ if history.ready then action.requestId.toList else []
      typing := if ended.isEmpty then typing else []
      reports := history.reports ++ ended.map fun event => (event, typing) }

def opened (enablePaste : Bool) : PasteHistory := ⟨.opened enablePaste, [], [], []⟩

def requests : List RequestId :=
  history.world.received.filterMap requestId

def answered : List RequestId :=
  history.world.channel.events.filterMap PasteEvent.requestId

/-- A request finds pasting enabled and no paste in progress. -/
def Taken (action : InputsAction) : Prop :=
  action.requestId.isSome → history.ready

end PasteHistory

/-! ## What a step adds -/

namespace InputsChannel

variable {before after : InputsChannel}

/-- The channel goes on with the same paste, if any. -/
structure Continues (before after : InputsChannel) : Prop where
  events : after.events = before.events
  paste : after.pasteState = before.pasteState
  sent : ∃ extra, after.sent = before.sent ++ extra ∧ pasteMessages extra = []
  enabled : after.enablePaste = before.enablePaste

theorem SentModifiers.silent (sent : SentModifiers before after) :
    ∃ extra, after.sent = before.sent ++ extra ∧ pasteMessages extra = [] := by
  obtain ⟨extra, grown, origins⟩ := sent
  refine ⟨extra, grown, ?_⟩
  simp only [pasteMessages, map_eq_nil_iff, filter_eq_nil_iff]
  exact fun new member => by simp [origins new member]

/-- What a request to paste can do: it is dropped, answered at once or started. -/
inductive Requested (before : InputsChannel) (requestId : Option RequestId) : InputsChannel → Prop
  | dropped (unready : (before.enablePaste && before.pasteState.isNone) = false) :
      Requested before requestId before
  | answered (ready : (before.enablePaste && before.pasteState.isNone) = true)
      {event : PasteEvent} (named : event.requestId = requestId)
      (empty : ∀ chars elapsed id, event = .completed chars elapsed id → chars = 0) :
      Requested before requestId { before with events := before.events ++ [event] }
  | started (ready : (before.enablePaste && before.pasteState.isNone) = true)
      {after : InputsChannel} {state : PasteState} (paste : after.pasteState = some state)
      (named : state.requestId = requestId) (first : state.index = 0)
      (pressing : state.subStep = .press) (events : after.events = before.events)
      (sent : SentModifiers before after) (enabled : after.enablePaste = before.enablePaste) :
      Requested before requestId after

variable (channel : InputsChannel) (now : Nat)

theorem pasteText_requested (text : List Char) (charDelayMs : UInt32)
    (requestId : Option RequestId) (cancel : Option Nat) :
    ∃ after, channel.pasteText now text charDelayMs requestId cancel = .ok after ∧
      Requested channel requestId after := by
  have ensured := translatePaste_ensures (text.take pasteMaxChars)
  unfold pasteText
  split
  case isTrue unready =>
    refine ⟨channel, rfl, .dropped ?_⟩
    cases paste : channel.pasteState <;> simp_all
  case isFalse ready =>
    have ready' : (channel.enablePaste && channel.pasteState.isNone) = true := by
      cases paste : channel.pasteState <;> simp_all
    split
    case h_1 keys translated =>
      refine ⟨_, rfl, ?_⟩
      unfold startPaste
      split
      · obtain ⟨events, enabled⟩ := foldlRecOn (motive := fun after : InputsChannel =>
            after.events = channel.events ∧ after.enablePaste = channel.enablePaste) Modifier.all
          releaseModifier ⟨rfl, rfl⟩ fun after aside modifier _ => by
            unfold releaseModifier
            split <;> exact aside
        exact .started ready' rfl rfl rfl rfl events
          (SentModifiers.foldl releaseModifier_sent Modifier.all channel) enabled
      · refine .answered ready' rfl fun chars elapsed id same => ?_
        cases same
        rfl
    case h_2 error translated => exact ⟨_, rfl, .answered ready' rfl (by rintro _ _ _ ⟨⟩)⟩
    case h_3 cause translated =>
      rw [translated] at ensured
      exact ensured.elim

theorem continues_sendMotion (message : InputsMessage) :
    Continues channel (channel.sendMotion message) := by
  unfold sendMotion
  split
  · exact ⟨rfl, rfl, ⟨[⟨.frontend, message⟩], rfl, rfl⟩, rfl⟩
  · exact ⟨rfl, rfl, ⟨[], by simp, rfl⟩, rfl⟩

theorem handleInputEvent_cases (event : InputEvent) :
    ∃ after, channel.handleInputEvent now event = .ok after ∧
      (Requested channel event.requestId after ∨
        (event.requestId = none ∧ Continues channel after)) := by
  cases event with
  | keyDown code | keyUp code | keyModifiers modifiers =>
    exact ⟨_, rfl, .inr ⟨rfl, rfl, rfl, ⟨[_], rfl, rfl⟩, rfl⟩⟩
  | mouseMove x y | mouseMotion dx dy => exact ⟨_, rfl, .inr ⟨rfl, continues_sendMotion channel _⟩⟩
  | mouseDown button x y | mouseUp button x y =>
    exact ⟨_, rfl, .inr ⟨rfl, rfl, rfl, ⟨[_, _], append_assoc _ [_] [_], rfl⟩, rfl⟩⟩
  | pasteText text charDelayMs requestId cancel =>
    obtain ⟨after, handled, requested⟩ :=
      channel.pasteText_requested now text charDelayMs requestId cancel
    exact ⟨after, handled, .inl requested⟩

variable (state : PasteState)

theorem pressKey_typing : ∃ extra, (channel.pressKey now state).sent = channel.sent ++ extra ∧
      ∀ typed, (pasteMessages extra).foldl noteKey (none, typed) =
        (some state.key.press, typed) := by
  have plain : state.key.press ≠ 0x2A := fun same =>
    (state.typed state.key (get_mem _ _)).press_plain (by simp [same])
  unfold pressKey sendIf
  split
  · exact ⟨[⟨.paste, .keyDown 0x2A⟩, ⟨.paste, .keyDown state.key.press⟩],
      append_assoc _ [_] [_], fun typed => by simp [pasteMessages, noteKey, plain]⟩
  · exact ⟨[⟨.paste, .keyDown state.key.press⟩], rfl,
      fun typed => by simp [pasteMessages, noteKey, plain]⟩

theorem releaseKey_typing :
    ∃ extra, (channel.letGo state).sent = channel.sent ++ extra ∧
      ∀ typed, (pasteMessages extra).foldl noteKey (some state.key.press, typed) =
        (none, typed + 1) := by
  have paired := (state.typed state.key (get_mem _ _)).paired
  unfold letGo sendIf
  split
  · exact ⟨[⟨.paste, .keyUp state.key.release⟩, ⟨.paste, .keyUp 0xAA⟩],
      append_assoc _ [_] [_], fun typed => by simp [pasteMessages, noteKey, paired]⟩
  · exact ⟨[⟨.paste, .keyUp state.key.release⟩], rfl,
      fun typed => by simp [pasteMessages, noteKey, paired]⟩

theorem completePaste_effect : (channel.completePaste now state).events = channel.events ++
        [.completed state.keys.length ((now - state.start) / 1000000) state.requestId] ∧
      (channel.completePaste now state).enablePaste = channel.enablePaste ∧
      ∃ extra, (channel.completePaste now state).sent = channel.sent ++ extra ∧
        pasteMessages extra = [] := by
  have ⟨events, enabled⟩ := foldlRecOn (motive := fun after : InputsChannel =>
      after.events = channel.events ∧ after.enablePaste = channel.enablePaste) Modifier.all
    (restoreModifier state.saved) (b := { channel with pasteState := none }) ⟨rfl, rfl⟩
    fun after aside modifier _ => by
      unfold restoreModifier
      split <;> exact aside
  refine ⟨?_, enabled, ?_⟩
  · simp only [completePaste, events]
  · exact (SentModifiers.foldl (restoreModifier_sent state.saved) Modifier.all
      { channel with pasteState := none }).silent

theorem releaseKey_cases : ∃ extra, (channel.releaseKey now state).sent = channel.sent ++ extra ∧
      (∀ typed, (pasteMessages extra).foldl noteKey (some state.key.press, typed) =
        (none, typed + 1)) ∧ (channel.releaseKey now state).enablePaste = channel.enablePaste ∧
      ((∃ next, (channel.releaseKey now state).pasteState = some next ∧
          next.requestId = state.requestId ∧ next.subStep = .press ∧ next.index = state.index + 1 ∧
          (channel.releaseKey now state).events = channel.events) ∨
        (∃ elapsed, state.keys.length = state.index + 1 ∧
          (channel.releaseKey now state).pasteState = none ∧
          (channel.releaseKey now state).events = channel.events ++
            [.completed state.keys.length elapsed state.requestId])) := by
  obtain ⟨extra, grown, typing⟩ := channel.releaseKey_typing state
  have aside : (channel.letGo state).events = channel.events ∧
      (channel.letGo state).enablePaste = channel.enablePaste := by
    unfold letGo sendIf
    split <;> exact ⟨rfl, rfl⟩
  unfold releaseKey
  split
  case isTrue more =>
    exact ⟨extra, grown, typing, aside.2, .inl ⟨_, rfl, rfl, rfl, rfl, aside.1⟩⟩
  case isFalse last =>
    obtain ⟨events, enabled, more, grown', silent⟩ := completePaste_effect (channel.letGo state)
      now state
    have inside := state.inside
    refine ⟨extra ++ more, ?_, fun typed => ?_, enabled.trans aside.2, .inr ⟨_, by omega,
      completePaste_pasteState _ now state, by rw [events, aside.1]⟩⟩
    · rw [grown', grown, append_assoc]
    · rw [pasteMessages_append, silent, append_nil, typing]

end InputsChannel

/-! ## Requests and answers over a run -/

namespace PasteHistory

variable {history next : PasteHistory} {action : InputsAction}

/-- The key being typed and the number of keys typed of a paste. -/
def progress (state : PasteState) : Option UInt32 × Nat :=
  (match state.subStep with
    | .press => none
    | .release => some state.key.press, state.index)

/-- The answers follow the requests taken. -/
structure Answered (history : PasteHistory) : Prop where
  taken : history.taken = history.answered ++
    (history.world.channel.pasteState.bind (·.requestId)).toList
  made : history.taken.Sublist history.requests
  paired : history.reports.map Prod.fst = history.world.channel.events
  reported : ∀ report ∈ history.reports, ∀ chars elapsed requestId,
    report.1 = .completed chars elapsed requestId → chars = typedKeys report.2
  idle : history.world.channel.pasteState = none → history.typing = []
  typing : ∀ state, history.world.channel.pasteState = some state →
    history.typing.foldl noteKey (none, 0) = progress state

variable {world : InputsWorld}

theorem step_eq (extra : List Sent) (ended : List PasteEvent)
    (stepped : history.world.step action = some world)
    (sent : world.channel.sent = history.world.channel.sent ++ extra)
    (events : world.channel.events = history.world.channel.events ++ ended) :
    history.step action = some
      { world
        taken := history.taken ++ if history.ready then action.requestId.toList else []
        typing := if ended.isEmpty then history.typing ++ pasteMessages extra else []
        reports := history.reports ++
          ended.map fun event => (event, history.typing ++ pasteMessages extra) } := by
  simp only [step, stepped, sent, events, drop_left, map_some]

theorem opened_answered (enablePaste : Bool) : (opened enablePaste).Answered where
  taken := rfl
  made := .slnil
  paired := rfl
  reported := by simp [opened]
  idle := fun _ => rfl
  typing := fun state paste => nomatch paste

theorem idle_of_ready (ready : history.ready = true) : history.world.channel.pasteState = none := by
  rw [PasteHistory.ready, Bool.and_eq_true] at ready
  exact isNone_iff_eq_none.mp ready.2

section

variable (sound : history.Answered)
include sound

theorem Answered.continues (stepped : history.world.step action = some world)
    (continues : history.world.channel.Continues world.channel) (silent : action.requestId = none)
    (received : world.received.filterMap requestId = history.requests) :
    ∃ next, history.step action = some next ∧ next.Answered := by
  obtain ⟨extra, sent, typing⟩ := continues.sent
  refine ⟨_, step_eq extra [] stepped sent (by rw [continues.events, append_nil]), ?_⟩
  simp only [silent, typing, toList_none, ite_self, append_nil, map_nil,
    isEmpty_nil, if_true]
  constructor
  · simpa only [answered, continues.events, continues.paste] using sound.taken
  · simpa only [requests, received] using sound.made
  · simpa only [continues.events] using sound.paired
  · exact sound.reported
  · simpa only [continues.paste] using sound.idle
  · simpa only [continues.paste] using sound.typing

theorem Answered.ended (extra : List Sent)
    {event : PasteEvent} (stepped : history.world.step action = some world)
    (sent : world.channel.sent = history.world.channel.sent ++ extra)
    (events : world.channel.events = history.world.channel.events ++ [event])
    (idle : world.channel.pasteState = none)
    (received : world.received.filterMap requestId =
      history.requests ++ action.requestId.toList)
    (named : history.answered ++ event.requestId.toList =
      history.taken ++ if history.ready then action.requestId.toList else [])
    (typed : ∀ chars elapsed requestId, event = .completed chars elapsed requestId →
      chars = typedKeys (history.typing ++ pasteMessages extra)) :
    ∃ next, history.step action = some next ∧ next.Answered := by
  refine ⟨_, step_eq extra [event] stepped sent events, ?_⟩
  constructor
  · simp only [answered, events, idle, filterMap_append, bind_none, toList_none,
      append_nil]
    rw [← named, answered]
    cases named : event.requestId <;> simp [named]
  · simp only [requests, received]
    refine sound.made.append ?_
    split
    · exact List.Sublist.refl _
    · exact nil_sublist _
  · simp only [map_append, sound.paired, events, map_cons, map_nil]
  · intro report member chars elapsed requestId completed
    rcases mem_append.mp member with old | new
    · exact sound.reported report old chars elapsed requestId completed
    · obtain rfl := mem_singleton.mp new
      exact typed chars elapsed requestId completed
  · exact fun _ => rfl
  · intro state paste
    rw [idle] at paste
    cases paste

theorem Answered.types {extra : List Sent}
    {state : PasteState} (stepped : history.world.step action = some world)
    (sent : world.channel.sent = history.world.channel.sent ++ extra)
    (events : world.channel.events = history.world.channel.events)
    (paste : world.channel.pasteState = some state)
    (received : world.received.filterMap requestId =
      history.requests ++ action.requestId.toList)
    (named : history.answered ++ state.requestId.toList =
      history.taken ++ if history.ready then action.requestId.toList else [])
    (typing : (history.typing ++ pasteMessages extra).foldl noteKey (none, 0) = progress state) :
    ∃ next, history.step action = some next ∧ next.Answered := by
  refine ⟨_, step_eq extra [] stepped sent (by rw [events, append_nil]), ?_⟩
  simp only [isEmpty_nil, if_true, map_nil, append_nil]
  constructor
  · simpa only [answered, events, paste, bind_some] using named.symm
  · simp only [requests, received]
    refine sound.made.append ?_
    split
    · exact List.Sublist.refl _
    · exact nil_sublist _
  · simpa only [events] using sound.paired
  · exact sound.reported
  · intro idle
    rw [paste] at idle
    cases idle
  · intro state' paste'
    obtain rfl := some.inj (paste.symm.trans paste')
    exact typing

theorem Answered.input (now : Nat) (event : InputEvent) :
    ∃ next, history.step (.input now event) = some next ∧ next.Answered := by
  obtain ⟨after, handled, effect⟩ := history.world.channel.handleInputEvent_cases now event
  have stepped : history.world.step (.input now event) = some { history.world with
      channel := after, received := history.world.received ++ [event] } := by
    simp only [InputsWorld.step, handled]
  have received : (history.world.received ++ [event]).filterMap requestId =
      history.requests ++ event.requestId.toList := by
    cases made : event.requestId <;> simp [requests, made]
  rcases effect with requested | ⟨silent, continues⟩
  · cases requested with
    | dropped unready =>
      -- The request is not taken, so the ids made run ahead of the ids taken.
      refine ⟨_, step_eq [] [] stepped (by simp) (by simp), ?_⟩
      have unready' : history.ready = false := unready
      simp only [unready', Bool.false_eq_true, if_false, append_nil, isEmpty_nil,
        if_true, map_nil, pasteMessages, filter_nil]
      refine { sound with made := ?_ }
      simp only [requests, received]
      exact sound.made.trans (sublist_append_left _ _)
    | answered ready named empty =>
      have ready' : history.ready = true := ready
      have idle := idle_of_ready ready'
      refine sound.ended [] stepped (by simp) rfl idle received ?_ ?_
      · rw [named, ready', if_pos rfl, sound.taken, idle]
        simp [InputsAction.requestId]
      · intro chars elapsed requestId completed
        rw [empty chars elapsed requestId completed, sound.idle idle]
        rfl
    | started ready paste named first pressing events sent enabled =>
      have ready' : history.ready = true := ready
      have idle := idle_of_ready ready'
      obtain ⟨extra, grown, silent⟩ := sent.silent
      refine sound.types stepped grown events paste received ?_ ?_
      · rw [named, ready', if_pos rfl, sound.taken, idle]
        simp [InputsAction.requestId]
      · rw [silent, sound.idle idle, progress, first, pressing]
        rfl
  · refine sound.continues stepped continues silent ?_
    rw [received, silent, toList_none, append_nil]

theorem Answered.timer (now : Nat) :
    ∃ next, history.step (.timer now) = some next ∧ next.Answered := by
  obtain ⟨world, stepped, rfl | ⟨state, paste, -, channel, rfl, fired⟩⟩ :=
    history.world.timer_cases now
  · exact sound.continues stepped ⟨rfl, rfl, ⟨[], by simp, rfl⟩, rfl⟩ rfl rfl
  have busy : history.ready = false := by simp [ready, paste]
  have taken : history.taken = history.answered ++ state.requestId.toList := by
    rw [sound.taken, paste]
    rfl
  have typing := sound.typing state paste
  have received : history.world.received.filterMap requestId =
      history.requests ++ (InputsAction.timer now).requestId.toList := (append_nil _).symm
  cases fired with
  | cancelled cancelled =>
    refine sound.ended [] stepped (by simp [InputsChannel.cancelPaste]) rfl rfl
      received ?_ fun _ _ _ completed => nomatch completed
    rw [busy, taken]
    simp [PasteEvent.requestId]
  | pressed live pressing =>
    obtain ⟨extra, sent, press⟩ := history.world.channel.pressKey_typing now state
    refine sound.types stepped sent ?_ rfl received ?_ ?_
    · unfold InputsChannel.pressKey InputsChannel.sendIf
      split <;> rfl
    · rw [busy, taken]
      simp
    · rw [foldl_append, typing, progress, pressing, press]
      rfl
  | released live releasing =>
    obtain ⟨extra, sent, release, -, effect⟩ :=
      history.world.channel.releaseKey_cases now state
    have typed : (history.typing ++ pasteMessages extra).foldl noteKey (none, 0) =
        (none, state.index + 1) := by
      rw [foldl_append, typing, progress, releasing, release]
    rcases effect with ⟨next, paste', named, pressing, index, events⟩ |
      ⟨elapsed, last, idle, events⟩
    · refine sound.types stepped sent events paste' received ?_ ?_
      · rw [busy, taken, named]
        simp
      · rw [typed, progress, pressing, index]
    · refine sound.ended extra stepped sent events idle received ?_ ?_
      · rw [busy, taken]
        simp [PasteEvent.requestId]
      · intro chars elapsed' requestId completed
        cases completed
        rw [typedKeys, typed, last]

theorem Answered.step (action : InputsAction) :
    ∃ next, history.step action = some next ∧ next.Answered := by
  cases action with
  | input now event => exact sound.input now event
  | timer now => exact sound.timer now
  | cancel token | motionAck =>
    exact sound.continues rfl ⟨rfl, rfl, ⟨[], by simp, rfl⟩, rfl⟩ rfl rfl

end

theorem step_requests (stepped : history.step action = some next) :
    next.requests = history.requests ++ action.requestId.toList ∧
      next.taken = history.taken ++ if history.ready then action.requestId.toList else [] := by
  obtain ⟨world, moved, rfl⟩ := map_eq_some_iff.mp stepped
  refine ⟨?_, rfl⟩
  cases action with
  | input now event =>
    obtain ⟨channel, moved', -⟩ := history.world.input_cases now event
    obtain rfl := some.inj (moved'.symm.trans moved)
    cases made : event.requestId <;> simp [requests, InputsAction.requestId, made]
  | timer now =>
    obtain ⟨world', moved', rfl | ⟨state, -, -, channel, rfl, -⟩⟩ := history.world.timer_cases now
    · obtain rfl := some.inj (moved'.symm.trans moved)
      exact (append_nil _).symm
    · obtain rfl := some.inj (moved'.symm.trans moved)
      exact (append_nil _).symm
  | cancel token | motionAck =>
    cases moved
    exact (append_nil _).symm

theorem step_complete (made : history.taken.Sublist history.requests)
    (stepped : history.step action = some next) :
    next.taken = next.requests ↔ history.taken = history.requests ∧ history.Taken action := by
  obtain ⟨requests, taken⟩ := step_requests stepped
  rw [requests, taken, Taken]
  cases ready : history.ready with
  | true => simp
  | false =>
    cases action.requestId with
    | none => simp
    | some requestId =>
      have shorter := made.length_le
      refine iff_of_false (fun same => ?_) (by simp)
      have lengths := congrArg List.length same
      simp at lengths
      omega

theorem run_complete {actions : List InputsAction} (sound : history.Answered)
    (reached : run step history actions = some next) : next.taken = next.requests ↔
      history.taken = history.requests ∧ Meets step Taken history actions := by
  induction actions generalizing history with
  | nil =>
    cases reached
    exact (and_iff_left trivial).symm
  | cons action actions ih =>
    obtain ⟨middle, stepped, rest⟩ := run_cons.mp reached
    obtain ⟨middle', stepped', sound'⟩ := sound.step action
    obtain rfl := some.inj (stepped.symm.trans stepped')
    rw [ih sound' rest, step_complete sound.made stepped]
    constructor
    · rintro ⟨⟨complete, taken⟩, meets⟩
      exact ⟨complete, .cons taken stepped meets⟩
    · rintro ⟨complete, meets⟩
      exact ⟨⟨complete, meets.1⟩, meets.2 middle stepped⟩

/-- Of distinct requests each is among those taken once exactly if none is missing. -/
theorem eq_iff_count_eq_one {taken requests : List RequestId} (made : taken.Sublist requests)
    (distinct : requests.Nodup) :
    taken = requests ↔ ∀ requestId ∈ requests, taken.count requestId = 1 := by
  constructor
  · rintro rfl requestId member
    exact count_eq_one_of_mem distinct member
  · intro once
    have inside : requests ⊆ taken := fun requestId member =>
      count_pos_iff.mp (by rw [once requestId member]; exact Nat.one_pos)
    exact made.eq_of_length_le (distinct.subperm inside).length_le

/-- Each of a set of distinct requests is answered by exactly one event if and only if each found
pasting enabled and idle; a completed paste reports the number of its keys. -/
theorem requests_answered_iff (enablePaste : Bool) (actions : List InputsAction) :
    ∃ final, run step (opened enablePaste) actions = some final ∧
      (final.requests.Nodup → final.world.channel.pasteState = none →
        (Meets step Taken (opened enablePaste) actions ↔
          ∀ requestId ∈ final.requests, final.answered.count requestId = 1)) ∧
      final.reports.map Prod.fst = final.world.channel.events ∧
      ∀ report ∈ final.reports, ∀ chars elapsed requestId,
        report.1 = .completed chars elapsed requestId → chars = typedKeys report.2 := by
  have start := opened_answered enablePaste
  obtain ⟨final, reached, sound⟩ :=
    run_defined Answered (fun history action sound _ => sound.step action) start
      (.always fun _ _ => trivial : Meets step _ _ actions)
  refine ⟨final, reached, fun distinct idle => ?_, sound.paired, sound.reported⟩
  have taken : final.taken = final.answered := by
    rw [sound.taken, idle]
    exact append_nil _
  rw [← taken, ← eq_iff_count_eq_one sound.made distinct, run_complete start reached]
  exact (and_iff_right rfl).symm

def twoPastes : List InputsAction :=
  [.input 0 (.pasteText ['a'] 0 (some (.int 1)) none), .timer 0, .timer 0,
    .input 0 (.pasteText ['b'] 0 (some (.int 2)) none), .timer 0, .timer 0]

theorem twoPastes_answered :
    ∃ final, run step (opened true) twoPastes = some final ∧ final.requests = [.int 1, .int 2] ∧
      ∀ requestId ∈ final.requests, final.answered.count requestId = 1 := by
  have taken : Meets step Taken (opened true) twoPastes :=
    .cons (fun _ => rfl) rfl (.cons nofun rfl (.cons nofun rfl
      (.cons (fun _ => rfl) rfl (.cons nofun rfl (.cons nofun rfl trivial)))))
  obtain ⟨final, reached, answered, -⟩ := requests_answered_iff true twoPastes
  cases reached
  exact ⟨_, rfl, rfl, (answered (by decide) rfl).mp taken⟩

/-- A text pasted while another one is typed: its request is never answered. -/
theorem overlapping_request_unanswered : ∃ final, run step (opened true)
        [.input 0 (.pasteText ['a'] 0 (some (.int 1)) none), .timer 0,
          .input 0 (.pasteText ['b'] 0 (some (.int 2)) none), .timer 0] = some final ∧
      final.world.channel.pasteState = none ∧ final.requests = [.int 1, .int 2] ∧
      final.answered = [.int 1] :=
  ⟨_, rfl, rfl, rfl, rfl⟩

end PasteHistory

end Ryll
