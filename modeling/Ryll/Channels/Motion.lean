import Ryll.Channels.Inputs
import Ryll.Foundation.Runs

/-!
# The motion window

The server acknowledges every fourth pointer message it receives.  The channel counts the pointer
messages it sends for movements and withholds movements while too many are outstanding.  Events that
wait in the queue together are coalesced before they are handled.
-/

namespace Ryll

open List InputsWorld

/-! ## Coalescing a batch -/

def addI32 (left right : Int32) : Outcome Empty Int32 :=
  if -2 ^ 31 ≤ left.toInt + right.toInt ∧ left.toInt + right.toInt < 2 ^ 31 then .ok (left + right)
  else .fault .overflow

def InputEvent.isMovement : InputEvent → Bool
  | .mouseMove .. | .mouseMotion .. => true
  | _ => false

/-- The events of a batch as they are handled: the last of consecutive positions and the sum of
consecutive movements.  The movement pending is the run read so far. -/
def coalesce : Option InputEvent → List InputEvent → Outcome Empty (List InputEvent)
  | pending, [] => .ok pending.toList
  | some (.mouseMove _ _), .mouseMove x y :: rest => coalesce (some (.mouseMove x y)) rest
  | some (.mouseMotion totalDx totalDy), .mouseMotion dx dy :: rest => do
    let totalDx ← addI32 totalDx dx
    let totalDy ← addI32 totalDy dy
    coalesce (some (.mouseMotion totalDx totalDy)) rest
  | pending, event :: rest => do
    if event.isMovement then
      return pending.toList ++ (← coalesce (some event) rest)
    else
      return pending.toList ++ event :: (← coalesce none rest)

/-! ## The channel and the server -/

def InputsMessage.isPointer : InputsMessage → Bool
  | .mousePosition .. | .mouseMotion .. => true
  | _ => false

def InputsMessage.isButton : InputsMessage → Bool
  | .mousePress .. | .mouseRelease .. => true
  | _ => false

namespace InputsChannel

def pointerSent (channel : InputsChannel) : Nat :=
  channel.sent.countP fun sent => sent.message.isPointer

/-- The number of presses and releases sent, each with a position update of its own. -/
def buttonSent (channel : InputsChannel) : Nat :=
  channel.sent.countP fun sent => sent.message.isButton

end InputsChannel

/-- The channel with the acknowledgements it has received and the events it has taken. -/
structure MotionWorld where
  world : InputsWorld
  acks : Nat
  taken : List InputEvent

/-- What can happen to the channel. -/
inductive MotionAction
  | batch (now : Nat) (events : List InputEvent)
  | timer (now : Nat)
  | cancel (token : Nat)
  | motionAck

namespace MotionWorld

def step (state : MotionWorld) : MotionAction → Option MotionWorld
  | .batch now events =>
    match coalesce none events with
    | .ok handled =>
      (run InputsWorld.step state.world (handled.map (.input now))).map fun world =>
        { state with world, taken := state.taken ++ events }
    | .error reason => reason.elim
    | .fault _ => none
  | .timer now => (state.world.step (.timer now)).map fun world => { state with world }
  | .cancel token => (state.world.step (.cancel token)).map fun world => { state with world }
  | .motionAck =>
    if motionAckBunch * (state.acks + 1) ≤ state.world.channel.pointerSent then
      (state.world.step .motionAck).map fun world => { state with world, acks := state.acks + 1 }
    else none

def opened (enablePaste : Bool) : MotionWorld := ⟨.opened enablePaste, 0, []⟩

def outstanding (state : MotionWorld) : Nat :=
  state.world.channel.pointerSent - motionAckBunch * state.acks

end MotionWorld

/-! ## What a step sends -/

open InputsChannel

namespace InputsChannel

variable {before middle after channel : InputsChannel}

/-- Only messages of the keyboard are sent. -/
def PointerFree (before after : InputsChannel) : Prop :=
  after.motionCount = before.motionCount ∧ ∃ extra, after.sent = before.sent ++ extra ∧
      ∀ new ∈ extra, new.message.isPointer = false ∧ new.message.isButton = false

theorem PointerFree.refl (channel : InputsChannel) : PointerFree channel channel :=
  ⟨rfl, [], (append_nil _).symm, nofun⟩

theorem PointerFree.trans (first : PointerFree before middle) (second : PointerFree middle after) :
    PointerFree before after := by
  obtain ⟨count, extra, sent, free⟩ := first
  obtain ⟨count', extra', sent', free'⟩ := second
  refine ⟨count'.trans count, extra ++ extra', by rw [sent', sent, append_assoc], ?_⟩
  intro new member
  rcases mem_append.mp member with early | late
  · exact free new early
  · exact free' new late

theorem PointerFree.send {origin : Origin} {message : InputsMessage}
    (free : message.isPointer = false ∧ message.isButton = false)
    (sent : after.sent = channel.sent ++ [⟨origin, message⟩])
    (count : after.motionCount = channel.motionCount) : PointerFree channel after :=
  ⟨count, [⟨origin, message⟩], sent, by simpa using free⟩

variable (channel : InputsChannel)

theorem PointerFree.sendIf (needed : Bool) (origin : Origin)
    (message : InputsMessage) (free : message.isPointer = false ∧ message.isButton = false) :
    PointerFree channel (channel.sendIf needed origin message) := by
  unfold InputsChannel.sendIf
  split
  · exact .send free rfl rfl
  · exact .refl channel

theorem PointerFree.foldl {body : InputsChannel → Modifier → InputsChannel}
    (each : ∀ channel modifier, PointerFree channel (body channel modifier))
    (modifiers : List Modifier) (channel : InputsChannel) :
    PointerFree channel (modifiers.foldl body channel) := by
  refine foldlRecOn modifiers body (.refl channel) ?_
  exact fun after free modifier _ => free.trans (each after modifier)

theorem pointerFree_releaseModifier (modifier : Modifier) :
    PointerFree channel (channel.releaseModifier modifier) := by
  unfold releaseModifier
  split
  · exact .send ⟨rfl, rfl⟩ rfl rfl
  · exact .refl channel

theorem pointerFree_restoreModifier (saved : Modifier → Bool) (channel : InputsChannel)
    (modifier : Modifier) : PointerFree channel (restoreModifier saved channel modifier) := by
  unfold restoreModifier
  split
  · exact .send ⟨rfl, rfl⟩ rfl rfl
  · exact .refl channel

end InputsChannel

/-- A message reports the movement of an event. -/
inductive InputEvent.Carries : InputEvent → InputsMessage → Prop
  | position (x y : UInt32) (buttonsState : UInt16) (displayId : UInt8) :
      Carries (.mouseMove x y) (.mousePosition x y buttonsState displayId)
  | motion (dx dy : Int32) (buttonsState : UInt16) :
      Carries (.mouseMotion dx dy) (.mouseMotion dx dy buttonsState)

variable {message : InputsMessage}

theorem InputEvent.Carries.pointer {event : InputEvent} (carried : event.Carries message) :
    message.isPointer = true ∧ message.isButton = false := by
  cases carried <;> exact ⟨rfl, rfl⟩

def InputEvent.isClick : InputEvent → Bool
  | .mouseDown .. | .mouseUp .. => true
  | _ => false

open InputEvent

namespace InputsChannel

variable {before after channel : InputsChannel}

/-- What handling an event does to the pointer messages. -/
inductive Reacts (channel : InputsChannel) (event : InputEvent) : InputsChannel → Prop
  | moved {message : InputsMessage} (carried : event.Carries message)
      (room : channel.motionCount < motionAckBunch * 2) :
      Reacts channel event
        { channel.send .frontend message with motionCount := channel.motionCount + 1 }
  | withheld (movement : event.isMovement = true)
      (full : motionAckBunch * 2 ≤ channel.motionCount) : Reacts channel event channel
  /-- A press or release goes out after a position, which is not counted. -/
  | clicked {after : InputsChannel} {x y : UInt32} {buttonsState : UInt16} {displayId : UInt8}
      {click : InputsMessage} (clicks : event.isClick = true) (button : click.isButton = true)
      (plain : click.isPointer = false)
      (sent : after.sent = channel.sent ++
        [⟨.frontend, .mousePosition x y buttonsState displayId⟩, ⟨.frontend, click⟩])
      (count : after.motionCount = channel.motionCount) : Reacts channel event after
  | aside {after : InputsChannel} (still : event.isMovement = false)
      (unclicked : event.isClick = false) (free : PointerFree channel after) :
      Reacts channel event after

variable {event : InputEvent}

theorem sendMotion_reacts (channel : InputsChannel)
    (movement : event.isMovement = true) (carried : event.Carries message) :
    Reacts channel event (channel.sendMotion message) := by
  unfold sendMotion
  split
  case isTrue room => exact .moved carried room
  case isFalse full => exact .withheld movement (Nat.le_of_not_lt full)

theorem handleInputEvent_reacts {now : Nat}
    (handled : channel.handleInputEvent now event = .ok after) : Reacts channel event after := by
  cases event with
  | keyDown code | keyUp code | keyModifiers modifiers =>
    cases handled
    exact .aside rfl rfl (.send ⟨rfl, rfl⟩ rfl rfl)
  | mouseMove x y =>
    cases handled
    exact sendMotion_reacts channel rfl (.position x y _ _)
  | mouseMotion dx dy =>
    cases handled
    exact sendMotion_reacts channel rfl (.motion dx dy _)
  | mouseDown button x y | mouseUp button x y =>
    cases handled
    exact .clicked rfl rfl rfl (append_assoc _ [_] [_]) rfl
  | pasteText text charDelayMs requestId cancel =>
    refine .aside rfl rfl ?_
    rw [handleInputEvent, pasteText] at handled
    split at handled
    · cases handled
      exact .refl _
    split at handled
    · cases handled
      unfold startPaste
      split
      · exact PointerFree.foldl pointerFree_releaseModifier Modifier.all _
      · exact .refl _
    · cases handled
      exact .refl _
    · cases handled

/-! ## The count of the window -/

theorem counts_append {extra : List Sent} (sent : after.sent = before.sent ++ extra) :
    after.pointerSent = before.pointerSent + extra.countP (fun sent => sent.message.isPointer) ∧
      after.buttonSent = before.buttonSent + extra.countP (fun sent => sent.message.isButton) := by
  simp only [pointerSent, buttonSent, sent, countP_append, and_self]

/-- All pointer messages are counted but for the position updates of presses and releases. -/
def Accounts (before after : InputsChannel) : Prop :=
  before.buttonSent ≤ after.buttonSent ∧
    after.pointerSent + before.motionCount + before.buttonSent =
      before.pointerSent + after.motionCount + after.buttonSent

theorem PointerFree.accounts (free : PointerFree before after) : Accounts before after := by
  obtain ⟨same, extra, sent, free⟩ := free
  obtain ⟨pointers, buttons⟩ := counts_append sent
  have noPointer : extra.countP (fun sent => sent.message.isPointer) = 0 :=
    countP_eq_zero.mpr fun new member => by simp [free new member]
  have noButton : extra.countP (fun sent => sent.message.isButton) = 0 :=
    countP_eq_zero.mpr fun new member => by simp [free new member]
  unfold Accounts
  omega

theorem Reacts.accounts (reacts : Reacts before event after) : Accounts before after := by
  cases reacts with
  | @moved message carried room =>
    have sent : ({ before.send .frontend message with
        motionCount := before.motionCount + 1 } : InputsChannel).sent =
      before.sent ++ [⟨.frontend, message⟩] := rfl
    obtain ⟨pointers, buttons⟩ := counts_append sent
    simp only [countP_singleton, carried.pointer, if_true, Bool.false_eq_true,
      if_false] at pointers buttons
    unfold Accounts
    rw [pointers, buttons]
    dsimp only
    omega
  | withheld movement full => exact ⟨Nat.le_refl _, rfl⟩
  | clicked clicks button plain sent count =>
    obtain ⟨pointers, buttons⟩ := counts_append sent
    simp only [countP_cons, countP_nil, button, plain, (Carries.position _ _ _ _).pointer,
      if_true, Bool.false_eq_true, if_false] at pointers buttons
    unfold Accounts
    omega
  | aside still unclicked free => exact free.accounts

theorem Accounts.reacts {middle : InputsChannel} (accounts : Accounts before middle)
    (reacts : Reacts middle event after) : Accounts before after := by
  have accounts' := reacts.accounts
  unfold Accounts at accounts accounts' ⊢
  omega

/-- The count is between all pointer messages outstanding and those that movements sent. -/
structure Balanced (acks : Nat) (channel : InputsChannel) : Prop where
  counted_le : channel.motionCount + motionAckBunch * acks ≤ channel.pointerSent
  /-- Only position updates of presses and releases go uncounted. -/
  le_counted : channel.pointerSent ≤
    channel.motionCount + motionAckBunch * acks + channel.buttonSent

theorem Balanced.accounts {acks : Nat} (balanced : Balanced acks before)
    (accounts : Accounts before after) : Balanced acks after := by
  obtain ⟨lower, upper⟩ := balanced
  unfold Accounts at accounts
  constructor
  · omega
  · omega

theorem Balanced.acknowledge {acks : Nat} (balanced : Balanced acks channel)
    (due : motionAckBunch * (acks + 1) ≤ channel.pointerSent) :
    Balanced (acks + 1) { channel with motionCount := channel.motionCount - motionAckBunch } := by
  obtain ⟨lower, upper⟩ := balanced
  constructor
  · change channel.motionCount - motionAckBunch + motionAckBunch * (acks + 1) ≤ channel.pointerSent
    rw [Nat.mul_succ] at due ⊢
    omega
  · change channel.pointerSent ≤ channel.motionCount - motionAckBunch +
      motionAckBunch * (acks + 1) + channel.buttonSent
    rw [Nat.mul_succ]
    omega

end InputsChannel

namespace InputsWorld

variable {world next : InputsWorld} {now : Nat}

theorem step_input {event : InputEvent} (stepped : world.step (.input now event) = some next) :
    world.channel.Reacts event next.channel := by
  simp only [step] at stepped
  split at stepped
  case h_1 channel handled =>
    cases stepped
    exact handleInputEvent_reacts handled
  case h_2 reason handled => exact reason.elim
  case h_3 => cases stepped

theorem step_timer (stepped : world.step (.timer now) = some next) :
    world.channel.PointerFree next.channel := by
  simp only [step] at stepped
  split at stepped
  · cases stepped
    unfold advancePaste
    split
    · exact .refl _
    rename_i state _
    split
    · exact .refl _
    split
    · have shifted := PointerFree.sendIf world.channel state.key.shift .paste
        (.keyDown 0x2A) ⟨rfl, rfl⟩
      exact shifted.trans (.send ⟨rfl, rfl⟩ rfl rfl)
    have up : world.channel.PointerFree (world.channel.send .paste (.keyUp state.key.release)) :=
      .send ⟨rfl, rfl⟩ rfl rfl
    have released := up.trans (.sendIf _ state.key.shift .paste (.keyUp 0xAA) ⟨rfl, rfl⟩)
    unfold releaseKey
    split
    · exact released
    · exact released.trans
        (.foldl (pointerFree_restoreModifier state.saved) Modifier.all _)
  · cases stepped
    exact .refl _

theorem run_inputs {holds : InputsChannel → Prop}
    (kept : ∀ before event after, holds before → Reacts before event after →
      holds after) {events : List InputEvent} (initial : holds world.channel)
    (reached : run step world (events.map (.input now)) = some next) : holds next.channel := by
  induction events generalizing world with
  | nil =>
    cases reached
    exact initial
  | cons event events ih =>
    obtain ⟨middle, stepped, rest⟩ := run_cons.mp reached
    exact ih (kept _ event _ initial (step_input stepped)) rest

end InputsWorld

namespace MotionWorld

variable {state next : MotionWorld}

/-- The ways of a step. -/
inductive Steps (state : MotionWorld) : MotionAction → MotionWorld → Prop
  | batch {now : Nat} {events handled : List InputEvent} {world : InputsWorld}
      (coalesced : coalesce none events = .ok handled)
      (reached : run InputsWorld.step state.world (handled.map (.input now)) = some world) :
      Steps state (.batch now events) { state with world, taken := state.taken ++ events }
  | timer {now : Nat} {world : InputsWorld} (stepped : state.world.step (.timer now) = some world) :
      Steps state (.timer now) { state with world }
  | cancel (token : Nat) :
      Steps state (.cancel token) { state with
        world := { state.world with cancelled := token :: state.world.cancelled } }
  | motionAck (due : motionAckBunch * (state.acks + 1) ≤ state.world.channel.pointerSent) :
      Steps state .motionAck { state with
        world := { state.world with channel := { state.world.channel with
          motionCount := state.world.channel.motionCount - motionAckBunch } }
        acks := state.acks + 1 }

variable {action : MotionAction}

theorem steps_of_step (stepped : state.step action = some next) : Steps state action next := by
  cases action with
  | batch now events =>
    simp only [step] at stepped
    split at stepped
    case h_1 handled coalesced =>
      obtain ⟨world, reached, rfl⟩ := Option.map_eq_some_iff.mp stepped
      exact .batch coalesced reached
    case h_2 reason coalesced => exact reason.elim
    case h_3 => cases stepped
  | timer now =>
    obtain ⟨world, moved, rfl⟩ := Option.map_eq_some_iff.mp stepped
    exact .timer moved
  | cancel token =>
    cases stepped
    exact .cancel token
  | motionAck =>
    simp only [step] at stepped
    split at stepped
    case isTrue due =>
      cases stepped
      exact .motionAck due
    case isFalse => cases stepped

/-- A step either accounts for what it sends or takes an acknowledgement off the count. -/
theorem step_accounts (stepped : state.step action = some next) :
    (next.acks = state.acks ∧ state.world.channel.Accounts next.world.channel) ∨
      (motionAckBunch * (state.acks + 1) ≤ state.world.channel.pointerSent ∧
        next.acks = state.acks + 1 ∧ next.world.channel = { state.world.channel with
          motionCount := state.world.channel.motionCount - motionAckBunch }) := by
  have unchanged : state.world.channel.Accounts state.world.channel := ⟨Nat.le_refl _, rfl⟩
  cases steps_of_step stepped with
  | batch coalesced reached =>
    exact .inl ⟨rfl, run_inputs (fun _ _ _ => Accounts.reacts) unchanged reached⟩
  | timer moved => exact .inl ⟨rfl, (step_timer moved).accounts⟩
  | cancel token => exact .inl ⟨rfl, unchanged⟩
  | motionAck due => exact .inr ⟨due, rfl, rfl⟩

theorem balanced_step (balanced : state.world.channel.Balanced state.acks)
    (stepped : state.step action = some next) : next.world.channel.Balanced next.acks := by
  rcases step_accounts stepped with ⟨acks, accounts⟩ | ⟨due, acks, channel⟩
  · rw [acks]
    exact balanced.accounts accounts
  · rw [acks, channel]
    exact balanced.acknowledge due

theorem buttonSent_step (stepped : state.step action = some next) :
    state.world.channel.buttonSent ≤ next.world.channel.buttonSent := by
  rcases step_accounts stepped with ⟨-, accounts⟩ | ⟨-, -, channel⟩
  · exact accounts.1
  · rw [channel]
    exact Nat.le_refl _

end MotionWorld

namespace InputsChannel

/-- A movement is sent. -/
def Forwards (channel : InputsChannel) (now : Nat) (event : InputEvent) : Prop :=
  ∃ after message, channel.handleInputEvent now event = .ok after ∧ event.Carries message ∧
    after.sent = channel.sent ++ [⟨.frontend, message⟩]

theorem forwards_iff (channel : InputsChannel) (now : Nat) {event : InputEvent}
    (movement : event.isMovement = true) :
    channel.Forwards now event ↔ channel.motionCount < motionAckBunch * 2 := by
  have handled : ∃ message, channel.handleInputEvent now event = .ok (channel.sendMotion message) ∧
      event.Carries message := by
    cases event with
    | mouseMove x y => exact ⟨_, rfl, .position x y _ _⟩
    | mouseMotion dx dy => exact ⟨_, rfl, .motion dx dy _⟩
    | keyDown | keyUp | keyModifiers | mouseDown | mouseUp | pasteText => cases movement
  obtain ⟨message, handled, carried⟩ := handled
  constructor
  · rintro ⟨after, message', handled', -, sent⟩
    rw [handled] at handled'
    cases handled'
    by_contra full
    rw [sendMotion, if_neg full] at sent
    simp at sent
  · intro room
    exact ⟨_, message, handled, carried, by rw [sendMotion, if_pos room]; rfl⟩

end InputsChannel

namespace MotionWorld

variable {state next : MotionWorld}

/-- The count is that of the pointer messages outstanding, and decides what is sent. -/
def Exact (state : MotionWorld) : Prop :=
  state.world.channel.motionCount = state.outstanding ∧
    ∀ now event, event.isMovement = true →
      (state.world.channel.Forwards now event ↔ state.outstanding < motionAckBunch * 2)

theorem exact_iff (state : MotionWorld) :
    state.Exact ↔ state.world.channel.motionCount = state.outstanding := by
  refine and_iff_left_of_imp fun same now event movement => ?_
  rw [← same]
  exact state.world.channel.forwards_iff now movement

/-- As long as nothing was clicked, exactly the position updates of clicks go uncounted. -/
theorem outstanding_step (balanced : state.world.channel.Balanced state.acks)
    (unclicked : state.world.channel.buttonSent = 0) (stepped : state.step action = some next) :
    next.outstanding = next.world.channel.motionCount + next.world.channel.buttonSent := by
  have later := balanced_step balanced stepped
  unfold outstanding
  rcases step_accounts stepped with ⟨acks, accounts⟩ | ⟨-, -, channel⟩
  · obtain ⟨lower, upper⟩ := balanced
    unfold Accounts at accounts
    rw [acks]
    omega
  · have same : next.world.channel.buttonSent = 0 := by
      rw [channel]
      exact unclicked
    obtain ⟨lower, upper⟩ := later
    omega

theorem along_exact_iff (balanced : state.world.channel.Balanced state.acks)
    (unclicked : state.world.channel.buttonSent = 0) {actions : List MotionAction}
    {final : MotionWorld} (reached : run step state actions = some final) :
    Along step Exact state actions ↔ final.world.channel.buttonSent = 0 := by
  have here : state.Exact := by
    obtain ⟨lower, upper⟩ := balanced
    rw [exact_iff, outstanding]
    omega
  induction actions generalizing state with
  | nil =>
    cases reached
    exact iff_of_true here unclicked
  | cons action actions ih =>
    obtain ⟨next, stepped, rest⟩ := run_cons.mp reached
    have counted := outstanding_step balanced unclicked stepped
    by_cases clicked : next.world.channel.buttonSent = 0
    · have exactly : next.Exact := next.exact_iff.mpr (by omega)
      have later := ih (balanced_step balanced stepped) clicked rest exactly
      exact ⟨fun along => later.mp (along.2 next stepped), fun none => .cons here stepped
        (later.mpr none)⟩
    -- The first click is not counted, and the clicks sent never become fewer.
    · have grows : 0 < final.world.channel.buttonSent :=
        run_keeps (fun _ _ _ some stepped => Nat.lt_of_lt_of_le some (buttonSent_step stepped))
          (Nat.pos_of_ne_zero clicked) rest
      refine iff_of_false (fun along => ?_) (Nat.ne_of_gt grows)
      have same := next.exact_iff.mp (along.2 next stepped).head
      omega

/-- The count falls short of the pointer messages outstanding by no more than the updates of presses
and releases, and it is exact all along if and only if there are none of those. -/
theorem motion_window {enablePaste : Bool} {actions : List MotionAction} {state : MotionWorld}
    (reached : run step (opened enablePaste) actions = some state) :
    state.world.channel.motionCount ≤ state.outstanding ∧
      state.outstanding ≤ state.world.channel.motionCount + state.world.channel.buttonSent ∧
      (∀ now event, event.isMovement = true → state.outstanding < motionAckBunch * 2 →
        state.world.channel.Forwards now event) ∧
      (Along step Exact (opened enablePaste) actions ↔ state.world.channel.buttonSent = 0) := by
  have start : (opened enablePaste).world.channel.Balanced (opened enablePaste).acks :=
    ⟨Nat.le_refl 0, Nat.le_refl 0⟩
  obtain ⟨lower, upper⟩ : state.world.channel.Balanced state.acks :=
    run_keeps (fun _ _ _ => balanced_step) start reached
  have counted : state.world.channel.motionCount ≤ state.outstanding := by
    unfold outstanding
    omega
  refine ⟨counted, by unfold outstanding; omega, fun now event movement few => ?_,
    along_exact_iff start rfl reached⟩
  exact (state.world.channel.forwards_iff now movement).mpr (Nat.lt_of_le_of_lt counted few)

/-- Three movements, of which the server has acknowledged none. -/
def threeMoves : List MotionAction :=
  [.batch 0 [.mouseMove 1 1], .batch 0 [.mouseMove 2 2], .batch 0 [.mouseMotion 1 0]]

theorem threeMoves_window : ∃ state, run step (opened false) threeMoves = some state ∧
    state.outstanding = 3 ∧ Along step Exact (opened false) threeMoves :=
  ⟨_, rfl, rfl, (@motion_window false threeMoves _ rfl).2.2.2.mpr rfl⟩

/-- Eight presses leave eight messages outstanding and none counted, and a movement is sent. -/
theorem presses_uncounted :
    ∃ state, run step (opened false) [.batch 0 (List.replicate 8 (.mouseDown 1 0 0))] = some state ∧
      state.world.channel.motionCount = 0 ∧ state.outstanding = 8 ∧
      state.world.channel.Forwards 0 (.mouseMove 1 1) :=
  ⟨_, rfl, rfl, rfl, _, _, rfl, .position 1 1 _ _, rfl⟩

end MotionWorld

/-! ## Movement that reaches the server -/

def InputEvent.delta : InputEvent → Int × Int
  | .mouseMotion dx dy => (dx.toInt, dy.toInt)
  | _ => (0, 0)

def InputsMessage.delta : InputsMessage → Int × Int
  | .mouseMotion dx dy _ => (dx.toInt, dy.toInt)
  | _ => (0, 0)

variable (last : Option (UInt32 × UInt32))

def notePointer : InputEvent → Option (UInt32 × UInt32)
  | .mouseMove x y => some (x, y)
  | .mouseMotion .. | .mouseDown .. | .mouseUp .. => none
  | _ => last

def notePosition (sent : Sent) : Option (UInt32 × UInt32) :=
  match sent.message with
  | .mousePosition x y _ _ => some (x, y)
  | _ => last

namespace InputsChannel

def sentDelta (channel : InputsChannel) : Int × Int :=
  (channel.sent.map fun sent => sent.message.delta).sum

def lastPosition (channel : InputsChannel) : Option (UInt32 × UInt32) :=
  channel.sent.foldl notePosition none

end InputsChannel

namespace MotionWorld

def takenDelta (state : MotionWorld) : Int × Int := (state.taken.map InputEvent.delta).sum

def lastMove (state : MotionWorld) : Option (UInt32 × UInt32) := state.taken.foldl notePointer none

end MotionWorld

theorem addI32_eq_ok {left right sum : Int32} : addI32 left right = .ok sum ↔
      (-2 ^ 31 ≤ left.toInt + right.toInt ∧ left.toInt + right.toInt < 2 ^ 31) ∧
        left + right = sum := by
  unfold addI32
  split
  case isTrue range => rw [and_iff_right range, Outcome.ok.injEq]
  case isFalse out => exact ⟨by rintro ⟨⟩, fun both => absurd both.1 out⟩

theorem addI32_ok {left right sum : Int32} (added : addI32 left right = .ok sum) :
    sum.toInt = left.toInt + right.toInt := by
  obtain ⟨range, rfl⟩ := addI32_eq_ok.mp added
  rw [Int32.toInt_add]
  exact Int.bmod_eq_of_le (by omega) (by omega)

theorem coalesce_keeps {pending : Option InputEvent} {events handled : List InputEvent}
    (coalesced : coalesce pending events = .ok handled) (last : Option (UInt32 × UInt32)) :
    (handled.map delta).sum =
        (pending.toList.map delta).sum + (events.map delta).sum ∧
      handled.foldl notePointer last =
        events.foldl notePointer (pending.toList.foldl notePointer last) := by
  fun_induction coalesce pending events generalizing handled last with
  | case1 pending =>
    cases coalesced
    exact ⟨(add_zero _).symm, rfl⟩
  | case2 x y x' y' rest ih =>
    obtain ⟨sum, same⟩ := ih coalesced last
    exact ⟨sum.trans (by simp [delta]), same⟩
  | case3 totalDx totalDy dx dy rest ih =>
    obtain ⟨sumDx, addedDx, coalesced⟩ := bind_eq_ok.mp coalesced
    obtain ⟨sumDy, addedDy, coalesced⟩ := bind_eq_ok.mp coalesced
    obtain ⟨sum, same⟩ := ih sumDx sumDy coalesced last
    refine ⟨sum.trans ?_, same⟩
    simp only [Option.toList_some, map_cons, map_nil, sum_cons, sum_nil,
      add_zero, delta, addI32_ok addedDx, addI32_ok addedDy]
    rw [← add_assoc]
    rfl
  | case4 pending event rest _ _ movement ih =>
    obtain ⟨tail, coalesced', same⟩ := bind_eq_ok.mp coalesced
    cases same
    obtain ⟨sum, same⟩ := ih coalesced' (pending.toList.foldl notePointer last)
    refine ⟨?_, by rw [foldl_append, same]; rfl⟩
    rw [map_append, sum_append, sum]
    simp
  | case5 pending event rest _ _ still ih =>
    obtain ⟨tail, coalesced', same⟩ := bind_eq_ok.mp coalesced
    cases same
    obtain ⟨sum, same⟩ :=
      ih coalesced' (notePointer (pending.toList.foldl notePointer last) event)
    refine ⟨?_, by rw [foldl_append, foldl_cons, same]; rfl⟩
    rw [map_append, sum_append, map_cons, sum_cons, sum]
    simp

theorem InputsMessage.delta_of_plain (plain : message.isPointer = false) : message.delta = 0 := by
  cases message with
  | mouseMotion dx dy buttonsState => cases plain
  | keyDown | keyUp | keyModifiers | mousePosition | mousePress | mouseRelease => rfl

theorem notePosition_of_plain {sent : Sent} (plain : sent.message.isPointer = false)
    (last : Option (UInt32 × UInt32)) : notePosition last sent = last := by
  unfold notePosition
  split
  case h_1 x y buttonsState displayId same =>
    rw [same] at plain
    cases plain
  case h_2 => rfl

namespace InputsChannel

variable {before after : InputsChannel}

/-- What has been sent agrees with a sum of relative movements and a last position. -/
structure Moved (delta : Int × Int) (last : Option (UInt32 × UInt32)) (channel : InputsChannel) :
    Prop where
  delta : channel.sentDelta = delta
  last : ∀ place, last = some place → channel.lastPosition = some place

theorem sentDelta_append {extra : List Sent} (sent : after.sent = before.sent ++ extra) :
    after.sentDelta = before.sentDelta + (extra.map fun sent => sent.message.delta).sum := by
  rw [sentDelta, sent, map_append, sum_append, sentDelta]

theorem lastPosition_append {extra : List Sent} (sent : after.sent = before.sent ++ extra) :
    after.lastPosition = extra.foldl notePosition before.lastPosition := by
  rw [lastPosition, sent, foldl_append, lastPosition]

variable {last : Option (UInt32 × UInt32)}

theorem Moved.free {delta : Int × Int}
    (moved : Moved delta last before) (free : PointerFree before after) :
    Moved delta last after := by
  obtain ⟨-, extra, sent, free⟩ := free
  have still : (extra.map fun sent => sent.message.delta).sum = 0 := by
    apply sum_eq_zero
    intro delta member
    obtain ⟨new, inside, rfl⟩ := mem_map.mp member
    exact InputsMessage.delta_of_plain (free new inside).1
  have kept : ∀ last, extra.foldl notePosition last = last := by
    intro last
    clear sent still
    induction extra with
    | nil => rfl
    | cons new extra ih =>
      rw [foldl_cons, notePosition_of_plain (free new mem_cons_self).1]
      exact ih fun later member => free later (mem_cons_of_mem new member)
  constructor
  · rw [sentDelta_append sent, still, add_zero]
    exact moved.delta
  · intro place same
    rw [lastPosition_append sent, kept]
    exact moved.last place same

theorem Moved.reacts {delta : Int × Int} {event : InputEvent}
    (moved : Moved delta last before) (reacts : Reacts before event after)
    (room : event.isMovement = true → before.motionCount < motionAckBunch * 2) :
    Moved (delta + event.delta) (notePointer last event) after := by
  cases reacts with
  | @moved message carried room =>
    have sent : ({ before.send .frontend message with
        motionCount := before.motionCount + 1 } : InputsChannel).sent =
      before.sent ++ [⟨.frontend, message⟩] := rfl
    constructor
    · rw [sentDelta_append sent, moved.delta]
      cases carried <;> simp [InputEvent.delta, InputsMessage.delta]
    · intro place same
      rw [lastPosition_append sent]
      cases carried with
      | position x y buttonsState displayId => exact same
      | motion dx dy buttonsState => cases same
  | withheld movement full => exact absurd (room movement) (Nat.not_lt.mpr full)
  | clicked clicks button plain sent count =>
    have silent : event.delta = 0 ∧ notePointer last event = none := by
      cases event with
      | mouseDown | mouseUp => exact ⟨rfl, rfl⟩
      | keyDown | keyUp | keyModifiers | mouseMove | mouseMotion | pasteText => cases clicks
    rw [silent.1, silent.2, add_zero]
    refine ⟨?_, fun place same => nomatch same⟩
    rw [sentDelta_append sent, moved.delta]
    simp only [map_cons, map_nil, sum_cons, sum_nil, InputsMessage.delta_of_plain plain, add_zero]
    exact add_zero delta
  | aside still unclicked free =>
    have silent : event.delta = 0 ∧ notePointer last event = last := by
      cases event with
      | mouseMove | mouseMotion => cases still
      | mouseDown | mouseUp => cases unclicked
      | keyDown | keyUp | keyModifiers | pasteText => exact ⟨rfl, rfl⟩
    rw [silent.1, silent.2, add_zero]
    exact moved.free free

end InputsChannel

namespace InputsWorld

/-- A movement finds room in the window. -/
def Roomy (world : InputsWorld) : InputsAction → Prop
  | .input _ event =>
    event.isMovement = true → world.channel.motionCount < motionAckBunch * 2
  | _ => True

theorem run_moved {world next : InputsWorld} {now : Nat} {delta : Int × Int}
    {last : Option (UInt32 × UInt32)} {events : List InputEvent}
    (moved : world.channel.Moved delta last)
    (roomy : Meets step Roomy world (events.map (.input now)))
    (reached : run step world (events.map (.input now)) = some next) :
    next.channel.Moved (delta + (events.map InputEvent.delta).sum)
      (events.foldl notePointer last) := by
  induction events generalizing world delta last with
  | nil =>
    cases reached
    simpa using moved
  | cons event events ih =>
    obtain ⟨middle, stepped, rest⟩ := run_cons.mp reached
    have moved' := moved.reacts (step_input stepped) roomy.1
    simpa [add_assoc] using ih moved' (roomy.2 middle stepped) rest

end InputsWorld

namespace MotionWorld

variable {state next : MotionWorld}

/-- A movement does not meet a full window. -/
def Roomy (state : MotionWorld) : MotionAction → Prop
  | .batch now events => ∀ handled, coalesce none events = .ok handled →
      Meets InputsWorld.step InputsWorld.Roomy state.world (handled.map (.input now))
  | _ => True

/-- Everything the pointer did has been sent. -/
def AllSent (state : MotionWorld) : Prop :=
  state.world.channel.Moved state.takenDelta state.lastMove

theorem allSent_step {action : MotionAction} (sent : state.AllSent) (roomy : state.Roomy action)
    (stepped : state.step action = some next) : next.AllSent := by
  cases steps_of_step stepped with
  | @batch now events handled world coalesced reached =>
    obtain ⟨sum, last⟩ := coalesce_keeps coalesced state.lastMove
    have moved := run_moved sent (roomy handled coalesced) reached
    rw [sum, last] at moved
    simpa [AllSent, takenDelta, lastMove] using moved
  | timer moved => exact sent.free (step_timer moved)
  | cancel token => exact sent
  | motionAck due => exact ⟨sent.delta, sent.last⟩

/-- If no movement meets a full window, all of it is sent, and the last position is that of the last
move. -/
theorem movement_sent {enablePaste : Bool} {actions : List MotionAction} {state : MotionWorld}
    (roomy : Meets step Roomy (opened enablePaste) actions)
    (reached : run step (opened enablePaste) actions = some state) :
    state.world.channel.sentDelta = state.takenDelta ∧
      ∀ place, state.lastMove = some place → state.world.channel.lastPosition = some place := by
  have start : (opened enablePaste).AllSent := ⟨rfl, fun place same => nomatch same⟩
  have sent : state.AllSent :=
    run_invariant (fun _ _ _ => allSent_step) start roomy reached
  exact ⟨sent.delta, sent.last⟩

/-- Two relative movements and two positions, each pair taken from the queue together. -/
def fewMoves : List MotionAction :=
  [.batch 0 [.mouseMotion 3 4, .mouseMotion (-1) 1], .batch 0 [.mouseMove 5 6, .mouseMove 7 8]]

theorem fewMoves_sent : ∃ state, run step (opened false) fewMoves = some state ∧
    state.takenDelta = (2, 5) ∧ state.world.channel.sentDelta = state.takenDelta := by
  refine ⟨_, rfl, rfl, (@movement_sent false fewMoves _ ?_ rfl).1⟩
  refine .cons ?_ rfl (.cons ?_ rfl trivial)
  all_goals
    intro handled coalesced
    cases coalesced
    exact ⟨fun _ => by decide, fun _ _ => trivial⟩

/-- Of nine relative movements in a row and both acknowledgements the last movement is lost. -/
theorem ninth_movement_lost : ∃ state, run step (opened false)
        (List.replicate 9 (.batch 0 [.mouseMotion 1 0]) ++ [.motionAck, .motionAck]) = some state ∧
      state.outstanding = 0 ∧ state.takenDelta = (9, 0) ∧ state.world.channel.sentDelta = (8, 0) :=
  ⟨_, rfl, rfl, rfl, rfl⟩

end MotionWorld

/-! ## What a batch becomes -/

/-- Two movements of one kind. -/
def InputEvent.joins : InputEvent → InputEvent → Bool
  | .mouseMove .., .mouseMove .. | .mouseMotion .., .mouseMotion .. => true
  | _, _ => false

/-- The last position of a run, the exact sums of its relative movements, or an event by itself. -/
def InputEvent.Stands (event : InputEvent) (run : List InputEvent) : Prop :=
  match event with
  | .mouseMove .. => (∀ part ∈ run, event.joins part) ∧ run.getLast? = some event
  | .mouseMotion .. => (∀ part ∈ run, event.joins part) ∧ run ≠ [] ∧
      (run.map InputEvent.delta).sum = event.delta
  | _ => run = [event]

/-- A batch and the events that stand for its maximal runs. -/
inductive Coalesced : List InputEvent → List InputEvent → Prop
  | nil : Coalesced [] []
  | cons {run rest handled : List InputEvent} {event : InputEvent} (stands : event.Stands run)
      (maximal : ∀ next ∈ rest.head?, event.joins next = false) (others : Coalesced rest handled) :
      Coalesced (run ++ rest) (event :: handled)

/-- Both sums fit 32 bits. -/
def InI32 (sum : Int × Int) : Prop :=
  (-2 ^ 31 ≤ sum.1 ∧ sum.1 < 2 ^ 31) ∧ -2 ^ 31 ≤ sum.2 ∧ sum.2 < 2 ^ 31

/-- The sums of relative movements are in range, from the given sum of the run so far on. -/
def SumsFit : Int × Int → List InputEvent → Prop
  | _, [] => True
  | sum, .mouseMotion dx dy :: rest =>
    InI32 (sum + (dx.toInt, dy.toInt)) ∧ SumsFit (sum + (dx.toInt, dy.toInt)) rest
  | _, _ :: rest => SumsFit 0 rest

theorem Coalesced.pending {pending : Option InputEvent} {run events handled : List InputEvent}
    (stands : pending.elim (run = []) fun event => event.isMovement ∧ event.Stands run)
    (maximal : ∀ event ∈ pending, ∀ next ∈ events.head?, event.joins next = false)
    (others : Coalesced events handled) :
    Coalesced (run ++ events) (pending.toList ++ handled) := by
  cases pending with
  | none =>
    obtain rfl : run = [] := stands
    exact others
  | some event => exact .cons stands.2 (maximal event rfl) others

theorem InputEvent.joins_append {event next last : InputEvent} {run : List InputEvent}
    (parts : ∀ part ∈ run, event.joins part) (same : event.joins next) (joined : event.joins last) :
    ∀ part ∈ run ++ [last], next.joins part := by
  intro part listed
  have joined : event.joins part := by
    rcases mem_append.mp listed with old | new
    · exact parts part old
    · rwa [mem_singleton.mp new]
  cases event <;> cases next <;> first
    | (cases same; done)
    | cases part <;> exact joined

theorem sumsFit_movement {pending : Option InputEvent} {event : InputEvent}
    (movement : event.isMovement = true) (apart : ∀ earlier ∈ pending, earlier.joins event = false)
    (rest : List InputEvent) :
    SumsFit (pending.elim 0 delta) (event :: rest) ↔ SumsFit event.delta rest := by
  cases event with
  | mouseMove x y => exact .rfl
  | mouseMotion dx dy =>
    have quiet : pending.elim 0 delta = 0 := by
      rcases pending with _ | earlier
      · rfl
      · cases earlier <;> first | rfl | cases apart _ rfl
    have range : InI32 (dx.toInt, dy.toInt) :=
      ⟨⟨dx.le_toInt, dx.toInt_lt⟩, dy.le_toInt, dy.toInt_lt⟩
    rw [SumsFit, quiet, zero_add]
    exact and_iff_right range
  | keyDown | keyUp | keyModifiers | mouseDown | mouseUp | pasteText => cases movement

theorem joins_eq_false {pending : Option InputEvent} {event : InputEvent}
    (move : ∀ x y x' y', pending = some (.mouseMove x y) → event = .mouseMove x' y' → False)
    (motion : ∀ dx dy dx' dy', pending = some (.mouseMotion dx dy) →
      event = .mouseMotion dx' dy' → False) :
    ∀ earlier ∈ pending, earlier.joins event = false := by
  rintro earlier ⟨⟩
  cases earlier <;> cases event <;> first
    | rfl
    | exact (move _ _ _ _ rfl rfl).elim
    | exact (motion _ _ _ _ rfl rfl).elim

theorem sumsFit_plain {event : InputEvent} (still : ¬ event.isMovement = true) (sum : Int × Int)
    (rest : List InputEvent) : SumsFit sum (event :: rest) ↔ SumsFit 0 rest := by
  cases event <;> first
    | exact absurd rfl still
    | exact .rfl

/-- The additions succeed exactly when the sums are in range. -/
theorem coalesce_returns_iff (pending : Option InputEvent) (events : List InputEvent) :
    (∃ handled, coalesce pending events = .ok handled) ↔ SumsFit (pending.elim 0 delta) events := by
  fun_induction coalesce pending events with
  | case1 pending => exact ⟨fun _ => trivial, fun _ => ⟨_, rfl⟩⟩
  | case2 x y x' y' rest ih => exact ih
  | case3 totalDx totalDy dx dy rest ih =>
    have total {sumDx sumDy : Int32} (addedDx : addI32 totalDx dx = .ok sumDx)
        (addedDy : addI32 totalDy dy = .ok sumDy) :
        delta (.mouseMotion totalDx totalDy) + (dx.toInt, dy.toInt) =
          delta (.mouseMotion sumDx sumDy) := by
      simp only [delta, addI32_ok addedDx, addI32_ok addedDy]
      rfl
    rw [Option.elim_some, SumsFit]
    constructor
    · rintro ⟨handled, returned⟩
      obtain ⟨sumDx, addedDx, returned⟩ := bind_eq_ok.mp returned
      obtain ⟨sumDy, addedDy, returned⟩ := bind_eq_ok.mp returned
      refine ⟨⟨(addI32_eq_ok.mp addedDx).1, (addI32_eq_ok.mp addedDy).1⟩, ?_⟩
      rw [total addedDx addedDy]
      exact (ih _ _).mp ⟨handled, returned⟩
    · rintro ⟨range, fits⟩
      have addedDx := addI32_eq_ok.mpr ⟨range.1, rfl⟩
      have addedDy := addI32_eq_ok.mpr ⟨range.2, rfl⟩
      rw [total addedDx addedDy] at fits
      rw [addedDx, ok_bind, addedDy, ok_bind]
      exact (ih _ _).mpr fits
  | case4 pending event rest move motion movement ih =>
    refine Iff.trans ?_
      (ih.trans (sumsFit_movement movement (joins_eq_false move motion) rest).symm)
    simp [bind_eq_ok]
  | case5 pending event rest _ _ still ih =>
    refine Iff.trans ?_ (ih.trans (sumsFit_plain still _ rest).symm)
    simp [bind_eq_ok]

theorem coalesce_stands {pending : Option InputEvent} {events run handled : List InputEvent}
    (stands : pending.elim (run = []) fun event => event.isMovement ∧ event.Stands run)
    (returned : coalesce pending events = .ok handled) : Coalesced (run ++ events) handled := by
  fun_induction coalesce pending events generalizing run handled with
  | case1 pending =>
    cases returned
    simpa using Coalesced.pending stands (by simp) .nil
  | case2 x y x' y' rest ih =>
    simpa using @ih (run ++ [.mouseMove x' y']) handled
      ⟨rfl, joins_append stands.2.1 rfl rfl, by simp⟩ returned
  | case3 totalDx totalDy dx dy rest ih =>
    obtain ⟨sumDx, addedDx, returned⟩ := bind_eq_ok.mp returned
    obtain ⟨sumDy, addedDy, returned⟩ := bind_eq_ok.mp returned
    simpa using @ih sumDx sumDy (run ++ [.mouseMotion dx dy]) handled
      ⟨rfl, joins_append stands.2.1 rfl rfl, by simp, by
        rw [map_append, sum_append, stands.2.2.2]
        simp [delta, addI32_ok addedDx, addI32_ok addedDy]⟩ returned
  | case4 pending event rest move motion movement ih =>
    obtain ⟨tail, returned', ⟨⟩⟩ := bind_eq_ok.mp returned
    have alone : event.Stands [event] := by cases event <;> simp [Stands, joins]
    refine .pending stands ?_ (@ih [event] tail ⟨movement, alone⟩ returned')
    simpa using joins_eq_false move motion
  | case5 pending event rest _ _ still ih =>
    obtain ⟨tail, returned', ⟨⟩⟩ := bind_eq_ok.mp returned
    have plain : (∀ other : InputEvent, event.joins other = false ∧ other.joins event = false) ∧
        event.Stands [event] := by
      cases event <;> first
        | exact absurd rfl still
        | exact ⟨fun other => by cases other <;> exact ⟨rfl, rfl⟩, rfl⟩
    refine .pending stands (by simpa using fun other _ => (plain.1 other).2) ?_
    exact .cons plain.2 (fun other _ => (plain.1 other).1) (@ih [] tail rfl returned')

/-- A batch is handled as the events that stand for its maximal runs if and only if the sums of
every run of relative movements stay in range. -/
theorem batch_coalesced (events : List InputEvent) :
    (∃ handled, coalesce none events = .ok handled ∧ Coalesced events handled) ↔
      SumsFit 0 events := by
  refine Iff.trans ?_ (coalesce_returns_iff none events)
  exact exists_congr fun handled =>
    and_iff_left_of_imp (@coalesce_stands none events [] handled rfl)

theorem motions_overflow :
    coalesce none [.mouseMotion 2147483647 0, .mouseMotion 1 0] = .fault .overflow := rfl

end Ryll
