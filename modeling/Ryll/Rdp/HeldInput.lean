import Ryll.Rdp.Input

/-!
# What an RDP client leaves pressed

The record of held input is compared with the log of what was offered to the queue: a key or button
is recorded exactly as long as its last press has not been followed by a release that the queue
took.  Wheel clicks are not recorded, so the release of one must be taken if its press is.
-/

namespace Ryll

open List Offer

/-! ## Presses and releases in the log -/

/-- A key or a button. -/
inductive Holdable
  | key (release : UInt32)
  | button (mask : UInt32)
  deriving DecidableEq

def Holdable.isWheel (item : Holdable) : Bool :=
  item = .button MouseButton.up.mask || item = .button MouseButton.down.mask

def InputEvent.isTouch : InputEvent → Bool
  | .keyDown _ | .keyUp _ | .mouseDown .. | .mouseUp .. => true
  | _ => false

@[simp] def InputEvent.released : InputEvent → Option Holdable
  | .keyUp release => some (.key release)
  | .mouseUp mask _ _ => some (.button mask)
  | _ => none

namespace Offer

variable (offer : Offer)

def presses : Option Holdable :=
  match offer.event with
  | .keyDown _ => offer.key.map fun key => .key key.release
  | .mouseDown mask _ _ => some (.button mask)
  | _ => none

def releases : Option Holdable :=
  if offer.accepted then offer.event.released else none

/-- A key press in the log tells its key. -/
def Labelled : Prop :=
  ∀ code, offer.event = .keyDown code → ∃ key, offer.key = some key ∧ key.press = code

theorem untouched (idle : offer.event.isTouch = false) :
    offer.presses = none ∧ offer.releases = none ∧ offer.Labelled := by
  obtain ⟨event, key, accepted⟩ := offer
  cases event with
  | keyDown | keyUp | mouseDown | mouseUp => cases idle
  | keyModifiers | mouseMove | mouseMotion | pasteText =>
    exact ⟨rfl, by simp [releases], fun code pressed => nomatch pressed⟩

end Offer

/-- Each press is followed by a release. -/
def Released (item : Holdable) (offers : List Offer) : Prop :=
  Followed (fun offer => offer.presses = some item) (fun offer => offer.releases = some item) offers

/-- What is held after an event, wheel clicks apart. -/
def holdsAfter (holds : Holdable → Prop) (offer : Offer) (item : Holdable) : Prop :=
  (item.isWheel = false ∧ offer.presses = some item) ∨ (offer.releases ≠ some item ∧ holds item)

/-- The item is recorded. -/
def HeldInput.Has (held : HeldInput) : Holdable → Prop
  | .key release => release ∈ held.keys
  | .button mask => mask ∈ held.buttons

variable (held : HeldInput) {item : Holdable}

theorem HeldInput.has_key_press {release : UInt32} :
    (held.key release true).Has item ↔ item = .key release ∨ held.Has item := by
  cases item with
  | key other => simp [key, Has, mem_insertOrdered]
  | button mask => simp [key, Has]

theorem HeldInput.has_key_release {release : UInt32} :
    (held.key release false).Has item ↔ item ≠ .key release ∧ held.Has item := by
  cases item with
  | key other => simp [key, Has, and_comm]
  | button mask => simp [key, Has]

theorem HeldInput.has_button_press {mask : UInt32} :
    (held.button mask true).Has item ↔ item = .button mask ∨ held.Has item := by
  cases item with
  | key release => simp [button, Has]
  | button other => simp [button, Has, mem_insertOrdered]

theorem HeldInput.has_button_release {mask : UInt32} :
    (held.button mask false).Has item ↔ item ≠ .button mask ∧ held.Has item := by
  cases item with
  | key release => simp [button, Has]
  | button other => simp [button, Has, and_comm]

/-- The queue takes the release of every wheel click whose press it takes. -/
def RdpInputStep.ClicksWhole : RdpInputStep → Prop
  | .mouse (.verticalScroll _) _ _ answers | .mouse (.scroll _ _) _ _ answers =>
    ∀ index, answers (2 * index) = true → answers (2 * index + 1) = true
  | _ => True

namespace SpiceInputHandler

variable {handler next last : SpiceInputHandler} {tail tail' : List Offer} {item : Holdable}

/-- The record agrees with the log. -/
structure Tracked (handler : SpiceInputHandler) : Prop where
  /-- Key presses in the log tell their key. -/
  labelled : ∀ offer ∈ handler.offers, offer.Labelled
  /-- What is recorded has been pressed and not released since, and the other way round. -/
  held_iff : ∀ item, handler.held.Has item ↔ item.isWheel = false ∧ ¬ Released item handler.offers

/-- A handler offers some events, and keeps its record in step with them. -/
structure Records (tail : List Offer) (handler next : SpiceInputHandler) : Prop where
  /-- The events are added to the log. -/
  offers : next.offers = handler.offers ++ tail
  /-- Key presses among them tell their key. -/
  labelled : ∀ offer ∈ tail, offer.Labelled
  /-- The record follows them. -/
  held_iff : ∀ item, next.held.Has item ↔ tail.foldl holdsAfter handler.held.Has item

theorem Records.trans (first : Records tail handler next) (second : Records tail' next last) :
    Records (tail ++ tail') handler last where
  offers := by rw [second.offers, first.offers, append_assoc]
  labelled := by
    intro offer member
    rcases mem_append.mp member with early | late
    · exact first.labelled offer early
    · exact second.labelled offer late
  held_iff := by
    intro item
    rw [second.held_iff, foldl_append, funext fun item => propext (first.held_iff item)]

variable {offer : Offer} {x y : UInt32} {answers : Nat → Bool}

theorem released_concat {offers : List Offer} : ¬ Released item (offers ++ [offer]) ↔
      offer.presses = some item ∨ (offer.releases ≠ some item ∧ ¬ Released item offers) := by
  rw [Released, followed_concat, not_and_or, not_not, not_or]
  rfl

theorem foldl_holdsAfter (offers : List Offer) (holds : Holdable → Prop)
    (agrees : ∀ item, holds item ↔ item.isWheel = false ∧ ¬ Released item offers) :
    ∀ item, tail.foldl holdsAfter holds item ↔
      item.isWheel = false ∧ ¬ Released item (offers ++ tail) := by
  induction tail using List.reverseRecOn with
  | nil => simpa using agrees
  | append_singleton tail offer ih =>
    intro item
    rw [foldl_append, ← append_assoc, released_concat]
    simp only [foldl_cons, foldl_nil, holdsAfter, ih item]
    rw [and_or_left, and_left_comm]

theorem Tracked.records (tracked : handler.Tracked) (records : Records tail handler next) :
    next.Tracked where
  labelled := by
    intro offer member
    rw [records.offers] at member
    rcases mem_append.mp member with early | late
    · exact tracked.labelled offer early
    · exact records.labelled offer late
  held_iff := by
    intro item
    rw [records.held_iff, records.offers]
    exact foldl_holdsAfter handler.offers _ tracked.held_iff item

/-! ## What each event offers -/

/-- Events that press and release nothing but the wheel. -/
def Aside (tail : List Offer) : Prop :=
  ∀ offer ∈ tail, ∀ item, offer.presses = some item ∨ offer.releases = some item →
    item.isWheel = true

theorem foldl_holdsAfter_aside (holds : Holdable → Prop) (aside : Aside tail)
    (apart : ∀ item, holds item → item.isWheel = false) :
    ∀ item, tail.foldl holdsAfter holds item ↔ holds item := by
  induction tail using List.reverseRecOn with
  | nil => exact fun item => Iff.rfl
  | append_singleton tail offer ih =>
    intro item
    have earlier := ih (fun offer member => aside offer (mem_append_left _ member)) item
    have touches := aside offer (by simp) item
    rw [foldl_append, foldl_cons, foldl_nil, holdsAfter, earlier]
    constructor
    · rintro (⟨plain, pressed⟩ | ⟨-, holding⟩)
      · rw [touches (.inl pressed)] at plain
        cases plain
      · exact holding
    · intro holding
      refine .inr ⟨fun released => ?_, holding⟩
      have plain := apart item holding
      rw [touches (.inr released)] at plain
      cases plain

theorem Tracked.records_aside (tracked : handler.Tracked) (aside : Aside tail)
    (labelled : ∀ offer ∈ tail, offer.Labelled) (offers : next.offers = handler.offers ++ tail)
    (held : next.held = handler.held) : Records tail handler next where
  offers := offers
  labelled := labelled
  held_iff := by
    intro item
    rw [held, foldl_holdsAfter_aside _ aside fun item holding =>
      ((tracked.held_iff item).mp holding).1]

/-- The presses of the wheel that the queue took are followed by releases that it took. -/
def WheelClosed (offers : List Offer) : Prop :=
  ∀ item, item.isWheel = true → Followed (fun offer => offer.accepted ∧ offer.presses = some item)
    (fun offer => offer.releases = some item) offers

/-- Events after which the wheel is as free as before. -/
def KeepsWheel (tail : List Offer) : Prop :=
  ∀ offers, WheelClosed offers → WheelClosed (offers ++ tail)

theorem keepsWheel_of_plain
    (plain : ∀ offer ∈ tail, ∀ item, offer.presses = some item → item.isWheel = false) :
    KeepsWheel tail := by
  intro offers closed item wheel
  refine (followed_append ?_).mpr (.inr (closed item wheel))
  rintro offer member ⟨-, pressed⟩
  rw [plain offer member item pressed] at wheel
  cases wheel

theorem keepsWheel_nil : KeepsWheel [] := keepsWheel_of_plain (by simp)

theorem KeepsWheel.append (first : KeepsWheel tail) (second : KeepsWheel tail') :
    KeepsWheel (tail ++ tail') := by
  intro offers closed
  rw [← append_assoc]
  exact second _ (first offers closed)

variable {mask : UInt32} {whole : Prop} {event : InputEvent}

theorem keepsWheel_click {pressed released : Bool} (whole : pressed = true → released = true) :
    KeepsWheel [⟨.mouseDown mask x y, none, pressed⟩, ⟨.mouseUp mask x y, none, released⟩] := by
  intro offers closed item wheel
  have split :
      offers ++ [⟨.mouseDown mask x y, none, pressed⟩, ⟨.mouseUp mask x y, none, released⟩] =
      (offers ++ [⟨.mouseDown mask x y, none, pressed⟩]) ++
        [(⟨.mouseUp mask x y, none, released⟩ : Offer)] := by
    simp
  rw [split, followed_concat, followed_concat]
  refine ⟨by simp [presses], ?_⟩
  by_cases taken : pressed = true
  · by_cases same : item = .button mask
    · exact .inl (by simp [releases, whole taken, same])
    · refine .inr ⟨?_, .inr (closed item wheel)⟩
      rintro ⟨-, down⟩
      exact same (Option.some.inj down).symm
  · exact .inr ⟨fun opened => taken opened.1, .inr (closed item wheel)⟩

/-- The log entries for events with the answers of the queue. -/
def offered (answers : Nat → Bool) : List InputEvent → List Offer
  | [] => []
  | event :: events => ⟨event, none, answers 0⟩ :: offered (fun index => answers (index + 1)) events

theorem sendAll_effect (handler : SpiceInputHandler) (answers : Nat → Bool)
    (events : List InputEvent) :
    (handler.sendAll answers events).1.offers = handler.offers ++ offered answers events ∧
      (handler.sendAll answers events).1.held = handler.held := by
  induction events generalizing handler answers with
  | nil => simp [sendAll, offered]
  | cons event events ih =>
    obtain ⟨offers, held⟩ :=
      ih (handler.send (answers 0) event none) fun index => answers (index + 1)
    exact ⟨offers.trans (by simp [send, offered]), held⟩

/-- Wheel clicks as presses and releases. -/
def clickEvents (mask x y : UInt32) (clicks : Nat) : List InputEvent :=
  (List.range clicks).flatMap fun _ => [.mouseDown mask x y, .mouseUp mask x y]

theorem offered_clickEvents (answers : Nat → Bool) (mask x y : UInt32) (clicks : Nat) :
    offered answers (clickEvents mask x y (clicks + 1)) =
      [⟨.mouseDown mask x y, none, answers 0⟩, ⟨.mouseUp mask x y, none, answers 1⟩] ++
        offered (fun index => answers (index + 2)) (clickEvents mask x y clicks) := by
  rw [clickEvents, range_succ_eq_map, flatMap_cons, flatMap_map]
  rfl

theorem aside_clicks (wheel : (Holdable.button mask).isWheel = true)
    (answers : Nat → Bool) (clicks : Nat) : Aside (offered answers (clickEvents mask x y clicks)) ∧
      ∀ offer ∈ offered answers (clickEvents mask x y clicks), offer.Labelled := by
  induction clicks generalizing answers with
  | zero => exact ⟨fun offer member => (not_mem_nil member).elim,
      fun offer member => (not_mem_nil member).elim⟩
  | succ clicks ih =>
    obtain ⟨aside, labelled⟩ := ih fun index => answers (index + 2)
    rw [offered_clickEvents]
    constructor
    · intro offer member item touched
      rcases mem_append.mp member with click | later
      · have same : item = .button mask := by
          rcases mem_pair.mp click with rfl | rfl
          · simp only [presses, releases, InputEvent.released] at touched
            grind
          · simp only [presses, releases, InputEvent.released] at touched
            grind
        rw [same]
        exact wheel
      · exact aside offer later item touched
    · intro offer member
      rcases mem_append.mp member with click | later
      · intro code pressed
        rcases mem_pair.mp click with rfl | rfl <;> cases pressed
      · exact labelled offer later

theorem keepsWheel_clicks
    (whole : ∀ index, answers (2 * index) = true → answers (2 * index + 1) = true) (clicks : Nat) :
    KeepsWheel (offered answers (clickEvents mask x y clicks)) := by
  induction clicks generalizing answers with
  | zero => exact keepsWheel_nil
  | succ clicks ih =>
    rw [offered_clickEvents]
    refine (keepsWheel_click (whole 0)).append (ih fun index => ?_)
    exact whole (index + 1)

/-- The events offered keep the record in step, and free the wheel if clicks are taken whole. -/
def Handles (whole : Prop) (handler next : SpiceInputHandler) : Prop :=
  ∃ tail, Records tail handler next ∧ (whole → KeepsWheel tail)

theorem handles_nothing (offers : next.offers = handler.offers)
    (held : ∀ item, next.held.Has item ↔ handler.held.Has item) : Handles whole handler next :=
  ⟨[], ⟨by simp [offers], by simp, held⟩, fun _ => keepsWheel_nil⟩

theorem Handles.trans (first : Handles whole handler next)
    (second : Handles whole next last) : Handles whole handler last := by
  obtain ⟨tail, records, keeps⟩ := first
  obtain ⟨tail', records', keeps'⟩ := second
  exact ⟨tail ++ tail', records.trans records', fun taken => (keeps taken).append (keeps' taken)⟩

theorem Tracked.send (tracked : handler.Tracked) (whole : Prop)
    (idle : event.isTouch = false) (accepted : Bool) (key : Option RdpKey) :
    Handles whole handler (handler.send accepted event key) := by
  obtain ⟨unpressed, unreleased, labelled⟩ :=
    untouched ⟨event, key, accepted⟩ idle
  refine ⟨[⟨event, key, accepted⟩], tracked.records_aside ?_ (by simpa using labelled) rfl rfl,
    fun _ => ?_⟩
  · simp [Aside, unpressed, unreleased]
  · exact keepsWheel_of_plain (by simp [unpressed])

theorem handles_press (item : Holdable) (pressed : offer.presses = some item)
    (unreleased : offer.releases = none) (plain : item.isWheel = false) (labelled : offer.Labelled)
    (offers : next.offers = handler.offers ++ [offer])
    (held : ∀ other, next.held.Has other ↔ other = item ∨ handler.held.Has other) :
    Handles whole handler next := by
  refine ⟨[offer], ⟨offers, by simpa using labelled, fun other => ?_⟩, fun _ => ?_⟩
  · simp only [held, foldl_cons, foldl_nil, holdsAfter, pressed, unreleased]
    grind
  · apply keepsWheel_of_plain
    simp [pressed, plain]

theorem handles_release (offer : Offer) (unpressed : offer.presses = none)
    (labelled : offer.Labelled) (offers : next.offers = handler.offers ++ [offer])
    (held : ∀ other, next.held.Has other ↔ offer.releases ≠ some other ∧ handler.held.Has other) :
    Handles whole handler next := by
  refine ⟨[offer], ⟨offers, by simpa using labelled, fun other => ?_⟩, fun _ => ?_⟩
  · simp only [held, foldl_cons, foldl_nil, holdsAfter, unpressed]
    grind
  · apply keepsWheel_of_plain
    simp [unpressed]

theorem Tracked.move (tracked : handler.Tracked) (whole : Prop) (answers : Nat → Bool)
    (mode x y : UInt32) : Handles whole handler (handler.move answers mode x y) := by
  have moved : Handles whole handler
      { handler with pointer := (handler.pointer.motion mode x y).1 } :=
    handles_nothing rfl fun item => Iff.rfl
  unfold SpiceInputHandler.move
  dsimp only
  split
  case h_1 event moves =>
    have tracked' : ({ handler with pointer := (handler.pointer.motion mode x y).1 } :
        SpiceInputHandler).Tracked := ⟨tracked.labelled, tracked.held_iff⟩
    refine moved.trans (tracked'.send whole ?_ _ none)
    obtain ⟨-, moves⟩ := Option.ite_none_left_eq_some.mp moves
    split at moves
    · obtain ⟨previous, -, rfl⟩ := Option.map_eq_some_iff.mp moves
      rfl
    · cases moves
      rfl
  case h_2 => exact moved

theorem Tracked.relMove (tracked : handler.Tracked) (whole : Prop) (answers : Nat → Bool)
    (mode : UInt32) (mirror : Option SurfaceMirror) (dx dy : Int32) :
    Handles whole handler (handler.relMove answers mode mirror dx dy) := by
  unfold SpiceInputHandler.relMove
  split
  · split
    · exact tracked.send whole rfl _ none
    · exact handles_nothing rfl fun item => Iff.rfl
  · split
    · exact handles_nothing rfl fun item => Iff.rfl
    · exact tracked.move whole answers mode _ _

theorem button_press (handler : SpiceInputHandler) (whole : Prop) (answers : Nat → Bool)
    (mode : UInt32) {button : MouseButton} (plain : (Holdable.button button.mask).isWheel = false) :
    Handles whole handler (handler.button answers mode button true) := by
  refine handles_press (.button button.mask) rfl ?_ plain ?_ rfl fun other => ?_
  · simp [releases]
  · exact fun code pressed => nomatch pressed
  · exact handler.held.has_button_press

theorem button_release (handler : SpiceInputHandler) (whole : Prop) (answers : Nat → Bool)
    (mode : UInt32) (button : MouseButton) :
    Handles whole handler (handler.button answers mode button false) := by
  let place := handler.pointer.lastPos.getD (0, 0)
  let offer : Offer := ⟨.mouseUp button.mask place.1 place.2, none, answers 0⟩
  refine handles_release offer rfl (fun code pressed => nomatch pressed) ?_ fun other => ?_
  · cases answer : answers 0 <;>
      simp [SpiceInputHandler.button, PointerTranslator.button, sendAll, SpiceInputHandler.send,
        answer, offer, place]
  · cases answer : answers 0 with
    | true =>
      have forgotten : (handler.button answers mode button false).held =
          handler.held.button button.mask false := by
        simp [SpiceInputHandler.button, PointerTranslator.button, sendAll, SpiceInputHandler.send,
          answer]
      rw [forgotten, handler.held.has_button_release]
      simp [releases, offer, answer, eq_comm]
    | false =>
      simp [SpiceInputHandler.button, PointerTranslator.button, sendAll, SpiceInputHandler.send,
        releases, answer, offer]

theorem Tracked.wheel (tracked : handler.Tracked) (answers : Nat → Bool) (units : Int) :
    Handles (∀ index, answers (2 * index) = true → answers (2 * index + 1) = true) handler
      (handler.wheel answers units) := by
  unfold SpiceInputHandler.wheel
  dsimp only
  generalize saturatingAdd _ units = total
  split
  · exact handles_nothing rfl fun item => Iff.rfl
  generalize (if maxWheelClicksPerEvent < _ then _ else _ : Int × Int) = turned
  obtain ⟨clicks, remainder⟩ := turned
  let mask := (if 0 < clicks then MouseButton.up else .down).mask
  have wheel : (Holdable.button mask).isWheel = true := by
    dsimp only [mask]
    split <;> rfl
  obtain ⟨aside, labelled⟩ := aside_clicks wheel answers clicks.natAbs
  obtain ⟨offers, held⟩ := sendAll_effect
    { handler with wheelRemainder := remainder - clicks * wheelUnitsPerNotch } answers
    (handler.pointer.wheel clicks)
  exact ⟨_, tracked.records_aside aside labelled offers held,
    fun whole => keepsWheel_clicks whole clicks.natAbs⟩

theorem current_handles (whole : Prop) (served : handler.current = some next) :
    Handles whole handler next := by
  obtain ⟨session, -, rfl⟩ := Option.map_eq_some_iff.mp served
  refine handles_nothing ?_ fun item => ?_
  · split <;> rfl
  · split <;> exact Iff.rfl

section

variable (tracked : handler.Tracked)
include tracked

theorem Tracked.handles (handles : Handles whole handler next) : next.Tracked := by
  obtain ⟨tail, records, -⟩ := handles
  exact tracked.records records

theorem Tracked.keyboard (whole : Prop) (answers : Nat → Bool)
    (event : KeyboardEvent) : Handles whole handler (handler.keyboard answers event) := by
  unfold SpiceInputHandler.keyboard
  split
  case h_1 => exact handles_nothing rfl fun item => Iff.rfl
  case h_2 current served =>
    have start := current_handles whole served
    have tracked' := tracked.handles start
    refine start.trans ?_
    cases event with
    | pressed key =>
      refine handles_press (.key key.release) rfl ?_ ?_ ?_ rfl fun other => ?_
      · simp [releases]
      · rfl
      · exact fun code pressed => ⟨key, rfl, InputEvent.keyDown.inj pressed⟩
      · exact current.held.has_key_press
    | released key =>
      let offer : Offer := ⟨.keyUp key.release, none, answers 0⟩
      refine handles_release offer rfl (fun code pressed => nomatch pressed) ?_
        fun other => ?_
      · dsimp only
        split <;> rfl
      · dsimp only
        split
        case isTrue taken =>
          rw [HeldInput.has_key_release]
          simp [releases, offer, taken, eq_comm, SpiceInputHandler.send]
        case isFalse refused =>
          simp [releases, offer, refused, SpiceInputHandler.send]
    | synchronize flags => exact tracked'.send whole rfl _ none
    | unicodePressed code | unicodeReleased code => exact handles_nothing rfl fun item => Iff.rfl

theorem Tracked.dispatch (answers : Nat → Bool) (mode : UInt32)
    (mirror : Option SurfaceMirror) (event : MouseEvent) :
    Handles (RdpInputStep.mouse event mode mirror answers).ClicksWhole handler
      (handler.dispatch answers mode mirror event) := by
  cases event with
  | move x y => exact tracked.move _ answers mode _ _
  | leftPressed => exact button_press _ _ answers mode rfl
  | leftReleased => exact button_release _ _ answers mode .left
  | rightPressed => exact button_press _ _ answers mode rfl
  | rightReleased => exact button_release _ _ answers mode .right
  | middlePressed => exact button_press _ _ answers mode rfl
  | middleReleased => exact button_release _ _ answers mode .middle
  | button4Pressed | button4Released | button5Pressed | button5Released =>
    exact handles_nothing rfl fun item => Iff.rfl
  | verticalScroll value => exact tracked.wheel answers value.toInt
  | scroll x y => exact tracked.wheel answers (y.toInt >>> 16)
  | relMove x y => exact tracked.relMove _ answers mode mirror x y

theorem Tracked.mouse (answers : Nat → Bool) (mode : UInt32)
    (mirror : Option SurfaceMirror) (event : MouseEvent) :
    Handles (RdpInputStep.mouse event mode mirror answers).ClicksWhole handler
      (handler.mouse answers mode mirror event) := by
  unfold SpiceInputHandler.mouse
  split
  case h_1 => exact handles_nothing rfl fun item => Iff.rfl
  case h_2 current served =>
    have start := current_handles (RdpInputStep.mouse event mode mirror answers).ClicksWhole served
    refine start.trans (((tracked.handles start).dispatch answers mode mirror event).trans ?_)
    dsimp only
    split
    · refine handles_nothing rfl fun item => ?_
      cases item <;> exact Iff.rfl
    · exact handles_nothing rfl fun item => Iff.rfl

end

/-! ## The end of a connection -/

theorem releaseAll_effect (accepting : ∀ index, answers index = true) (handler : SpiceInputHandler)
    (events : List InputEvent) : (handler.releaseAll answers events).offers =
        handler.offers ++ events.map (fun event => ⟨event, none, true⟩) ∧
      (handler.releaseAll answers events).held = handler.held := by
  induction events generalizing handler answers with
  | nil => simp [releaseAll]
  | cons event events ih =>
    rw [releaseAll, if_pos (accepting 0)]
    obtain ⟨offers, held⟩ :=
      ih (fun index => accepting (index + 1)) (handler.send true event none)
    exact ⟨offers.trans (by simp [SpiceInputHandler.send]), held⟩

def releaseOffers (handler : SpiceInputHandler) : List Offer :=
  handler.held.releases.map fun event => ⟨event, none, true⟩

theorem releaseHeld_effect (accepting : ∀ index, answers index = true)
    (handler : SpiceInputHandler) :
    (handler.releaseHeld answers).offers = handler.offers ++ handler.releaseOffers ∧
      ∀ item, ¬ (handler.releaseHeld answers).held.Has item := by
  obtain ⟨offers, held⟩ := releaseAll_effect accepting
    { handler with slot := none, held := handler.held.endConnection.1 } handler.held.releases
  refine ⟨offers, fun item => ?_⟩
  unfold releaseHeld
  dsimp only [HeldInput.endConnection] at held ⊢
  rw [held]
  cases item <;> exact not_mem_nil

theorem mem_releases {held : HeldInput} :
    (∃ event ∈ held.releases, event.released = some item) ↔ held.Has item := by
  cases item with
  | key release | button mask => simp [HeldInput.releases, HeldInput.Has, or_and_right, exists_or]

theorem releases_released {held : HeldInput} (member : event ∈ held.releases) :
    ∃ item, event.released = some item := by
  rcases mem_append.mp member with key | button
  · obtain ⟨release, -, rfl⟩ := mem_map.mp key
    exact ⟨.key release, rfl⟩
  · obtain ⟨mask, -, rfl⟩ := mem_map.mp button
    exact ⟨.button mask, rfl⟩

theorem releaseOffers_idle (member : offer ∈ handler.releaseOffers) :
    offer.presses = none ∧ offer.Labelled := by
  obtain ⟨event, inside, rfl⟩ := mem_map.mp member
  obtain ⟨item, released⟩ := releases_released inside
  cases event with
  | keyUp | mouseUp => exact ⟨rfl, fun code pressed => nomatch pressed⟩
  | keyDown | keyModifiers | mouseMove | mouseMotion | mouseDown | pasteText => cases released

theorem Tracked.releaseHeld (tracked : handler.Tracked)
    (accepting : ∀ index, answers index = true) : (handler.releaseHeld answers).Tracked ∧
      ∀ item, item.isWheel = false → Released item (handler.releaseHeld answers).offers := by
  obtain ⟨offers, empty⟩ := releaseHeld_effect accepting handler
  have released : ∀ item, item.isWheel = false →
      Released item (handler.releaseHeld answers).offers := by
    intro item plain
    rw [offers, Released, followed_append fun offer member => by simp [releaseOffers_idle member]]
    by_cases holding : handler.held.Has item
    · obtain ⟨event, member, releases⟩ := mem_releases.mpr holding
      exact .inl ⟨⟨event, none, true⟩, mem_map.mpr ⟨event, member, rfl⟩, releases⟩
    · exact .inr (by_contra fun unreleased =>
        holding ((tracked.held_iff item).mpr ⟨plain, unreleased⟩))
  refine ⟨⟨fun offer member => ?_, fun item => ?_⟩, released⟩
  · rw [offers] at member
    rcases mem_append.mp member with early | late
    · exact tracked.labelled offer early
    · exact (releaseOffers_idle late).2
  · exact iff_of_false (empty item) fun held => held.2 (released item held.1)

theorem keepsWheel_releaseOffers (handler : SpiceInputHandler) :
    KeepsWheel handler.releaseOffers := by
  apply keepsWheel_of_plain
  intro offer member item pressed
  rw [(releaseOffers_idle member).1] at pressed
  cases pressed

end SpiceInputHandler

/-- The queue takes every release at the end of a connection. -/
def RdpInputStep.ReleasesTaken : RdpInputStep → Prop
  | .ended answers => ∀ index, answers index = true
  | _ => True

namespace SpiceInputHandler

variable {handler next : SpiceInputHandler} {label : RdpInputStep}

theorem new_tracked : new.Tracked where
  labelled := by simp [new]
  held_iff := by
    intro item
    refine iff_of_false ?_ fun held => held.2 followed_nil
    cases item <;> exact not_mem_nil

theorem Tracked.step (tracked : handler.Tracked) (taken : label.ReleasesTaken)
    (stepped : handler.step label = some next) :
    next.Tracked ∧ (label.ClicksWhole → WheelClosed handler.offers → WheelClosed next.offers) := by
  have conclude {whole : Prop} (handles : Handles whole handler next) :
      next.Tracked ∧ (whole → WheelClosed handler.offers → WheelClosed next.offers) := by
    refine ⟨tracked.handles handles, fun whole closed => ?_⟩
    obtain ⟨tail, records, keeps⟩ := handles
    rw [records.offers]
    exact keeps whole _ closed
  cases label with
  | authenticated session =>
    obtain ⟨-, same⟩ := Option.ite_none_right_eq_some.mp stepped
    cases same
    exact conclude (handles_nothing rfl fun item => Iff.rfl)
  | keyboard event answers =>
    cases stepped
    exact conclude (tracked.keyboard _ answers event)
  | mouse event mode mirror answers =>
    cases stepped
    exact conclude (tracked.mouse answers mode mirror event)
  | ended answers =>
    cases stepped
    refine ⟨(tracked.releaseHeld taken).1, fun _ closed => ?_⟩
    rw [(releaseHeld_effect taken handler).1]
    exact keepsWheel_releaseOffers handler _ closed

def accepted (handler : SpiceInputHandler) : List Offer := handler.offers.filter (·.accepted)

/-- Every press is followed by a release of the same key or button. -/
def NothingPressed (offers : List Offer) : Prop :=
  ∀ before offer after, offers = before ++ offer :: after → (∀ code, offer.event = .keyDown code →
      ∃ key, offer.key = some key ∧ key.press = code ∧
        ∃ later ∈ after, later.event = .keyUp key.release) ∧
    (∀ mask x y, offer.event = .mouseDown mask x y →
      ∃ later ∈ after, ∃ x y, later.event = .mouseUp mask x y)

/-- A release is for something pressed whose release the queue has not taken since. -/
def Outstanding (handler : SpiceInputHandler) (event : InputEvent) : Prop :=
  ∃ item before offer after, event.released = some item ∧
    handler.offers = before ++ offer :: after ∧ offer.presses = some item ∧
    ∀ later ∈ after, later.releases ≠ some item

theorem releases_eq_some {offer : Offer} {item : Holdable} :
    offer.releases = some item ↔ offer.accepted = true ∧ offer.event.released = some item := by
  simp [releases]

theorem nothingPressed_accepted (labelled : ∀ offer ∈ handler.offers, offer.Labelled)
    (released : ∀ item, item.isWheel = false → Released item handler.offers)
    (closed : WheelClosed handler.offers) : NothingPressed handler.accepted := by
  have followed : ∀ item, Followed (fun offer => offer.presses = some item)
      (fun offer => offer.event.released = some item) handler.accepted := by
    intro item
    rw [accepted, followed_filter]
    cases plain : item.isWheel with
    | true => exact (closed item plain).mono (fun offer => id) fun offer => releases_eq_some.mp
    | false =>
      exact (released item plain).mono (fun offer => And.right) fun offer => releases_eq_some.mp
  intro before offer after split
  constructor
  · intro code pressed
    have member : offer ∈ handler.accepted := by simp [split]
    obtain ⟨key, named, press⟩ := labelled offer (mem_filter.mp member).1 code pressed
    obtain ⟨later, inside, up⟩ := followed (.key key.release) before offer after split
      (by simp [presses, pressed, named])
    refine ⟨key, named, press, later, inside, ?_⟩
    cases event : later.event <;> rw [event] at up <;> cases up
    rfl
  · intro mask x y pressed
    obtain ⟨later, inside, up⟩ := followed (.button mask) before offer after split
      (by simp [presses, pressed])
    refine ⟨later, inside, ?_⟩
    cases event : later.event <;> rw [event] at up <;> cases up
    exact ⟨_, _, rfl⟩

/-- Releases at the end of a connection are for what is outstanding, and nothing is left pressed
when the queue takes them, provided it takes wheel clicks whole. -/
theorem nothing_left_pressed {steps : List RdpInputStep} {handler : SpiceInputHandler}
    (taken : Meets step (fun _ label => label.ReleasesTaken) new steps)
    (reached : run step new steps = some handler) :
    (∀ event ∈ handler.held.endConnection.2, handler.Outstanding event) ∧
      (Meets step (fun _ label => label.ClicksWhole) new steps →
        ∀ answers : Nat → Bool, (∀ index, answers index = true) →
          NothingPressed (handler.releaseHeld answers).accepted) := by
  have tracked : handler.Tracked :=
    run_invariant (fun _ _ _ tracked taken stepped => (tracked.step taken stepped).1) new_tracked
      taken reached
  constructor
  · intro event member
    obtain ⟨item, released⟩ := releases_released member
    have held := (tracked.held_iff item).mp (mem_releases.mp ⟨event, member, released⟩)
    obtain ⟨before, offer, after, split, pressed, unreleased⟩ := not_followed_iff.mp held.2
    exact ⟨item, before, offer, after, released, split, pressed, unreleased⟩
  · intro whole answers accepting
    let invariant (state : SpiceInputHandler) := state.Tracked ∧ WheelClosed state.offers
    have closed : invariant handler := by
      refine run_invariant (fun state label state' sound condition stepped => ?_)
        (show invariant new from ⟨new_tracked, fun item _ => followed_nil⟩) (taken.and whole)
        reached
      obtain ⟨tracked', keeps⟩ := sound.1.step condition.1 stepped
      exact ⟨tracked', keeps condition.2 sound.2⟩
    obtain ⟨tracked', released⟩ := tracked.releaseHeld accepting
    refine nothingPressed_accepted tracked'.labelled released ?_
    rw [(releaseHeld_effect accepting handler).1]
    exact keepsWheel_releaseOffers handler _ closed.2

def wheelRun (answers : Nat → Bool) : List RdpInputStep :=
  [.authenticated 1, .keyboard (.pressed ⟨0x1E, false⟩) fun _ => true,
    .mouse (.verticalScroll 120) mouseModeServer none answers]

theorem wheelRun_releases : ∃ handler, run step new (wheelRun fun _ => true) = some handler ∧
      handler.held.endConnection.2 = [.keyUp 0x9E] ∧
      NothingPressed (handler.releaseHeld fun _ => true).accepted := by
  refine ⟨_, rfl, rfl, (@nothing_left_pressed (wheelRun fun _ => true) _ ?_ rfl).2 ?_
    (fun _ => true) fun _ => rfl⟩
  · exact ⟨trivial, fun _ _ => ⟨trivial, fun _ _ => ⟨trivial, fun _ _ => trivial⟩⟩⟩
  · exact ⟨trivial, fun _ _ => ⟨trivial, fun _ _ => ⟨fun _ _ => rfl, fun _ _ => trivial⟩⟩⟩

/-- With room for the press of a wheel click but not for its release, the wheel stays pressed. -/
theorem wheel_left_pressed :
    ∃ handler, run step new (wheelRun fun index => index == 0) = some handler ∧
      (handler.releaseHeld fun _ => true).accepted.map (·.event) =
        [.keyDown 0x1E, .mouseDown 8 0 0, .keyUp 0x9E] ∧
      ¬ NothingPressed (handler.releaseHeld fun _ => true).accepted := by
  refine ⟨_, rfl, rfl, fun nothing => ?_⟩
  obtain ⟨later, member, x, y, up⟩ :=
    (nothing [_] ⟨.mouseDown 8 0 0, none, true⟩ [_] rfl).2 8 0 0 rfl
  obtain rfl := mem_singleton.mp member
  cases up

end SpiceInputHandler

end Ryll
