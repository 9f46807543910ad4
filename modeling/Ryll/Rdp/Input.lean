import Ryll.Channels.Inputs
import Ryll.Display.Mirror
import Ryll.Foundation.Followed
import Ryll.Foundation.Runs

/-!
# Input of an RDP client

The handler turns the keyboard and mouse events of an RDP client into events for the inputs channel
and offers them to the queue of the session, which may refuse any of them.  What the client holds is
recorded, and released when its connection ends.
-/

namespace Ryll

/-! ## The pointer translator -/

def mouseModeServer : UInt32 := 1

/-- The buttons of the server. -/
inductive MouseButton
  | left
  | middle
  | right
  | up
  | down
  deriving DecidableEq

def MouseButton.mask : MouseButton → UInt32
  | left => 1
  | middle => 2
  | right => 4
  | up => 8
  | down => 16

/-- Turns pointer positions into absolute or relative movements. -/
structure PointerTranslator where
  /-- The last position sent or recorded. -/
  lastPos : Option (UInt32 × UInt32)

namespace PointerTranslator

def new : PointerTranslator := ⟨none⟩

variable (translator : PointerTranslator)

def motion (mouseMode x y : UInt32) : PointerTranslator × Option InputEvent :=
  let event : Option InputEvent :=
    if translator.lastPos = some (x, y) then none
    else if mouseMode = mouseModeServer then
      -- The first move has no reference point, and sends nothing.
      translator.lastPos.map fun previous =>
        .mouseMotion (x.toInt32 - previous.1.toInt32) (y.toInt32 - previous.2.toInt32)
    else some (.mouseMove x y)
  (⟨some (x, y)⟩, event)

def button (mouseMode mask : UInt32) (down : Bool) (pos : Option (UInt32 × UInt32)) :
    PointerTranslator × List InputEvent :=
  let place := pos.getD (translator.lastPos.getD (0, 0))
  let (moved, motion) :=
    match pos with
    | some (x, y) =>
      if mouseMode = mouseModeServer then translator.motion mouseMode x y
      else (⟨some (x, y)⟩, none)
    | none => (translator, none)
  let event : InputEvent :=
    if down then .mouseDown mask place.1 place.2 else .mouseUp mask place.1 place.2
  (moved, motion.toList ++ [event])

def wheel (clicks : Int) : List InputEvent :=
  let mask := (if 0 < clicks then MouseButton.up else .down).mask
  let place := translator.lastPos.getD (0, 0)
  (List.range clicks.natAbs).flatMap fun _ =>
    [.mouseDown mask place.1 place.2, .mouseUp mask place.1 place.2]

end PointerTranslator

/-! ## What a client holds -/

/-- A key of the client. -/
structure RdpKey where
  code : UInt8
  extended : Bool
  deriving DecidableEq

def scancodeBase (code : UInt8) (extended : Bool) : UInt32 :=
  if extended then 0xE000 ||| code.toUInt32 else code.toUInt32

def RdpKey.press (key : RdpKey) : UInt32 := makeScancode (scancodeBase key.code key.extended) false

def RdpKey.release (key : RdpKey) : UInt32 := makeScancode (scancodeBase key.code key.extended) true

def insertOrdered (number : UInt32) (numbers : List UInt32) : List UInt32 :=
  if number ∈ numbers then numbers else numbers.orderedInsert (· ≤ ·) number

theorem mem_insertOrdered {number other : UInt32} {numbers : List UInt32} :
    other ∈ insertOrdered number numbers ↔ other = number ∨ other ∈ numbers := by
  unfold insertOrdered
  split
  case isTrue member =>
    constructor
    · exact .inr
    · rintro (rfl | inside)
      · exact member
      · exact inside
  case isFalse => exact List.mem_orderedInsert _

/-- The keys and buttons a client has pressed and not yet released. -/
structure HeldInput where
  keys : List UInt32
  buttons : List UInt32
  /-- Where the pointer is. -/
  pos : Option (UInt32 × UInt32)
  connection : Nat

namespace HeldInput

variable (held : HeldInput)

def key (release : UInt32) (down : Bool) : HeldInput :=
  if down then { held with keys := insertOrdered release held.keys }
  else { held with keys := held.keys.filter (· ≠ release) }

def button (mask : UInt32) (down : Bool) : HeldInput :=
  if down then { held with buttons := insertOrdered mask held.buttons }
  else { held with buttons := held.buttons.filter (· ≠ mask) }

def moved (pos : UInt32 × UInt32) : HeldInput := { held with pos := some pos }

def releases : List InputEvent :=
  let place := held.pos.getD (0, 0)
  held.keys.map .keyUp ++ held.buttons.map fun mask => .mouseUp mask place.1 place.2

def endConnection : HeldInput × List InputEvent :=
  (⟨[], [], none, held.connection + 1⟩, held.releases)

end HeldInput

/-! ## The handler -/

/-- Keyboard events of an RDP client.  A synchronization carries the lock flags. -/
inductive KeyboardEvent
  | pressed (key : RdpKey)
  | released (key : RdpKey)
  | synchronize (flags : UInt8)
  | unicodePressed (code : UInt16)
  | unicodeReleased (code : UInt16)

/-- A mouse event of the client. -/
inductive MouseEvent
  | move (x y : UInt16)
  | leftPressed
  | leftReleased
  | rightPressed
  | rightReleased
  | middlePressed
  | middleReleased
  | button4Pressed
  | button4Released
  | button5Pressed
  | button5Released
  | verticalScroll (value : Int16)
  | scroll (x y : Int32)
  | relMove (x y : Int32)

/-- An event offered to the queue of the session, with its answer. -/
structure Offer where
  event : InputEvent
  /-- The key of the client that a press was made for (history). -/
  key : Option RdpKey
  /-- Whether the queue took it. -/
  accepted : Bool

/-- The number of a session. -/
abbrev SessionId := Nat

/-- The input handler of a connection, with its slot and everything it has offered. -/
structure SpiceInputHandler where
  slot : Option SessionId
  pointer : PointerTranslator
  /-- Wheel units not yet sent as a whole notch. -/
  wheelRemainder : Int
  session : Option SessionId
  connection : Nat
  held : HeldInput
  dropped : Nat
  /-- Everything offered to the queue, oldest first (history). -/
  offers : List Offer

def wheelUnitsPerNotch : Int := 120

def maxWheelClicksPerEvent : Nat := 8

def lockKeys : UInt16 := 7

def saturatingAdd (left right : Int) : Int := max (-2 ^ 31) (min (left + right) (2 ^ 31 - 1))

def offsetWithin (pos : UInt32) (delta : Int32) (extent : UInt32) : UInt32 :=
  let last : Int := extent.toNat - 1
  UInt32.ofNat (max 0 (min (pos.toNat + delta.toInt) (max 0 last))).toNat

namespace SpiceInputHandler

def new : SpiceInputHandler := ⟨none, .new, 0, none, 0, ⟨[], [], none, 0⟩, 0, []⟩

variable (handler : SpiceInputHandler)

/-- The handler for an event of a session; a new one starts with a clean pointer. -/
def current : Option SpiceInputHandler :=
  handler.slot.map fun session =>
    if handler.held.connection ≠ handler.connection ∨ handler.session ≠ some session then
      { handler with
        pointer := .new
        wheelRemainder := 0
        session := some session
        connection := handler.held.connection }
    else
      handler

def countDrop : SpiceInputHandler :=
  { handler with dropped := handler.dropped + 1 }

def send (accepted : Bool) (event : InputEvent) (key : Option RdpKey) : SpiceInputHandler :=
  { handler with
    offers := handler.offers ++ [⟨event, key, accepted⟩]
    dropped := if accepted then handler.dropped else handler.dropped + 1 }

def sendAll (handler : SpiceInputHandler) (answers : Nat → Bool) :
    List InputEvent → SpiceInputHandler × Bool
  | [] => (handler, true)
  | event :: events =>
    let (sent, all) :=
      (handler.send (answers 0) event none).sendAll (fun index => answers (index + 1)) events
    (sent, answers 0 && all)

def button (handler : SpiceInputHandler) (answers : Nat → Bool) (mode : UInt32)
    (button : MouseButton) (down : Bool) : SpiceInputHandler :=
  let (pointer, events) := handler.pointer.button mode button.mask down none
  let placed := { handler with pointer }
  if down then
    -- Recorded whether or not it is queued.
    ({ placed with held := placed.held.button button.mask true }.sendAll answers events).1
  else
    -- Forgotten only once it is queued.
    let (sent, all) := placed.sendAll answers events
    if all then { sent with held := sent.held.button button.mask false } else sent

def wheel (handler : SpiceInputHandler) (answers : Nat → Bool) (units : Int) : SpiceInputHandler :=
  let reversed :=
    (0 < units ∧ handler.wheelRemainder < 0) ∨ (units < 0 ∧ 0 < handler.wheelRemainder)
  let remainder := saturatingAdd (if reversed then 0 else handler.wheelRemainder) units
  let clicks := remainder.tdiv wheelUnitsPerNotch
  if clicks = 0 then
    { handler with wheelRemainder := remainder }
  else
    let (clicks, remainder) :=
      if maxWheelClicksPerEvent < clicks.natAbs then (clicks.sign * maxWheelClicksPerEvent, 0)
      else (clicks, remainder)
    let turned := { handler with wheelRemainder := remainder - clicks * wheelUnitsPerNotch }
    (turned.sendAll answers (turned.pointer.wheel clicks)).1

variable (answers : Nat → Bool)

def move (mode x y : UInt32) : SpiceInputHandler :=
  let (pointer, event) := handler.pointer.motion mode x y
  let moved := { handler with pointer }
  match event with
  | some event => moved.send (answers 0) event none
  | none => moved

variable (mode : UInt32) (mirror : Option SurfaceMirror)

def relMove (dx dy : Int32) : SpiceInputHandler :=
  if mode = mouseModeServer then
    if dx ≠ 0 ∨ dy ≠ 0 then handler.send (answers 0) (.mouseMotion dx dy) none else handler
  else
    match mirror.bind SurfaceMirror.primarySurface with
    | none => handler.countDrop
    | some surface =>
      let width := UInt32.ofNat surface.width
      let height := UInt32.ofNat surface.height
      let pos := handler.pointer.lastPos.getD (width / 2, height / 2)
      handler.move answers mode (offsetWithin pos.1 dx width) (offsetWithin pos.2 dy height)

def keyboard (event : KeyboardEvent) : SpiceInputHandler :=
  match handler.current with
  | none => handler.countDrop
  | some handler =>
    match event with
    | .pressed key =>
      { handler with held := handler.held.key key.release true }.send (answers 0)
        (.keyDown key.press) (some key)
    | .released key =>
      let sent := handler.send (answers 0) (.keyUp key.release) none
      -- Forgotten only once it is queued.
      if answers 0 then { sent with held := sent.held.key key.release false } else sent
    | .synchronize flags =>
      handler.send (answers 0) (.keyModifiers (flags.toUInt16 &&& lockKeys)) none
    | .unicodePressed _ | .unicodeReleased _ => handler

def dispatch : MouseEvent → SpiceInputHandler
  | .move x y => handler.move answers mode x.toUInt32 y.toUInt32
  | .leftPressed => handler.button answers mode .left true
  | .leftReleased => handler.button answers mode .left false
  | .rightPressed => handler.button answers mode .right true
  | .rightReleased => handler.button answers mode .right false
  | .middlePressed => handler.button answers mode .middle true
  | .middleReleased => handler.button answers mode .middle false
  | .button4Pressed | .button4Released | .button5Pressed | .button5Released => handler
  | .verticalScroll value => handler.wheel answers value.toInt
  -- The rotation is in the high half.
  | .scroll _ y => handler.wheel answers (y.toInt >>> 16)
  | .relMove x y => handler.relMove answers mode mirror x y

def mouse (event : MouseEvent) : SpiceInputHandler :=
  match handler.current with
  | none => handler.countDrop
  | some handler =>
    let handled := handler.dispatch answers mode mirror event
    match handled.pointer.lastPos with
    | some pos => { handled with held := handled.held.moved pos }
    | none => handled

def releaseAll (handler : SpiceInputHandler) (answers : Nat → Bool) :
    List InputEvent → SpiceInputHandler
  | [] => handler
  | event :: events =>
    if answers 0 then
      (handler.send true event none).releaseAll (fun index => answers (index + 1)) events
    else
      { handler.send false event none with dropped := handler.dropped + (events.length + 1) }

def releaseHeld (answers : Nat → Bool) : SpiceInputHandler :=
  let (held, releases) := handler.held.endConnection
  { handler with slot := none, held }.releaseAll answers releases

end SpiceInputHandler

/-- What can happen to a connection.  The queue answers each event offered in a step. -/
inductive RdpInputStep
  | authenticated (session : SessionId)
  | keyboard (event : KeyboardEvent) (answers : Nat → Bool)
  | mouse (event : MouseEvent) (mode : UInt32) (mirror : Option SurfaceMirror)
      (answers : Nat → Bool)
  | ended (answers : Nat → Bool)

namespace SpiceInputHandler

def step (handler : SpiceInputHandler) : RdpInputStep → Option SpiceInputHandler
  | .authenticated session =>
    if handler.session.all (· = session) then some { handler with slot := some session } else none
  | .keyboard event answers => some (handler.keyboard answers event)
  | .mouse event mode mirror answers => some (handler.mouse answers mode mirror event)
  | .ended answers => some (handler.releaseHeld answers)

end SpiceInputHandler

end Ryll
