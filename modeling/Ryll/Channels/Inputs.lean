import Ryll.Channels.Keyboard

/-!
# The inputs channel

Keyboard and mouse events go to the server as they come.  A pasted text is typed by a machine of
its own: one timer step presses a key, the next one releases it, and events of the user and a
cancellation may come between any two steps.
-/

namespace Ryll

/-- The modifiers that a paste has to mind. -/
inductive Modifier
  | ctrl
  | shift
  | alt
  deriving DecidableEq

namespace Modifier

def press : Modifier → UInt32
  | ctrl => 0x1D
  | shift => 0x2A
  | alt => 0x38

def release : Modifier → UInt32
  | ctrl => 0x9D
  | shift => 0xAA
  | alt => 0xB8

def all : List Modifier := [ctrl, shift, alt]

end Modifier

/-- The id of a control request. -/
inductive RequestId
  | int (value : Int64)
  | str (text : String)
  deriving DecidableEq

/-- What the next timer step of a paste does with the current key. -/
inductive PasteSubStep
  | press
  | release
  deriving DecidableEq

/-- A paste in progress.  Times are in nanoseconds. -/
structure PasteState where
  keys : List PasteKey
  index : Nat
  subStep : PasteSubStep
  halfDelay : Nat
  start : Nat
  nextFire : Nat
  saved : Modifier → Bool
  /-- Echoed when the paste ends. -/
  requestId : Option RequestId
  cancel : Option Nat
  inside : index < keys.length
  /-- The keys come from a translated text. -/
  typed : ∀ key ∈ keys, key.Typed

def PasteState.key (state : PasteState) : PasteKey := state.keys.get ⟨state.index, state.inside⟩

/-- An event of a frontend. -/
inductive InputEvent
  | keyDown (scancode : UInt32)
  | keyUp (scancode : UInt32)
  | keyModifiers (modifiers : UInt16)
  | mouseMove (x y : UInt32)
  | mouseMotion (dx dy : Int32)
  | mouseDown (button x y : UInt32)
  | mouseUp (button x y : UInt32)
  | pasteText (text : List Char) (charDelayMs : UInt32) (requestId : Option RequestId)
      (cancel : Option Nat)

/-- A message to the server. -/
inductive InputsMessage
  | keyDown (scancode : UInt32)
  | keyUp (scancode : UInt32)
  | keyModifiers (modifiers : UInt16)
  | mousePosition (x y : UInt32) (buttonsState : UInt16) (displayId : UInt8)
  | mouseMotion (dx dy : Int32) (buttonsState : UInt16)
  | mousePress (button : UInt8) (buttonsState : UInt16)
  | mouseRelease (button : UInt8) (buttonsState : UInt16)
  deriving DecidableEq

/-- On whose behalf a message is sent. -/
inductive Origin
  | frontend
  | paste
  /-- The modifiers that a paste releases when it starts and presses again when it completes. -/
  | modifier
  deriving DecidableEq

/-- A message that was sent. -/
structure Sent where
  /-- On whose behalf it is sent. -/
  origin : Origin
  message : InputsMessage

/-- How a paste ended. -/
inductive PasteEvent
  | completed (chars elapsedMs : Nat) (requestId : Option RequestId)
  | failed (reason : String) (requestId : Option RequestId)
  deriving DecidableEq

def pasteMaxChars : Nat := 4096

def motionAckBunch : Nat := 4

/-- State of the channel, with everything sent and emitted so far. -/
structure InputsChannel where
  /-- Mask of the pressed mouse buttons. -/
  buttonState : UInt32
  /-- Pointer messages not yet acknowledged, as the throttle counts them. -/
  motionCount : Nat
  enablePaste : Bool
  held : Modifier → Bool
  pasteState : Option PasteState
  sent : List Sent
  events : List PasteEvent

def idForMask (mask : UInt32) : UInt8 :=
  let low := mask &&& 0xFF
  if low = 1 then 1
  else if low = 2 then 2
  else if low = 4 then 3
  else if low = 8 then 4
  else if low = 16 then 5
  else 0

def hexDigits (value : Nat) : String :=
  let digits := (Nat.toDigits 16 value).map Char.toUpper
  String.ofList (List.replicate (4 - digits.length) '0' ++ digits)

def PasteError.reason (error : PasteError) : String :=
  let codes := ", ".intercalate (error.sample.map fun c => "U+" ++ hexDigits c.toNat)
  s!"cannot paste: {error.count} unrepresentable character(s): {codes}"

namespace InputsChannel

variable (channel : InputsChannel)

def send (origin : Origin) (message : InputsMessage) : InputsChannel :=
  { channel with sent := channel.sent ++ [⟨origin, message⟩] }

def sendIf (needed : Bool) (origin : Origin) (message : InputsMessage) : InputsChannel :=
  if needed then channel.send origin message else channel

def releaseModifier (modifier : Modifier) : InputsChannel :=
  if channel.held modifier then
    { channel.send .modifier (.keyUp modifier.release) with
      held := Function.update channel.held modifier false }
  else
    channel

def restoreModifier (saved : Modifier → Bool) (channel : InputsChannel) (modifier : Modifier) :
    InputsChannel :=
  if saved modifier then
    { channel.send .modifier (.keyDown modifier.press) with
      held := Function.update channel.held modifier true }
  else
    channel

variable (now : Nat)

def startPaste (keys : List PasteKey) (typed : ∀ key ∈ keys, key.Typed)
    (charDelayMs : UInt32) (requestId : Option RequestId) (cancel : Option Nat) : InputsChannel :=
  if some : 0 < keys.length then
    { Modifier.all.foldl releaseModifier channel with
      pasteState := Option.some {
        keys
        index := 0
        subStep := .press
        halfDelay := charDelayMs.toNat * 1000000 / 2
        start := now
        nextFire := now
        saved := channel.held
        requestId
        cancel
        inside := some
        typed } }
  else
    { channel with events := channel.events ++ [.completed 0 0 requestId] }

def pasteText (text : List Char) (charDelayMs : UInt32) (requestId : Option RequestId)
    (cancel : Option Nat) : Outcome Empty InputsChannel :=
  if !channel.enablePaste || channel.pasteState.isSome then
    .ok channel
  else
    match translated : translatePaste (text.take pasteMaxChars) with
    | .ok keys =>
      have typed : ∀ key ∈ keys, key.Typed := by
        have ensured := translatePaste_ensures (text.take pasteMaxChars)
        rwa [translated] at ensured
      .ok (channel.startPaste now keys typed charDelayMs requestId cancel)
    | .error error =>
      .ok { channel with events := channel.events ++ [.failed error.reason requestId] }
    | .fault cause => .fault cause

def sendMotion (message : InputsMessage) : InputsChannel :=
  if channel.motionCount < motionAckBunch * 2 then
    { channel.send .frontend message with motionCount := channel.motionCount + 1 }
  else
    channel

/-- Send what an event asks for. -/
def handleInputEvent : InputEvent → Outcome Empty InputsChannel
  | .keyDown scancode =>
    .ok { channel.send .frontend (.keyDown scancode) with
      held := fun modifier => scancode = modifier.press || channel.held modifier }
  | .keyUp scancode =>
    .ok { channel.send .frontend (.keyUp scancode) with
      held := fun modifier => !(scancode = modifier.release) && channel.held modifier }
  | .keyModifiers modifiers => .ok (channel.send .frontend (.keyModifiers modifiers))
  | .mouseMove x y =>
    .ok (channel.sendMotion (.mousePosition x y channel.buttonState.toUInt16 0))
  | .mouseMotion dx dy => .ok (channel.sendMotion (.mouseMotion dx dy channel.buttonState.toUInt16))
  | .mouseDown button x y =>
    -- The position goes out with the old buttons, the press with the new ones.
    let positioned := channel.send .frontend
      (.mousePosition x y channel.buttonState.toUInt16 0)
    let buttonState := channel.buttonState ||| button
    .ok { positioned.send .frontend (.mousePress (idForMask button) buttonState.toUInt16) with
      buttonState }
  | .mouseUp button x y =>
    -- Both messages carry the buttons that remain.
    let buttonState := channel.buttonState &&& ~~~button
    let positioned := channel.send .frontend (.mousePosition x y buttonState.toUInt16 0)
    .ok { positioned.send .frontend (.mouseRelease (idForMask button) buttonState.toUInt16) with
      buttonState }
  | .pasteText text charDelayMs requestId cancel =>
    channel.pasteText now text charDelayMs requestId cancel

variable (state : PasteState)

def pressKey : InputsChannel :=
  { (channel.sendIf state.key.shift .paste (.keyDown 0x2A)).send .paste
      (.keyDown state.key.press) with
    pasteState := some { state with subStep := .release, nextFire := now + state.halfDelay } }

def completePaste : InputsChannel :=
  let restored :=
    Modifier.all.foldl (restoreModifier state.saved) { channel with pasteState := none }
  { restored with
    events := restored.events ++
      [.completed state.keys.length ((now - state.start) / 1000000) state.requestId] }

def releaseKey : InputsChannel :=
  let released := (channel.send .paste (.keyUp state.key.release)).sendIf state.key.shift .paste
    (.keyUp 0xAA)
  if more : state.index + 1 < state.keys.length then
    { released with
      pasteState := some { state with
        index := state.index + 1
        subStep := .press
        nextFire := now + state.halfDelay
        inside := more } }
  else
    released.completePaste now state

def cancelPaste : InputsChannel :=
  { channel with
    pasteState := none
    events := channel.events ++ [.failed "paste cancelled (client disconnected)" state.requestId] }

def advancePaste (isCancelled : Nat → Bool) : InputsChannel :=
  match channel.pasteState with
  | none => channel
  | some state =>
    if state.cancel.any isCancelled then
      channel.cancelPaste state
    else
      match state.subStep with
      | .press => channel.pressKey now state
      | .release => channel.releaseKey now state

def opened (enablePaste : Bool) : InputsChannel where
  buttonState := 0
  motionCount := 0
  enablePaste
  held := fun _ => false
  pasteState := none
  sent := [⟨.frontend, .keyModifiers 2⟩]
  events := []

end InputsChannel

/-! ## The channel and its environment -/

/-- The channel, the cancelled tokens and the events received so far. -/
structure InputsWorld where
  channel : InputsChannel
  cancelled : List Nat
  received : List InputEvent

/-- What can happen to the channel. -/
inductive InputsAction
  | input (now : Nat) (event : InputEvent)
  | timer (now : Nat)
  | cancel (token : Nat)
  | motionAck

namespace InputsWorld

def due (world : InputsWorld) (now : Nat) : Bool :=
  world.channel.pasteState.any fun state => state.nextFire ≤ now

def step (world : InputsWorld) : InputsAction → Option InputsWorld
  | .input now event =>
    match world.channel.handleInputEvent now event with
    | .ok channel => some { world with channel, received := world.received ++ [event] }
    | .error reason => reason.elim
    | .fault _ => none
  | .timer now =>
    if world.due now then
      some { world with channel :=
        world.channel.advancePaste now fun token => world.cancelled.contains token }
    else
      some world
  | .cancel token => some { world with cancelled := token :: world.cancelled }
  | .motionAck => some { world with channel := { world.channel with
      motionCount := world.channel.motionCount - motionAckBunch } }

def opened (enablePaste : Bool) : InputsWorld := ⟨InputsChannel.opened enablePaste, [], []⟩

end InputsWorld

end Ryll
