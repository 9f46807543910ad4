import Ryll.Protocol.AgentStream

/-!
# Guest agent messages

The layouts of the guest agent messages that the main channel sends and handles: display
configuration, capabilities, and the clipboard.  A clipboard message begins with a selection only
if the peer announced that capability.
-/

namespace Ryll

/-! ## Numbers -/

def vdAgentMonitorsConfig : UInt32 := 2
def vdAgentClipboard : UInt32 := 4
def vdAgentAnnounceCapabilities : UInt32 := 6
def vdAgentClipboardGrab : UInt32 := 7
def vdAgentClipboardRequest : UInt32 := 8
def vdAgentClipboardRelease : UInt32 := 9

def vdAgentConfigMonitorsFlagUsePos : UInt32 := 1
def vdAgentConfigMonitorsFlagPhysicalSize : UInt32 := 2

def vdAgentClipboardNone : UInt32 := 0
def vdAgentClipboardUtf8Text : UInt32 := 1

def vdAgentClipboardSelectionClipboard : UInt8 := 0

def vdAgentCapMouseState : UInt32 := 0
def vdAgentCapMonitorsConfig : UInt32 := 1
def vdAgentCapReply : UInt32 := 2
def vdAgentCapClipboardByDemand : UInt32 := 5
def vdAgentCapClipboardSelection : UInt32 := 6

def agentMessage (messageType : UInt32) (payload : Bytes) : Bytes :=
  (VdAgentMessageHeader.new messageType (UInt32.ofNat payload.length)).write ++ payload

/-! ## Display configuration -/

/-- A monitor. -/
structure MonConfig where
  height : UInt32
  width : UInt32
  depth : UInt32
  x : Int32
  y : Int32

def MonConfig.write (monitor : MonConfig) : Bytes :=
  toLeBytes monitor.height ++ toLeBytes monitor.width ++ toLeBytes monitor.depth ++
    toLeBytes monitor.x ++ toLeBytes monitor.y

/-- Its size in millimetres. -/
structure MonitorMm where
  height : UInt16
  width : UInt16

def MonitorMm.write (size : MonitorMm) : Bytes :=
  toLeBytes size.height ++ toLeBytes size.width

/-- A display configuration. -/
structure MonitorsConfig where
  flags : UInt32
  monitors : List MonConfig
  physicalSizes : List MonitorMm

def MonitorsConfig.hasPhysicalSize (config : MonitorsConfig) : Bool :=
  config.flags &&& vdAgentConfigMonitorsFlagPhysicalSize != 0

def MonitorsConfig.write (config : MonitorsConfig) : Bytes :=
  toLeBytes (UInt32.ofNat config.monitors.length) ++ toLeBytes config.flags ++
    config.monitors.flatMap MonConfig.write ++
    if config.hasPhysicalSize then
      (List.range config.monitors.length).flatMap fun index =>
        (config.physicalSizes[index]?.getD ⟨0, 0⟩).write
    else
      []

/-- Identical 32-bit monitors side by side.  A position past the range of `u32` wraps, as it does in
a release build; with the overflow checks that `Outcome` assumes it would fault. -/
def agentMonitorsConfig (monitors : UInt8) (width height : UInt32) : MonitorsConfig :=
  let active : UInt32 := if monitors = 0 then 1 else monitors.toUInt32
  { flags := if 1 < active then vdAgentConfigMonitorsFlagUsePos else 0
    monitors := (List.range active.toNat).map fun index =>
      { height, width, depth := 32
        x := if 1 < active then (width * UInt32.ofNat index).toInt32 else 0
        y := 0 }
    physicalSizes := [] }

/-! ## Capabilities -/

/-- Announced capabilities: bit `n % 32` of word `n / 32` is capability `n`. -/
structure AnnounceCapabilities where
  /-- Non-zero asks the peer to announce its own. -/
  request : UInt32
  caps : List UInt32

namespace AnnounceCapabilities

variable (announced : AnnounceCapabilities)

def hasCapability (cap : UInt32) : Bool :=
  announced.caps[cap.toNat / 32]?.any fun word => word &&& (1 <<< (cap % 32)) != 0

def setCapability (cap : UInt32) : AnnounceCapabilities :=
  if 32 * 16 ≤ cap then
    announced
  else
    let word := cap.toNat / 32
    let caps := announced.caps ++ List.replicate (word + 1 - announced.caps.length) 0
    { announced with caps := caps.modify word fun bits => bits ||| (1 <<< (cap % 32)) }

def read : Reading AnnounceCapabilities := do
  let request ← readU32
  let count := (← remainingBytes) / 4
  let caps ← readVecU32 count count
  return ⟨request, caps⟩

def write : Bytes :=
  toLeBytes announced.request ++ announced.caps.flatMap toLeBytes

instance : WireType AnnounceCapabilities := ⟨read, write⟩

end AnnounceCapabilities

def clientAgentCapabilities : AnnounceCapabilities :=
  [vdAgentCapMouseState, vdAgentCapMonitorsConfig, vdAgentCapReply, vdAgentCapClipboardByDemand,
    vdAgentCapClipboardSelection].foldl AnnounceCapabilities.setCapability ⟨1, []⟩

example : clientAgentCapabilities = ⟨1, [103]⟩ := rfl

/-! ## The clipboard -/

variable (hasSelection : Bool)

def readSelection : Reading UInt8 := do
  if hasSelection then
    let header ← readBytes 4
    return header.headD 0
  else
    return vdAgentClipboardSelectionClipboard

def writeSelection (selection : UInt8) (hasSelection : Bool) : Bytes :=
  if hasSelection then [selection, 0, 0, 0] else []

/-- The sender owns the clipboard and offers these types. -/
structure ClipboardGrab where
  selection : UInt8
  types : List UInt32

def ClipboardGrab.offers (grab : ClipboardGrab) (clipboardType : UInt32) : Bool :=
  grab.types.contains clipboardType

def ClipboardGrab.readWith : Reading ClipboardGrab := do
  let selection ← readSelection hasSelection
  let count := (← remainingBytes) / 4
  let types ← readVecU32 count count
  return ⟨selection, types⟩

def ClipboardGrab.writeWith (grab : ClipboardGrab) (hasSelection : Bool) : Bytes :=
  writeSelection grab.selection hasSelection ++ grab.types.flatMap toLeBytes

/-- Asks the owner of the clipboard for its data in one type. -/
structure ClipboardRequest where
  selection : UInt8
  clipboardType : UInt32

def ClipboardRequest.readWith : Reading ClipboardRequest := do
  let selection ← readSelection hasSelection
  let clipboardType ← readU32
  return ⟨selection, clipboardType⟩

def ClipboardRequest.writeWith (request : ClipboardRequest) (hasSelection : Bool) : Bytes :=
  writeSelection request.selection hasSelection ++ toLeBytes request.clipboardType

/-- A clipboard message. -/
structure Clipboard where
  selection : UInt8
  clipboardType : UInt32
  data : Bytes

def Clipboard.readWith : Reading Clipboard := do
  let selection ← readSelection hasSelection
  let clipboardType ← readU32
  let data ← readBytes (← remainingBytes)
  return ⟨selection, clipboardType, data⟩

def Clipboard.writeWith (clipboard : Clipboard) (hasSelection : Bool) : Bytes :=
  writeSelection clipboard.selection hasSelection ++ toLeBytes clipboard.clipboardType ++
    clipboard.data

/-- The sender no longer owns the clipboard. -/
structure ClipboardRelease where
  selection : UInt8

def ClipboardRelease.readWith : Reading ClipboardRelease := do
  let selection ← readSelection hasSelection
  return ⟨selection⟩

def decodeWith {α : Type} (readWith : Bool → Reading α) (body : Bytes) (hasSelection : Bool) :
    Outcome LinkError α := do
  let (value, _) ← readWith hasSelection (BoundedReader.new body)
  return value

/-- A guest clipboard message, parsed for the negotiated layout. -/
inductive GuestClipboard
  | grab (grab : ClipboardGrab)
  | data (clipboard : Clipboard)
  | request (request : ClipboardRequest)
  | release (release : ClipboardRelease)

def GuestClipboard.decode (agentType : UInt32) (payload : Bytes) (hasSelection : Bool) :
    Outcome LinkError GuestClipboard :=
  if agentType = vdAgentClipboardGrab then
    return .grab (← decodeWith ClipboardGrab.readWith payload hasSelection)
  else if agentType = vdAgentClipboard then
    return .data (← decodeWith Clipboard.readWith payload hasSelection)
  else if agentType = vdAgentClipboardRequest then
    return .request (← decodeWith ClipboardRequest.readWith payload hasSelection)
  else if agentType = vdAgentClipboardRelease then
    return .release (← decodeWith ClipboardRelease.readWith payload hasSelection)
  else
    .error (.unsupported "non-clipboard agent message type")

def GuestClipboard.selection : GuestClipboard → UInt8
  | .grab message | .data message | .request message | .release message => message.selection

end Ryll
