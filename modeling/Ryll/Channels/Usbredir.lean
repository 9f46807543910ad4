import Ryll.Foundation.Outgoing
import Ryll.Foundation.Runs
import Ryll.Usb.Redirection

/-!
# The USB redirection channel

The channel redirects one device at a time.  The application connects and disconnects devices, and
the server's messages are passed on to the device that is attached.  A virtual disk named on the
command line is connected when the server first says hello.
-/

namespace Ryll

/-! ## State -/

/-- A disk named on the command line. -/
structure VirtualDiskConfig where
  path : String
  readOnly : Bool

/-- A device in the list of the channel. -/
structure RedirectedDevice where
  vendorId : UInt16
  productId : UInt16
  deviceClass : UInt8
  bytesToGuest : Nat
  bytesFromGuest : Nat

/-- What the application is told. -/
inductive UsbNotice
  | deviceConnected (description : String)
  | deviceDisconnected
  | connectFailed (reason : String)

/-- The state of the channel, for devices with states `β`. -/
structure UsbredirChannel (β : Type) where
  stream : Outgoing UsbredirSent
  serverCaps : UInt32
  backend : Option β
  redirectedDevices : List RedirectedDevice
  deviceConnectTotal : Nat
  deviceDisconnectTotal : Nat
  autoConnectDisks : List VirtualDiskConfig
  interruptHandles : Bytes
  notices : List UsbNotice

/-- The result of looking for a device. -/
inductive DeviceSearch (β : Type)
  | enumerationFailed (reason : String)
  | notFound
  | openFailed (reason : String)
  | found (backend : β)

/-- A command of the application. -/
inductive UsbCommand (β : Type)
  | connectPhysical (bus address : UInt8) (search : DeviceSearch β)
  | connectVirtualDisk (path : String) (opened : Except String β)
  | disconnectDevice

def saturatingAdd64 (count amount : Nat) : Nat := min (count + amount) (2 ^ 64 - 1)

namespace UsbredirChannel

variable {β : Type} (device : UsbDeviceBackend β)

variable (autoConnectDisks : List VirtualDiskConfig)

def new (room : Option Nat) : UsbredirChannel β where
  stream := .opened room
  serverCaps := 0
  backend := none
  redirectedDevices := []
  deviceConnectTotal := 0
  deviceDisconnectTotal := 0
  autoConnectDisks
  interruptHandles := []
  notices := []

/-! ## Sending -/

def updateLast (update : RedirectedDevice → RedirectedDevice) (channel : UsbredirChannel β) :
    UsbredirChannel β :=
  { channel with
    redirectedDevices := channel.redirectedDevices.modify (channel.redirectedDevices.length - 1)
      update }

variable (channel : UsbredirChannel β)

def recordDeviceBytesToGuest (size : Nat) : UsbredirChannel β :=
  channel.updateLast fun entry =>
    { entry with bytesToGuest := saturatingAdd64 entry.bytesToGuest size }

def recordDeviceBytesFromGuest (size : Nat) : UsbredirChannel β :=
  channel.updateLast fun entry =>
    { entry with bytesFromGuest := saturatingAdd64 entry.bytesFromGuest size }

def sendUsbredir (msgType : RedirType) (id : UInt32) (payload : Bytes) :
    Outcome String (UsbredirChannel β) := do
  let message : UsbredirSent := ⟨msgType, id, payload⟩
  let channel := channel.recordDeviceBytesToGuest message.size
  let stream ← channel.stream.write "stream closed" message
  return { channel with stream }

def emit (notice : UsbNotice) : UsbredirChannel β :=
  { channel with notices := channel.notices ++ [notice] }

def sendHello : Outcome String (UsbredirChannel β) :=
  -- The name padded to 64 bytes, and the three capabilities of this side.
  let version := asciiBytes "ryll usb-redir 0.1"
  channel.sendUsbredir .hello 0
    (version ++ List.replicate (64 - version.length) 0 ++ toLittleEndian 4 0x1A)

def started (room : Option Nat) :
    Outcome String (UsbredirChannel β) :=
  (new autoConnectDisks room).sendHello

/-! ## Attaching and detaching -/

def connectDevice (backend : β) : Outcome String (UsbredirChannel β) := do
  let channel ← channel.sendUsbredir .epInfo 0 (device.endpointInfo backend).write
  let channel ← channel.sendUsbredir .interfaceInfo 0 (device.interfaceInfo backend).write
  let info := device.deviceInfo backend
  let channel ← channel.sendUsbredir .deviceConnect 0 info.write
  let entry : RedirectedDevice := ⟨info.vendorId, info.productId, info.deviceClass, 0, 0⟩
  let attached := { channel with
    redirectedDevices := channel.redirectedDevices ++ [entry]
    deviceConnectTotal := channel.deviceConnectTotal + 1
    backend := some backend }
  return attached.emit (.deviceConnected (device.description backend))

def disconnectDevice : Outcome String (UsbredirChannel β) :=
  if channel.backend.isSome then do
    let channel ← sendUsbredir { channel with interruptHandles := [] } .deviceDisconnect 0 []
    let detached := { channel with
      backend := none
      redirectedDevices := []
      deviceDisconnectTotal := channel.deviceDisconnectTotal + 1 }
    return detached.emit .deviceDisconnected
  else .ok channel

def connectVirtual (path : String) : Except String β → Outcome String (UsbredirChannel β)
  | .ok backend => channel.connectDevice device backend
  | .error reason => .ok (channel.emit (.connectFailed s!"Failed to open {path}: {reason}"))

def connectFound (bus address : UInt8) : DeviceSearch β → Outcome String (UsbredirChannel β)
  | .enumerationFailed reason =>
    .ok (channel.emit (.connectFailed s!"Failed to enumerate USB devices: {reason}"))
  | .notFound =>
    .ok (channel.emit (.connectFailed
      s!"Device not found (bus {bus} addr {address}) — may have been unplugged"))
  | .openFailed reason =>
    .ok (channel.emit (.connectFailed
      s!"Failed to open device (bus {bus} addr {address}): {reason}"))
  | .found backend => channel.connectDevice device backend

def handleUsbCommand : UsbCommand β → Outcome String (UsbredirChannel β)
  | .connectPhysical bus address search => do
    let channel ← channel.disconnectDevice
    channel.connectFound device bus address search
  | .connectVirtualDisk path opened => do
    let channel ← channel.disconnectDevice
    channel.connectVirtual device path opened
  | .disconnectDevice => channel.disconnectDevice

/-! ## Interrupt polling -/

def startInterruptPoll (endpoint : UInt8) : RedirStatus × UsbredirChannel β :=
  if 32 ≤ channel.interruptHandles.length then (.ioerror, channel)
  else if endpoint ∈ channel.interruptHandles then (.success, channel)
  else match channel.backend with
    | none => (.ioerror, channel)
    | some backend =>
      match device.startInterruptIn backend endpoint with
      | (true, backend) => (.success, { channel with
          backend := some backend
          interruptHandles := endpoint :: channel.interruptHandles })
      | (false, backend) => (.ioerror, { channel with backend := some backend })

def stopInterruptPoll (endpoint : UInt8) : UsbredirChannel β :=
  { channel with interruptHandles := channel.interruptHandles.filter (· ≠ endpoint) }

def forwardInterruptData (delivered : InterruptData) : Outcome String (UsbredirChannel β) :=
  let header : InterruptPacketHeader :=
    ⟨delivered.endpoint, delivered.status.code, .ofNat delivered.data.length⟩
  channel.sendUsbredir .interruptPacket 0 (header.write ++ delivered.data)

/-! ## Messages of the server -/

def answer (msgType : RedirType) (id : UInt32) (ask : β → Except String (Bytes × β)) :
    Outcome String (UsbredirChannel β) :=
  match channel.backend with
  | none => .ok channel
  | some backend => do
    let (payload, backend) ← Outcome.ofExcept (ask backend)
    sendUsbredir { channel with backend := some backend } msgType id payload

def controlPacket (header : ControlPacketHeader) (data : Bytes) (backend : β) :
    Except String (Bytes × β) := do
  let setup : EndpointSetup := {
    endpoint := header.endpoint
    requestType := header.requestType
    request := header.request
    value := header.value
    index := header.index
    length := header.length }
  let (result, backend) ← device.controlTransfer backend setup data
  let reply : ControlPacketHeader :=
    { header with status := result.status.code, length := .ofNat result.data.length }
  return (reply.write ++ result.data, backend)

def bulkPacket (header : BulkPacketHeader) (data : Bytes) (backend : β) :
    Except String (Bytes × β) :=
  if header.actualLength > 16 * 1024 * 1024 then
    .ok (BulkPacketHeader.write
      { header with status := RedirStatus.inval.code, length := 0, lengthHigh := 0 }, backend)
  else do
    let (result, backend) ←
      if isEpIn header.endpoint then
        device.bulkIn backend header.endpoint header.actualLength.toNat
      else device.bulkOut backend header.endpoint data
    let length : UInt32 := .ofNat result.data.length
    let reply : BulkPacketHeader := { header with
      status := result.status.code
      length := length.toUInt16
      lengthHigh := (length >>> 16).toUInt16 }
    return (reply.write ++ result.data, backend)

def interruptPacket (header : InterruptPacketHeader) (data : Bytes) (backend : β) :
    Except String (Bytes × β) := do
  let (result, backend) ← device.interruptOut backend header.endpoint data
  return (InterruptPacketHeader.write ⟨header.endpoint, result.status.code, 0⟩, backend)

/-- Connect the first disk. -/
def handleHello (opened : Except String β) (hello : Hello) : Outcome String (UsbredirChannel β) :=
  let disks := channel.autoConnectDisks
  let channel := { channel with serverCaps := hello.capabilities, autoConnectDisks := [] }
  match disks with
  | [] => .ok channel
  | disk :: _ => channel.connectVirtual device disk.path opened

def handleUsbredirMessage (opened : Except String β) (message : UsbredirMessage) :
    Outcome String (UsbredirChannel β) :=
  match message.payload with
  | .hello hello => channel.handleHello device opened hello
  | .setConfiguration configuration =>
    channel.answer .configurationStatus message.id fun backend => do
      let (status, backend) ← device.setConfiguration backend configuration
      return ([status.code, configuration], backend)
  | .getConfiguration =>
    channel.answer .configurationStatus message.id fun backend => do
      let (configuration, backend) ← device.getConfiguration backend
      return ([RedirStatus.success.code, configuration], backend)
  | .setAltSetting interface altSetting =>
    channel.answer .altSettingStatus message.id fun backend => do
      let (status, backend) ← device.setAltSetting backend interface altSetting
      return ([status.code, interface, altSetting], backend)
  | .getAltSetting interface =>
    channel.answer .altSettingStatus message.id fun backend => do
      let (altSetting, backend) ← device.getAltSetting backend interface
      return ([RedirStatus.success.code, interface, altSetting], backend)
  | .reset => .ok { channel with backend := channel.backend.map device.reset }
  | .cancelDataPacket | .filterReject => .ok channel
  | .deviceDisconnectAck => .ok { channel with backend := none }
  | .controlPacket header data =>
    channel.answer .controlPacket message.id (controlPacket device header data)
  | .bulkPacket header data =>
    channel.answer .bulkPacket message.id (bulkPacket device header data)
  | .interruptPacket header data =>
    -- Interrupt data flows to the server only; what comes the other way is ignored.
    if isEpIn header.endpoint then .ok channel
    else channel.answer .interruptPacket message.id (interruptPacket device header data)
  | .startInterruptReceiving endpoint =>
    let (status, channel) := channel.startInterruptPoll device endpoint
    channel.sendUsbredir .interruptReceivingStatus message.id [status.code, endpoint]
  | .stopInterruptReceiving endpoint =>
    (channel.stopInterruptPoll endpoint).sendUsbredir .interruptReceivingStatus message.id
      [RedirStatus.success.code, endpoint]
  | .other => .ok channel

end UsbredirChannel

/-! ## Runs -/

/-- What the channel reacts to. -/
inductive UsbredirEvent (β : Type)
  | data (size : Nat)
  | message (opened : Except String β) (message : UsbredirMessage)
  | command (command : UsbCommand β)
  | interrupt (delivered : InterruptData)

namespace UsbredirChannel

variable {β : Type} (device : UsbDeviceBackend β)

def handle (channel : UsbredirChannel β) : UsbredirEvent β → Outcome String (UsbredirChannel β)
  | .data size => .ok (channel.recordDeviceBytesFromGuest size)
  | .message opened message => channel.handleUsbredirMessage device opened message
  | .command command => channel.handleUsbCommand device command
  | .interrupt delivered => channel.forwardInterruptData delivered

end UsbredirChannel

end Ryll
