import Ryll.Usb.VirtualMsc

/-!
# Messages of the USB redirection protocol

The typed payloads that the redirection channel receives, the replies it writes, and the operations
that it asks of a redirected device.
-/

namespace Ryll

/-! ## Constants -/

/-- The types of messages. -/
inductive RedirType
  | hello
  | deviceConnect
  | deviceDisconnect
  | interfaceInfo
  | epInfo
  | configurationStatus
  | altSettingStatus
  | interruptReceivingStatus
  | controlPacket
  | bulkPacket
  | interruptPacket
  deriving DecidableEq

/-- The result of a transfer. -/
inductive RedirStatus
  | success
  | cancelled
  | inval
  | ioerror
  | stall
  | timeout
  | babble
  deriving DecidableEq

def RedirStatus.code : RedirStatus → UInt8
  | .success => 0
  | .cancelled => 1
  | .inval => 2
  | .ioerror => 3
  | .stall => 4
  | .timeout => 5
  | .babble => 6

/-! ## Message structures -/

/-- The first message of a side. -/
structure Hello where
  version : String
  /-- What it can do, one bit each. -/
  capabilities : UInt32
  deriving DecidableEq

/-- What a device is. -/
structure DeviceConnect where
  speed : UInt8
  deviceClass : UInt8
  deviceSubclass : UInt8
  deviceProtocol : UInt8
  vendorId : UInt16
  productId : UInt16
  deviceVersionBcd : UInt16

def DeviceConnect.write (info : DeviceConnect) : Bytes :=
  [info.speed, info.deviceClass, info.deviceSubclass, info.deviceProtocol] ++
    toLittleEndian 2 info.vendorId.toNat ++ toLittleEndian 2 info.productId.toNat ++
    toLittleEndian 2 info.deviceVersionBcd.toNat

/-- The interfaces of a device. -/
structure InterfaceInfo where
  interfaceCount : UInt32
  interface : Vector UInt8 32
  interfaceClass : Vector UInt8 32
  interfaceSubclass : Vector UInt8 32
  interfaceProtocol : Vector UInt8 32

def InterfaceInfo.write (info : InterfaceInfo) : Bytes :=
  toLittleEndian 4 info.interfaceCount.toNat ++ info.interface.toList ++
    info.interfaceClass.toList ++ info.interfaceSubclass.toList ++ info.interfaceProtocol.toList

/-- The endpoints of a device. -/
structure EpInfo where
  epType : Vector UInt8 32
  epInterval : Vector UInt8 32
  epInterface : Vector UInt8 32
  epMaxPacketSize : Vector UInt16 32

def EpInfo.write (info : EpInfo) : Bytes :=
  info.epType.toList ++ info.epInterval.toList ++ info.epInterface.toList ++
    info.epMaxPacketSize.toList.flatMap fun size => toLittleEndian 2 size.toNat

/-- The fields of a control packet. -/
structure ControlPacketHeader where
  endpoint : UInt8
  request : UInt8
  requestType : UInt8
  status : UInt8
  value : UInt16
  index : UInt16
  length : UInt16
  deriving DecidableEq

def ControlPacketHeader.write (header : ControlPacketHeader) : Bytes :=
  [header.endpoint, header.request, header.requestType, header.status] ++
    toLittleEndian 2 header.value.toNat ++ toLittleEndian 2 header.index.toNat ++
    toLittleEndian 2 header.length.toNat

/-- The fields of a bulk packet. -/
structure BulkPacketHeader where
  endpoint : UInt8
  status : UInt8
  length : UInt16
  streamId : UInt32
  lengthHigh : UInt16
  deriving DecidableEq

namespace BulkPacketHeader

def write (header : BulkPacketHeader) : Bytes :=
  [header.endpoint, header.status] ++ toLittleEndian 2 header.length.toNat ++
    toLittleEndian 4 header.streamId.toNat ++ toLittleEndian 2 header.lengthHigh.toNat

def actualLength (header : BulkPacketHeader) : UInt32 :=
  (header.lengthHigh.toUInt32 <<< 16) ||| header.length.toUInt32

end BulkPacketHeader

/-- The fields of an interrupt packet. -/
structure InterruptPacketHeader where
  endpoint : UInt8
  status : UInt8
  length : UInt16
  deriving DecidableEq

def InterruptPacketHeader.write (header : InterruptPacketHeader) : Bytes :=
  [header.endpoint, header.status] ++ toLittleEndian 2 header.length.toNat

/-- The payload of a received message; those that are only logged are `other`. -/
inductive UsbredirPayload
  | hello (hello : Hello)
  | reset
  | setConfiguration (configuration : UInt8)
  | getConfiguration
  | setAltSetting (interface altSetting : UInt8)
  | getAltSetting (interface : UInt8)
  | startInterruptReceiving (endpoint : UInt8)
  | stopInterruptReceiving (endpoint : UInt8)
  | cancelDataPacket
  | filterReject
  | deviceDisconnectAck
  | controlPacket (header : ControlPacketHeader) (data : Bytes)
  | bulkPacket (header : BulkPacketHeader) (data : Bytes)
  | interruptPacket (header : InterruptPacketHeader) (data : Bytes)
  | other
  deriving DecidableEq

/-- A message received. -/
structure UsbredirMessage where
  /-- Repeated in the reply. -/
  id : UInt32
  payload : UsbredirPayload

/-- A message sent. -/
structure UsbredirSent where
  msgType : RedirType
  id : UInt32
  payload : Bytes

def UsbredirSent.size (message : UsbredirSent) : Nat := 12 + message.payload.length

/-! ## Devices -/

def isEpIn (endpoint : UInt8) : Bool := 16 ≤ endpoint

/-- What a device returns. -/
structure DeviceResult where
  status : RedirStatus
  data : Bytes

/-- A control request to a device. -/
structure EndpointSetup extends ControlSetup where
  endpoint : UInt8
  index : UInt16

/-- Data of an interrupt endpoint. -/
structure InterruptData where
  endpoint : UInt8
  data : Bytes
  status : RedirStatus

/-- The operations of a redirected device with states `β`.  Each may fail with a reason. -/
structure UsbDeviceBackend (β : Type) where
  deviceInfo : β → DeviceConnect
  endpointInfo : β → EpInfo
  interfaceInfo : β → InterfaceInfo
  setConfiguration : β → UInt8 → Except String (RedirStatus × β)
  getConfiguration : β → Except String (UInt8 × β)
  setAltSetting : β → UInt8 → UInt8 → Except String (RedirStatus × β)
  getAltSetting : β → UInt8 → Except String (UInt8 × β)
  /-- A failed reset is only logged, so what matters is the device it leaves. -/
  reset : β → β
  controlTransfer : β → EndpointSetup → Bytes → Except String (DeviceResult × β)
  bulkIn : β → UInt8 → Nat → Except String (DeviceResult × β)
  bulkOut : β → UInt8 → Bytes → Except String (DeviceResult × β)
  /-- Whether polling an interrupt endpoint could be started. -/
  startInterruptIn : β → UInt8 → Bool × β
  interruptOut : β → UInt8 → Bytes → Except String (DeviceResult × β)
  description : β → String

def TransferResult.answer (result : TransferResult) : DeviceResult :=
  match result.status with
  | .success => ⟨.success, result.data⟩
  | .stall => ⟨.stall, result.data⟩

def virtualMscBackend (path : String) : UsbDeviceBackend VirtualMsc where
  deviceInfo _ := ⟨3, 0, 0, 0, 0x1d6b, 0x0104, 0x0100⟩
  endpointInfo _ := {
    epType := (Vector.replicate 32 255).set 2 2 |>.set 17 2
    epInterval := .replicate 32 0
    epInterface := .replicate 32 0
    epMaxPacketSize := (Vector.replicate 32 0).set 2 512 |>.set 17 512 }
  interfaceInfo _ := {
    interfaceCount := 1
    interface := .replicate 32 0
    interfaceClass := (Vector.replicate 32 0).set 0 0x08
    interfaceSubclass := (Vector.replicate 32 0).set 0 0x06
    interfaceProtocol := (Vector.replicate 32 0).set 0 0x50 }
  setConfiguration device _ := .ok (.success, device)
  getConfiguration device := .ok (1, device)
  setAltSetting device _ _ := .ok (.success, device)
  getAltSetting device _ := .ok (0, device)
  reset device := device.reset
  controlTransfer device setup _ :=
    .ok ((VirtualMsc.handleControl setup.toControlSetup).answer, device)
  bulkIn device endpoint maxLen :=
    let (result, device) := device.bulkIn endpoint maxLen
    .ok (result.answer, device)
  bulkOut device endpoint data :=
    let (result, device) := device.bulkOut endpoint data .done
    .ok (result.answer, device)
  startInterruptIn device _ := (false, device)
  interruptOut device _ _ := .ok (⟨.stall, []⟩, device)
  description device := "RAW Disk: " ++ path ++ if device.readOnly then " [RO]" else ""

end Ryll
