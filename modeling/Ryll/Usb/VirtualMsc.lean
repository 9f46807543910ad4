import Ryll.Foundation.Bytes

/-!
# The virtual mass storage device

A USB disk backed by a raw image.  Commands arrive in wrappers on the bulk OUT endpoint, data
follows in either direction, and the host then collects a status wrapper on the bulk IN endpoint.
The state of this exchange is kept between requests.
-/

namespace Ryll

/-! ## Constants -/

def blockSize : Nat := 512
def epBulkOut : UInt8 := 2
def epBulkIn : UInt8 := 17

def cbwSignature : Nat := 0x43425355
def cswSignature : Nat := 0x53425355
def cbwSize : Nat := 31
def cswStatusPassed : UInt8 := 0
def cswStatusFailed : UInt8 := 1

def maxTransferBlocks : Nat := 2048

def scsiTestUnitReady : UInt8 := 0x00
def scsiRequestSense : UInt8 := 0x03
def scsiInquiry : UInt8 := 0x12
def scsiModeSense6 : UInt8 := 0x1A
def scsiPreventAllowMediumRemoval : UInt8 := 0x1E
def scsiReadCapacity10 : UInt8 := 0x25
def scsiRead10 : UInt8 := 0x28
def scsiWrite10 : UInt8 := 0x2A

def senseNoSense : UInt8 := 0x00
def senseMediumError : UInt8 := 0x03
def senseIllegalRequest : UInt8 := 0x05
def senseDataProtect : UInt8 := 0x07

def usbReqGetStatus : UInt8 := 0x00
def usbReqSetConfiguration : UInt8 := 0x09
def usbReqGetDescriptor : UInt8 := 0x06
def mscReqGetMaxLun : UInt8 := 0xFE
def mscReqBulkOnlyReset : UInt8 := 0xFF

def deviceDescriptor : Bytes :=
  [18, 0x01, 0x00, 0x02, 0x00, 0x00, 0x00, 64, 0x6b, 0x1d, 0x04, 0x01, 0x00, 0x01, 0x01, 0x02, 0x03,
    0x01]

def configDescriptor : Bytes :=
  [9, 0x02, 32, 0, 1, 1, 0, 0xC0, 0, 9, 0x04, 0, 0, 2, 0x08, 0x06, 0x50, 0,
    7, 0x05, 0x02, 0x02, 0x00, 0x02, 0,
    7, 0x05, 0x81, 0x02, 0x00, 0x02, 0]

/-! ## Wrappers and results -/

/-- Whether a request was taken. -/
inductive TransferStatus
  | success
  | stall
  deriving DecidableEq

/-- The answer to a request. -/
structure TransferResult where
  status : TransferStatus
  data : Bytes
  deriving DecidableEq

namespace TransferResult

def success (data : Bytes) : TransferResult := ⟨.success, data⟩

def successEmpty : TransferResult := ⟨.success, []⟩

def stall : TransferResult := ⟨.stall, []⟩

end TransferResult

/-- A control request. -/
structure ControlSetup where
  requestType : UInt8
  request : UInt8
  /-- Its argument. -/
  value : UInt16
  length : UInt16

/-- Where the exchange stands. -/
inductive BotState
  | idle
  | dataOut (tag : UInt32) (lba remaining : Nat)
  | dataIn
  | status
  deriving DecidableEq

def BotState.isDataOut : BotState → Bool
  | .dataOut _ _ _ => true
  | _ => false

/-- A command wrapper. -/
structure Cbw where
  tag : UInt32
  /-- The number of bytes that the host will move. -/
  dataTransferLength : UInt32
  /-- The data goes to the host. -/
  directionIn : Bool
  lun : UInt8
  cbLength : UInt8
  cb : Vector UInt8 16
  deriving DecidableEq

namespace Cbw

def parse (data : Bytes) : Option Cbw :=
  if data.length < cbwSize then none
  else if littleEndian (data.take 4) ≠ cbwSignature then none
  else some {
    tag := .ofNat (littleEndian ((data.drop 4).take 4))
    dataTransferLength := .ofNat (littleEndian ((data.drop 8).take 4))
    directionIn := data.getD 12 0 &&& 0x80 ≠ 0
    lun := data.getD 13 0 &&& 0x0F
    cbLength := data.getD 14 0 &&& 0x1F
    cb := .ofFn fun index => data.getD (15 + index) 0 }

def lba (cbw : Cbw) : Nat := bigEndian [cbw.cb[2], cbw.cb[3], cbw.cb[4], cbw.cb[5]]

def transferBlocks (cbw : Cbw) : Nat := bigEndian [cbw.cb[7], cbw.cb[8]]

/-- The command. -/
abbrev opcode (cbw : Cbw) : UInt8 := cbw.cb[0]

/-- The length asked of a sense report. -/
abbrev senseLength (cbw : Cbw) : Nat := cbw.cb[4].toNat

/-- The length asked of an inquiry. -/
abbrev inquiryLength (cbw : Cbw) : Nat := bigEndian [cbw.cb[3], cbw.cb[4]]

end Cbw

def buildCsw (tag dataResidue : UInt32) (status : UInt8) : Bytes :=
  toLittleEndian 4 cswSignature ++ toLittleEndian 4 tag.toNat ++
    toLittleEndian 4 dataResidue.toNat ++ [status]

/-- Why a command failed. -/
structure Sense where
  key : UInt8
  asc : UInt8
  ascq : UInt8
  deriving DecidableEq

def Sense.none : Sense := ⟨senseNoSense, 0, 0⟩

/-- The result of a command. -/
structure ScsiResult where
  /-- Zero for good, two for a check condition. -/
  status : UInt8
  data : Bytes
  sense : Sense

namespace ScsiResult

def good (data : Bytes) : ScsiResult := ⟨0, data, ⟨0, 0, 0⟩⟩

def goodEmpty : ScsiResult := ⟨0, [], ⟨0, 0, 0⟩⟩

def checkCondition (key asc ascq : UInt8) : ScsiResult := ⟨2, [], ⟨key, asc, ascq⟩⟩

end ScsiResult

/-! ## The image file -/

/-- What the file system makes of the file operation in a request, if there is one. -/
inductive FileAnswer
  | done
  /-- It fails.  Of a write, this many bytes reached the file before. -/
  | failed (written : Nat)

def readFile (file : Bytes) (offset len : Nat) : Option Bytes :=
  if len = 0 ∨ offset + len ≤ file.length then some ((file.drop offset).take len) else none

def writeFile (file : Bytes) (offset : Nat) (data : Bytes) : Bytes :=
  if data = [] then file
  else splice (file ++ List.replicate (offset - file.length) 0) offset data

/-! ## The device -/

/-- The device with its image. -/
structure VirtualMsc where
  file : Bytes
  readOnly : Bool
  /-- The number of whole blocks of the image. -/
  blockCount : Nat
  botState : BotState
  pendingData : Bytes
  /-- Status yet to be returned. -/
  pendingCsw : Bytes
  writeBuf : Bytes
  sense : Sense
  deriving DecidableEq

def asciiBytes (text : String) : Bytes := text.toList.map fun char => .ofNat char.toNat

def saturatingSub (first second : UInt32) : UInt32 :=
  if second ≤ first then first - second else 0

namespace VirtualMsc

def openImage (file : Bytes) (readOnly : Bool) : VirtualMsc where
  file
  readOnly
  blockCount := file.length / blockSize
  botState := .idle
  pendingData := []
  pendingCsw := []
  writeBuf := []
  sense := .none

/-! ### Control transfers -/

def getStringDescriptor (index : UInt8) (maxLen : UInt16) : TransferResult :=
  let describe (text : String) : TransferResult :=
    let units := text.toList.flatMap fun char => toLittleEndian 2 char.toNat
    let desc := .ofNat (2 + units.length) :: 0x03 :: units
    .success (desc.take (min desc.length maxLen.toNat))
  if index = 0 then .success [4, 0x03, 0x09, 0x04]
  else if index = 1 then describe "ryll"
  else if index = 2 then describe "Virtual Disk"
  else if index = 3 then describe "00000001"
  else .stall

def getDescriptor (descType descIndex : UInt8) (maxLen : UInt16) : TransferResult :=
  let answer (desc : Bytes) : TransferResult :=
    .success (desc.take (min desc.length maxLen.toNat))
  if descType = 1 then answer deviceDescriptor
  else if descType = 2 then answer configDescriptor
  else if descType = 3 then getStringDescriptor descIndex maxLen
  else .stall

variable (setup : ControlSetup)

def handleStandardRequest (isIn : Bool) : TransferResult :=
  if setup.request = usbReqGetDescriptor ∧ isIn then
    getDescriptor (setup.value >>> 8).toUInt8 setup.value.toUInt8 setup.length
  else if setup.request = usbReqSetConfiguration then .successEmpty
  else if setup.request = usbReqGetStatus ∧ isIn then .success [0x01, 0x00]
  else .stall

def handleClassRequest (isIn : Bool) : TransferResult :=
  if setup.request = mscReqGetMaxLun ∧ isIn then .success [0x00]
  else if setup.request = mscReqBulkOnlyReset then .successEmpty
  else .stall

/-- Answer a control request. -/
def handleControl : TransferResult :=
  let isIn := setup.requestType &&& 0x80 ≠ 0
  let reqType := (setup.requestType >>> 5) &&& 3
  if reqType = 0 then handleStandardRequest setup isIn
  else if reqType = 1 then handleClassRequest setup isIn
  else .stall

/-! ### Commands -/

variable (device : VirtualMsc) (cbw : Cbw)

def scsiRequestSense : ScsiResult × VirtualMsc :=
  let allocLen := cbw.cb[4].toNat
  let sense : Bytes :=
    [0x70, 0, device.sense.key, 0, 0, 0, 0, 0x0A, 0, 0, 0, 0, device.sense.asc, device.sense.ascq,
      0, 0, 0, 0]
  (.good (sense.take (min sense.length allocLen)), { device with sense := .none })

def scsiInquiry : ScsiResult :=
  let allocLen := bigEndian [cbw.cb[3], cbw.cb[4]]
  let data : Bytes := [0x00, 0x80, 0x04, 0x02, 31, 0, 0, 0] ++ asciiBytes "ryll    " ++
    asciiBytes "Virtual Disk    " ++ asciiBytes "0001"
  .good (data.take (min data.length allocLen))

def scsiModeSense6 : ScsiResult :=
  .good [3, 0, if device.readOnly then 0x80 else 0x00, 0]

def scsiReadCapacity10 : ScsiResult :=
  let lastLba := if device.blockCount > 0 then device.blockCount - 1 else 0
  .good (toBigEndian 4 (min lastLba (2 ^ 32 - 1)) ++ toBigEndian 4 blockSize)

def doRead (offset len : Nat) : FileAnswer → Option Bytes
  | .done => readFile device.file offset len
  | .failed _ => none

def scsiRead10 (answer : FileAnswer) : ScsiResult :=
  if cbw.transferBlocks > maxTransferBlocks then
    .checkCondition senseIllegalRequest 0x20 0x00
  else if cbw.lba + cbw.transferBlocks > device.blockCount then
    .checkCondition senseMediumError 0x21 0x00
  else
    match device.doRead (cbw.lba * blockSize) (cbw.transferBlocks * blockSize) answer with
    | some data => .good data
    | none => .checkCondition senseMediumError 0x11 0x00

def scsiWrite10 : ScsiResult × VirtualMsc :=
  if device.readOnly then (.checkCondition senseDataProtect 0x27 0x00, device)
  else if cbw.transferBlocks > maxTransferBlocks then
    (.checkCondition senseIllegalRequest 0x20 0x00, device)
  else if cbw.lba + cbw.transferBlocks > device.blockCount then
    (.checkCondition senseMediumError 0x21 0x00, device)
  else
    (.goodEmpty, { device with
      botState := .dataOut cbw.tag cbw.lba (cbw.transferBlocks * blockSize)
      writeBuf := [] })

def executeScsi (answer : FileAnswer) : ScsiResult × VirtualMsc :=
  let opcode := cbw.cb[0]
  if opcode = scsiTestUnitReady then (.goodEmpty, device)
  else if opcode = Ryll.scsiRequestSense then device.scsiRequestSense cbw
  else if opcode = Ryll.scsiInquiry then (scsiInquiry cbw, device)
  else if opcode = Ryll.scsiModeSense6 then (device.scsiModeSense6, device)
  else if opcode = scsiPreventAllowMediumRemoval then (.goodEmpty, device)
  else if opcode = Ryll.scsiReadCapacity10 then (device.scsiReadCapacity10, device)
  else if opcode = Ryll.scsiRead10 then (device.scsiRead10 cbw answer, device)
  else if opcode = Ryll.scsiWrite10 then device.scsiWrite10 cbw
  else (.checkCondition senseIllegalRequest 0x20 0x00, device)

/-! ### Bulk transfers -/

def conclude (result : ScsiResult) : VirtualMsc :=
  let sense := if result.status ≠ 0 then result.sense else device.sense
  let dataResidue :=
    if result.status = 0 then
      saturatingSub cbw.dataTransferLength (.ofNat result.data.length)
    else cbw.dataTransferLength
  let cswStatus := if result.status = 0 then cswStatusPassed else cswStatusFailed
  let pendingCsw := buildCsw cbw.tag dataResidue cswStatus
  if result.data ≠ [] ∧ cbw.directionIn then
    { device with sense, pendingCsw, pendingData := result.data, botState := .dataIn }
  else
    { device with sense, pendingCsw, botState := .status }

/-- Carry out a command. -/
def handleCbw (data : Bytes) (answer : FileAnswer) : TransferResult × VirtualMsc :=
  match Cbw.parse data with
  | none => (.stall, device)
  | some cbw =>
    let (result, device) := device.executeScsi cbw answer
    if device.botState.isDataOut then (.successEmpty, device)
    else (.successEmpty, device.conclude cbw result)

def doWrite (lba : Nat) (data : Bytes) : FileAnswer → Bool × VirtualMsc
  | .done => (true, { device with file := writeFile device.file (lba * blockSize) data })
  | .failed written =>
    (false, { device with file := writeFile device.file (lba * blockSize) (data.take written) })

/-- Take the data of a write. -/
def handleDataOut (tag : UInt32) (lba remaining : Nat) (data : Bytes) (answer : FileAnswer) :
    TransferResult × VirtualMsc :=
  let writeBuf := device.writeBuf ++ data
  if writeBuf.length ≥ remaining then
    let (written, device) := device.doWrite lba writeBuf answer
    let (cswStatus, residue, sense) :=
      if written then (cswStatusPassed, 0, device.sense)
      else (cswStatusFailed, .ofNat remaining, ⟨senseMediumError, 0x03, 0x00⟩)
    (.successEmpty, { device with
      writeBuf := []
      sense
      pendingCsw := buildCsw tag residue cswStatus
      botState := .status })
  else
    (.successEmpty, { device with writeBuf })

def handleBulkOut (data : Bytes) (answer : FileAnswer) : TransferResult × VirtualMsc :=
  match device.botState with
  | .idle => device.handleCbw data answer
  | .dataOut tag lba remaining => device.handleDataOut tag lba remaining data answer
  | _ => (.stall, device)

/-- Return data or the status. -/
def handleBulkIn (maxLen : Nat) : TransferResult × VirtualMsc :=
  match device.botState with
  | .dataIn =>
    let len := min device.pendingData.length maxLen
    let pendingData := device.pendingData.drop len
    (.success (device.pendingData.take len), { device with
      pendingData
      botState := if pendingData = [] then .status else .dataIn })
  | .status => (.success device.pendingCsw, { device with pendingCsw := [], botState := .idle })
  | _ => (.success [], device)

def resetBot : VirtualMsc :=
  { device with botState := .idle, pendingData := [], pendingCsw := [], writeBuf := [] }

/-! ### Requests -/

def reset : VirtualMsc := { device.resetBot with sense := .none }

def bulkIn (endpoint : UInt8) (maxLen : Nat) : TransferResult × VirtualMsc :=
  if endpoint ≠ epBulkIn then (.stall, device) else device.handleBulkIn maxLen

def bulkOut (endpoint : UInt8) (data : Bytes) (answer : FileAnswer) :
    TransferResult × VirtualMsc :=
  if endpoint ≠ epBulkOut then (.stall, device) else device.handleBulkOut data answer

end VirtualMsc

end Ryll
