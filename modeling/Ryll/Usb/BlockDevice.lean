import Ryll.Foundation.Blocks
import Ryll.Usb.WriteSafety

/-!
# The virtual disk as an array of blocks

To a host that follows the transport, the device is an array of blocks: each command is answered
from the latest writes and from why the last command failed.
-/

namespace Ryll

open List VirtualMsc MscWorld

/-! ## The array of blocks -/

/-- Blocks that were written. -/
structure DiskWrite where
  lba : Nat
  blocks : Nat
  data : Bytes

def DiskWrite.covers (write : DiskWrite) (index : Nat) : Bool :=
  write.lba ≤ index ∧ index < write.lba + write.blocks

/-- An array of blocks and its history. -/
structure Disk where
  count : Nat
  readOnly : Bool
  initial : Nat → Bytes
  /-- The writes carried out, latest first. -/
  writes : List DiskWrite
  /-- Why the last failed command failed, unless it was reported. -/
  sense : Sense

/-- A command by its meaning. -/
inductive DiskCommand
  | testUnitReady
  | requestSense (allocLen : Nat)
  | inquiry (allocLen : Nat)
  | modeSense
  | preventAllowMediumRemoval
  | readCapacity
  | read (lba blocks : Nat)
  | write (lba blocks : Nat)
  | unsupported

def DiskCommand.of (cbw : Cbw) : DiskCommand :=
  if cbw.opcode = scsiTestUnitReady then .testUnitReady
  else if cbw.opcode = scsiRequestSense then .requestSense cbw.senseLength
  else if cbw.opcode = scsiInquiry then .inquiry cbw.inquiryLength
  else if cbw.opcode = scsiModeSense6 then .modeSense
  else if cbw.opcode = scsiPreventAllowMediumRemoval then .preventAllowMediumRemoval
  else if cbw.opcode = scsiReadCapacity10 then .readCapacity
  else if cbw.opcode = scsiRead10 then .read cbw.lba cbw.transferBlocks
  else if cbw.opcode = scsiWrite10 then .write cbw.lba cbw.transferBlocks
  else .unsupported

/-- The answer of the array. -/
structure DiskReply where
  failure : Option Sense
  data : Bytes
  /-- The number of bytes taken from the host. -/
  taken : Nat

def Sense.report (sense : Sense) : Bytes :=
  [0x70, 0, sense.key, 0, 0, 0, 0, 0x0A, 0, 0, 0, 0, sense.asc, sense.ascq, 0, 0, 0, 0]

def inquiryReport : Bytes :=
  [0x00, 0x80, 0x04, 0x02, 31, 0, 0, 0] ++ asciiBytes "ryll    " ++
    asciiBytes "Virtual Disk    " ++ asciiBytes "0001"

namespace Disk

def ofImage (image : Bytes) (readOnly : Bool) : Disk where
  count := image.length / blockSize
  readOnly
  initial := blockAt blockSize image
  writes := []
  sense := .none

variable (disk : Disk)

def block (index : Nat) : Bytes :=
  match disk.writes.find? fun write => write.covers index with
  | some write => blockAt blockSize write.data (index - write.lba)
  | none => disk.initial index

def fail (key asc : UInt8) : DiskReply × Disk :=
  (⟨some ⟨key, asc, 0⟩, [], 0⟩, { disk with sense := ⟨key, asc, 0⟩ })

def pass (data : Bytes) : DiskReply × Disk := (⟨none, data, 0⟩, disk)

def exec (command : DiskCommand) (payload : Bytes) (works : Bool) : DiskReply × Disk :=
  match command with
  | .testUnitReady => disk.pass []
  | .requestSense allocLen => { disk with sense := .none }.pass (disk.sense.report.take allocLen)
  | .inquiry allocLen => disk.pass (inquiryReport.take allocLen)
  | .modeSense => disk.pass [3, 0, if disk.readOnly then 0x80 else 0x00, 0]
  | .preventAllowMediumRemoval => disk.pass []
  | .readCapacity =>
    disk.pass (toBigEndian 4 (min (disk.count - 1) (2 ^ 32 - 1)) ++ toBigEndian 4 blockSize)
  | .read lba blocks =>
    if blocks > maxTransferBlocks then disk.fail senseIllegalRequest 0x20
    else if lba + blocks > disk.count then disk.fail senseMediumError 0x21
    else if works then disk.pass ((List.range blocks).flatMap fun index => disk.block (lba + index))
    else disk.fail senseMediumError 0x11
  | .write lba blocks =>
    if disk.readOnly then disk.fail senseDataProtect 0x27
    else if blocks > maxTransferBlocks then disk.fail senseIllegalRequest 0x20
    else if lba + blocks > disk.count then disk.fail senseMediumError 0x21
    else if works then
      (⟨none, [], payload.length⟩, { disk with writes := ⟨lba, blocks, payload⟩ :: disk.writes })
    else disk.fail senseMediumError 0x03
  | .unsupported => disk.fail senseIllegalRequest 0x20

end Disk

/-! ## The host -/

def FileAnswer.works : FileAnswer → Bool
  | .done => true
  | .failed _ => false

/-- A command with what the host sends and collects. -/
structure Exchange where
  wrapper : Bytes
  cbw : Cbw
  parsed : Cbw.parse wrapper = some cbw
  /-- The packets of data that the host sends. -/
  packets : List Bytes
  lengths : List Nat
  statusLength : Nat
  answer : FileAnswer

/-- What the host gets. -/
structure ExchangeReply where
  /-- The answer to the wrapper. -/
  accepted : TransferResult
  data : Bytes
  csw : TransferResult
  deriving DecidableEq

namespace VirtualMsc

def sendAll (device : VirtualMsc) (packets : List Bytes) (answer : FileAnswer) :
    VirtualMsc :=
  packets.foldl (fun device packet => (device.bulkOut epBulkOut packet answer).2) device

def collect (device : VirtualMsc) : List Nat → Bytes × VirtualMsc
  | [] => ([], device)
  | length :: lengths =>
    let (chunk, device) := device.bulkIn epBulkIn length
    let (rest, device) := device.collect lengths
    (chunk.data ++ rest, device)

def perform (device : VirtualMsc) (exchange : Exchange) : ExchangeReply × VirtualMsc :=
  let (accepted, device) := device.bulkOut epBulkOut exchange.wrapper exchange.answer
  let device := device.sendAll exchange.packets exchange.answer
  let (data, device) := device.collect exchange.lengths
  let (csw, device) := device.bulkIn epBulkIn exchange.statusLength
  (⟨accepted, data, csw⟩, device)

def performAll (device : VirtualMsc) : List Exchange → List ExchangeReply × VirtualMsc
  | [] => ([], device)
  | exchange :: exchanges =>
    let (reply, device) := device.perform exchange
    let (replies, device) := device.performAll exchanges
    (reply :: replies, device)

end VirtualMsc

/-- Requests of these lengths collect a reply of this length, and nothing more. -/
def Collects : List Nat → Nat → Prop
  | [], count => count = 0
  | length :: lengths, count => 0 < count ∧ Collects lengths (count - length)

def decidableCollects : ∀ lengths count, Decidable (Collects lengths count)
  | [], count => inferInstanceAs (Decidable (count = 0))
  | length :: lengths, count =>
    have := decidableCollects lengths (count - length)
    inferInstanceAs (Decidable (_ ∧ _))

instance (lengths : List Nat) (count : Nat) : Decidable (Collects lengths count) :=
  decidableCollects lengths count

namespace Disk

def execExchange (disk : Disk) (exchange : Exchange) : DiskReply × Disk :=
  disk.exec (.of exchange.cbw) exchange.packets.flatten exchange.answer.works

/-- Whether a command succeeded, and how many of the wanted bytes were not moved. -/
def status (exchange : Exchange) (reply : DiskReply) : Bytes :=
  match reply.failure with
  | none =>
    let moved := reply.data.length + reply.taken
    buildCsw exchange.cbw.tag (.ofNat (exchange.cbw.dataTransferLength.toNat - moved))
      cswStatusPassed
  | some _ => buildCsw exchange.cbw.tag exchange.cbw.dataTransferLength cswStatusFailed

def replies (disk : Disk) : List Exchange → List ExchangeReply
  | [] => []
  | exchange :: exchanges =>
    let (reply, disk) := disk.execExchange exchange
    ⟨.successEmpty, reply.data, .success (status exchange reply)⟩ :: disk.replies exchanges

def after (disk : Disk) (exchanges : List Exchange) : Disk :=
  exchanges.foldl (fun disk exchange => (disk.execExchange exchange).2) disk

/-- The host sends exactly the data of a write of one or more blocks, announces what it wants to
move and collects replies; a failed file operation leaves the file alone. -/
structure Follows (disk : Disk) (exchange : Exchange) : Prop where
  clean : exchange.answer = .done ∨ exchange.answer = .failed 0
  sent : match DiskCommand.of exchange.cbw with
    | .write _ blocks => 0 < blocks ∧ exchange.packets.flatten.length = blocks * blockSize ∧
        exchange.cbw.dataTransferLength.toNat = blocks * blockSize
    | .read _ blocks => exchange.packets = [] ∧
        exchange.cbw.dataTransferLength.toNat = blocks * blockSize
    | _ => exchange.packets = []
  announced :
    (disk.execExchange exchange).1.data.length ≤ exchange.cbw.dataTransferLength.toNat
  inward : (disk.execExchange exchange).1.data ≠ [] → exchange.cbw.directionIn = true
  drained : Collects exchange.lengths (disk.execExchange exchange).1.data.length

/-- The host follows the transport throughout. -/
def FollowsRun (disk : Disk) : List Exchange → Prop
  | [] => True
  | exchange :: exchanges =>
    disk.Follows exchange ∧ (disk.execExchange exchange).2.FollowsRun exchanges

end Disk

/-! ## Refinement -/

/-- The device stands for the array. -/
structure Disk.Represents (disk : Disk) (device : VirtualMsc) : Prop where
  idle : device.botState = .idle
  readOnly : device.readOnly = disk.readOnly
  blockCount : device.blockCount = disk.count
  inside : disk.count * blockSize ≤ device.file.length
  blocks : ∀ index, index < disk.count → blockAt blockSize device.file index = disk.block index
  sense : device.sense = disk.sense

theorem represents_openImage (image : Bytes) (readOnly : Bool) :
    Disk.Represents (.ofImage image readOnly) (.openImage image readOnly) :=
  ⟨rfl, rfl, rfl, Nat.div_mul_le_self _ _, fun _ _ => rfl, rfl⟩

variable (reply : DiskReply)

def DiskReply.toScsi : ScsiResult :=
  match reply.failure with
  | none => .good reply.data
  | some sense => ⟨2, reply.data, sense⟩

theorem DiskReply.toScsi_data : reply.toScsi.data = reply.data := by
  rw [toScsi]
  cases reply.failure <;> rfl

theorem DiskReply.toScsi_sense (sense : Sense) :
    (if reply.toScsi.status ≠ 0 then reply.toScsi.sense else sense) = reply.failure.getD sense := by
  rw [toScsi]
  cases reply.failure <;> rfl

theorem Disk.Represents.read {disk : Disk} {device : VirtualMsc}
    (represents : disk.Represents device) {lba blocks : Nat} (inside : lba + blocks ≤ disk.count) :
    readFile device.file (lba * blockSize) (blocks * blockSize) =
      some ((List.range blocks).flatMap fun index => disk.block (lba + index)) := by
  have room : (lba + blocks) * blockSize ≤ device.file.length :=
    Nat.le_trans (Nat.mul_le_mul_right blockSize inside) represents.inside
  rw [Nat.add_mul] at room
  rw [readFile, if_pos (.inr room), ← flatMap_blockAt]
  congr 1
  apply flatMap_congr
  intro index listed
  apply represents.blocks
  exact Nat.lt_of_lt_of_le (Nat.add_lt_add_left (mem_range.mp listed) lba) inside

/-- The device answers as the array does. -/
def Answers (disk : Disk) (command : DiskCommand) (payload : Bytes) (works : Bool)
    (result : ScsiResult) (sense : Sense) : Prop :=
  result = (disk.exec command payload works).1.toScsi ∧
    (disk.exec command payload works).1.taken = 0 ∧
    (disk.exec command payload works).2 =
      { disk with sense := (disk.exec command payload works).1.failure.getD sense }

section Commands

variable {disk : Disk} {device : VirtualMsc} {command : DiskCommand} {payload : Bytes}

theorem Disk.Represents.answers_pass (represents : disk.Represents device)
    {data : Bytes} {works : Bool} (passes : disk.exec command payload works = disk.pass data) :
    Answers disk command payload works (.good data) device.sense := by
  rw [Answers, passes, represents.sense]
  exact ⟨rfl, rfl, rfl⟩

theorem answers_fail {works : Bool}
    {key asc : UInt8} (fails : disk.exec command payload works = disk.fail key asc)
    (sense : Sense) : Answers disk command payload works (.checkCondition key asc 0) sense := by
  rw [Answers, fails]
  exact ⟨rfl, rfl, rfl⟩

section

variable (represents : disk.Represents device)
include represents

theorem Disk.Represents.requestSense (cbw : Cbw) (payload : Bytes) (works : Bool) :
    Answers disk (.requestSense cbw.senseLength) payload works (device.scsiRequestSense cbw).1
      .none := by
  refine ⟨?_, rfl, rfl⟩
  rw [VirtualMsc.scsiRequestSense, represents.sense]
  exact congrArg ScsiResult.good ((Nat.min_comm _ _).symm ▸ take_eq_take_min.symm)

theorem Disk.Represents.inquiry (cbw : Cbw) (payload : Bytes) (works : Bool) :
    Answers disk (.inquiry cbw.inquiryLength) payload works
      (VirtualMsc.scsiInquiry cbw) device.sense := by
  have same : VirtualMsc.scsiInquiry cbw =
      .good (inquiryReport.take cbw.inquiryLength) :=
    congrArg ScsiResult.good ((Nat.min_comm _ _).symm ▸ take_eq_take_min.symm)
  rw [same]
  exact represents.answers_pass rfl

theorem Disk.Represents.modeSense (payload : Bytes) (works : Bool) :
    Answers disk .modeSense payload works device.scsiModeSense6 device.sense := by
  rw [VirtualMsc.scsiModeSense6, represents.readOnly]
  exact represents.answers_pass rfl

theorem Disk.Represents.readCapacity (payload : Bytes) (works : Bool) :
    Answers disk .readCapacity payload works device.scsiReadCapacity10 device.sense := by
  have last : (if disk.count > 0 then disk.count - 1 else 0) = disk.count - 1 := by
    split <;> omega
  rw [VirtualMsc.scsiReadCapacity10, represents.blockCount, last]
  exact represents.answers_pass rfl

theorem Disk.Represents.read10 (cbw : Cbw) (payload : Bytes) (answer : FileAnswer) :
    Answers disk (.read cbw.lba cbw.transferBlocks) payload answer.works
      (device.scsiRead10 cbw answer) device.sense := by
  rw [VirtualMsc.scsiRead10, represents.blockCount]
  by_cases large : cbw.transferBlocks > maxTransferBlocks
  · rw [if_pos large]
    exact answers_fail (by rw [Disk.exec, if_pos large]) _
  by_cases outside : cbw.lba + cbw.transferBlocks > disk.count
  · rw [if_neg large, if_pos outside]
    exact answers_fail (by rw [Disk.exec, if_neg large, if_pos outside]) _
  rw [if_neg large, if_neg outside]
  cases answer with
  | done =>
    rw [doRead, represents.read (Nat.not_lt.mp outside)]
    exact represents.answers_pass (by rw [Disk.exec, if_neg large, if_neg outside]; rfl)
  | failed written =>
    exact answers_fail (by rw [Disk.exec, if_neg large, if_neg outside]; rfl) _

theorem Disk.Represents.write10 {cbw : Cbw} (write : cbw.opcode = scsiWrite10)
    (refused : ¬device.Accepts cbw) (payload : Bytes) (works : Bool) :
    (device.scsiWrite10 cbw).2 = device ∧
      Answers disk (.write cbw.lba cbw.transferBlocks) payload works (device.scsiWrite10 cbw).1
        device.sense := by
  rw [VirtualMsc.scsiWrite10]
  by_cases locked : device.readOnly = true
  · rw [if_pos locked]
    rw [represents.readOnly] at locked
    exact ⟨rfl, answers_fail (by rw [Disk.exec, if_pos locked]) _⟩
  have unlocked : ¬disk.readOnly = true := represents.readOnly ▸ locked
  by_cases large : cbw.transferBlocks > maxTransferBlocks
  · rw [if_neg locked, if_pos large]
    exact ⟨rfl, answers_fail (by rw [Disk.exec, if_neg unlocked, if_pos large]) _⟩
  by_cases outside : cbw.lba + cbw.transferBlocks > device.blockCount
  · rw [if_neg locked, if_neg large, if_pos outside]
    rw [represents.blockCount] at outside
    refine ⟨rfl, answers_fail ?_ _⟩
    rw [Disk.exec, if_neg unlocked, if_neg large, if_pos outside]
  · refine absurd ⟨write, ?_, Nat.not_lt.mp large, Nat.not_lt.mp outside⟩ refused
    simpa using locked

theorem Disk.Represents.execute {cbw : Cbw} (other : ¬device.Accepts cbw) (payload : Bytes)
    (answer : FileAnswer) :
    ∃ result sense, device.executeScsi cbw answer = (result, { device with sense }) ∧
      Answers disk (.of cbw) payload answer.works result sense := by
  unfold executeScsi DiskCommand.of
  by_cases ready : cbw.opcode = scsiTestUnitReady
  · rw [if_pos ready, if_pos ready]
    exact ⟨_, device.sense, rfl, represents.answers_pass rfl⟩
  rw [if_neg ready, if_neg ready]
  by_cases report : cbw.opcode = scsiRequestSense
  · rw [if_pos report, if_pos report]
    exact ⟨_, _, rfl, represents.requestSense cbw payload answer.works⟩
  rw [if_neg report, if_neg report]
  by_cases inquiry : cbw.opcode = scsiInquiry
  · rw [if_pos inquiry, if_pos inquiry]
    exact ⟨_, device.sense, rfl, represents.inquiry cbw payload answer.works⟩
  rw [if_neg inquiry, if_neg inquiry]
  by_cases mode : cbw.opcode = scsiModeSense6
  · rw [if_pos mode, if_pos mode]
    exact ⟨_, device.sense, rfl, represents.modeSense payload answer.works⟩
  rw [if_neg mode, if_neg mode]
  by_cases removal : cbw.opcode = scsiPreventAllowMediumRemoval
  · rw [if_pos removal, if_pos removal]
    exact ⟨_, device.sense, rfl, represents.answers_pass rfl⟩
  rw [if_neg removal, if_neg removal]
  by_cases capacity : cbw.opcode = scsiReadCapacity10
  · rw [if_pos capacity, if_pos capacity]
    exact ⟨_, device.sense, rfl, represents.readCapacity payload answer.works⟩
  rw [if_neg capacity, if_neg capacity]
  by_cases read : cbw.opcode = scsiRead10
  · rw [if_pos read, if_pos read]
    exact ⟨_, device.sense, rfl, represents.read10 cbw payload answer⟩
  rw [if_neg read, if_neg read]
  by_cases write : cbw.opcode = scsiWrite10
  · rw [if_pos write, if_pos write]
    obtain ⟨same, answers⟩ := represents.write10 write other payload answer.works
    exact ⟨_, device.sense, Prod.ext rfl same, answers⟩
  rw [if_neg write, if_neg write]
  exact ⟨_, device.sense, rfl, answers_fail rfl _⟩

end

end Commands

/-! ## Transfers -/

namespace VirtualMsc

variable {device : VirtualMsc}

theorem bulkOut_idle (idle : device.botState = .idle) (data : Bytes) (answer : FileAnswer) :
    device.bulkOut epBulkOut data answer = device.handleCbw data answer := by
  rw [bulkOut, if_neg (by decide), handleBulkOut, idle]

variable {remaining : Nat}

theorem sendAll_refused (busy : device.botState = .dataIn ∨ device.botState = .status)
    (packets : List Bytes) (answer : FileAnswer) :
    device.sendAll packets answer = device := by
  induction packets with
  | nil => rfl
  | cons packet packets ih =>
    have refused : (device.bulkOut epBulkOut packet answer).2 = device := by
      rw [bulkOut, if_neg (by decide), handleBulkOut]
      rcases busy with state | state <;> rw [state]
    rw [sendAll, foldl_cons, refused]
    exact ih

/-- Data that was received before counts as if it came with the last packet. -/
theorem handleDataOut_append {first second : Bytes}
    (complete : remaining ≤ (device.writeBuf ++ first ++ second).length) (tag : UInt32)
    (lba : Nat) (answer : FileAnswer) :
    ({ device with writeBuf := device.writeBuf ++ first } : VirtualMsc).handleDataOut tag lba
        remaining second answer =
      device.handleDataOut tag lba remaining (first ++ second) answer := by
  have whole : remaining ≤ (device.writeBuf ++ (first ++ second)).length := by
    rwa [← append_assoc]
  cases answer with
  | done => rw [handleDataOut_done complete, handleDataOut_done whole, append_assoc]
  | failed written =>
    rw [handleDataOut_failed complete, handleDataOut_failed whole, append_assoc]

/-- However the data of a write is split, it is written as if it came at once. -/
theorem sendAll_dataOut (device : VirtualMsc) {tag : UInt32} {lba : Nat}
    {packets : List Bytes} (state : device.botState = .dataOut tag lba remaining)
    (missing : device.writeBuf.length < remaining)
    (exact : (device.writeBuf ++ packets.flatten).length = remaining) (answer : FileAnswer) :
    device.sendAll packets answer =
      (device.handleDataOut tag lba remaining packets.flatten answer).2 := by
  induction packets generalizing device with
  | nil =>
    rw [flatten_nil, append_nil] at exact
    omega
  | cons packet packets ih =>
    rw [sendAll, foldl_cons, bulkOut, if_neg (by decide), handleBulkOut, state]
    dsimp only
    rw [flatten_cons, ← append_assoc] at exact
    by_cases partially : (device.writeBuf ++ packet).length < remaining
    · have rest : ({ device with writeBuf := device.writeBuf ++ packet } : VirtualMsc).sendAll
          packets answer = _ := ih _ state partially exact
      rw [handleDataOut_unfinished partially, flatten_cons]
      exact rest.trans (congrArg Prod.snd
        (handleDataOut_append (Nat.le_of_eq exact.symm) tag lba answer))
    · have rest : packets.flatten = [] := by
        rw [length_append] at exact
        exact eq_nil_of_length_eq_zero (by omega)
      rw [flatten_cons, rest, append_nil]
      apply sendAll_refused
      obtain ⟨_, _, _, status, _⟩ :=
        handleDataOut_complete (Nat.not_lt.mp partially) tag lba answer
      exact .inr status

theorem collect_nothing {lengths : List Nat} (fitting : Collects lengths 0)
    (device : VirtualMsc) : device.collect lengths = ([], device) := by
  cases lengths with
  | nil => rfl
  | cons length lengths => exact absurd fitting.1 (Nat.lt_irrefl 0)

theorem collect_dataIn {lengths : List Nat} (state : device.botState = .dataIn)
    (some_data : device.pendingData ≠ []) (fitting : Collects lengths device.pendingData.length) :
    device.collect lengths =
      (device.pendingData, { device with pendingData := [], botState := .status }) := by
  induction lengths generalizing device with
  | nil => exact absurd (eq_nil_of_length_eq_zero fitting) some_data
  | cons length lengths ih =>
    obtain ⟨-, fitting⟩ := fitting
    have chunk : device.bulkIn epBulkIn length =
        (.success (device.pendingData.take (min device.pendingData.length length)), { device with
            pendingData := device.pendingData.drop (min device.pendingData.length length)
            botState := if device.pendingData.drop (min device.pendingData.length length) = []
              then .status else .dataIn }) := by
      rw [bulkIn, if_neg (by decide), handleBulkIn, state]
    have left : device.pendingData.length - length =
        (device.pendingData.drop (min device.pendingData.length length)).length := by
      rw [length_drop]
      omega
    rw [left] at fitting
    rw [collect, chunk]
    dsimp only [TransferResult.success]
    by_cases last : device.pendingData.drop (min device.pendingData.length length) = []
    · rw [last] at fitting
      have all := take_append_drop (min device.pendingData.length length) device.pendingData
      rw [last] at all
      rw [if_pos last, collect_nothing fitting, all, last]
    · rw [if_neg last]
      have rest : ({ device with
          pendingData := device.pendingData.drop (min device.pendingData.length length)
          botState := .dataIn } : VirtualMsc).collect lengths = _ := ih rfl last fitting
      rw [rest]
      rw [take_append_drop]

theorem bulkIn_status (state : device.botState = .status) (maxLen : Nat) :
    device.bulkIn epBulkIn maxLen =
      (.success device.pendingCsw, { device with pendingCsw := [], botState := .idle }) := by
  rw [bulkIn, if_neg (by decide), handleBulkIn, state]

end VirtualMsc

/-! ## Exchanges -/

theorem saturatingSub_ofNat {first : UInt32} {count : Nat} (small : count < 2 ^ 32) :
    saturatingSub first (.ofNat count) = .ofNat (first.toNat - count) := by
  have size : first.toNat < UInt32.size := first.toNat_lt
  have exact : (UInt32.ofNat count).toNat = count := UInt32.toNat_ofNat_of_lt' small
  rw [saturatingSub]
  split
  · next below =>
    apply UInt32.toNat_inj.mp
    rw [UInt32.toNat_sub_of_le _ _ below, exact, UInt32.toNat_ofNat_of_lt' (by omega)]
  · next above =>
    rw [UInt32.le_iff_toNat_le] at above
    rw [Nat.sub_eq_zero_of_le (by omega)]
    rfl

/-- The status wrapper that concludes a command. -/
def ScsiResult.csw (result : ScsiResult) (cbw : Cbw) : Bytes :=
  buildCsw cbw.tag
    (if result.status = 0 then saturatingSub cbw.dataTransferLength (.ofNat result.data.length)
      else cbw.dataTransferLength)
    (if result.status = 0 then cswStatusPassed else cswStatusFailed)

section Exchanges

variable {disk : Disk} {device : VirtualMsc} {exchange : Exchange} {reply : DiskReply}

theorem csw_eq_status (untaken : reply.taken = 0)
    (announced : reply.data.length ≤ exchange.cbw.dataTransferLength.toNat) :
    reply.toScsi.csw exchange.cbw = Disk.status exchange reply := by
  have small := Nat.lt_of_le_of_lt announced exchange.cbw.dataTransferLength.toNat_lt
  obtain ⟨failure, data, taken⟩ := reply
  cases failure with
  | none =>
    subst untaken
    exact congrArg (fun residue => buildCsw exchange.cbw.tag residue cswStatusPassed)
      (saturatingSub_ofNat small)
  | some sense => rfl

theorem Disk.Represents.settle (represents : disk.Represents device) (sense : Sense)
    (pendingData pendingCsw writeBuf : Bytes) :
    Disk.Represents { disk with sense } { device with
      botState := .idle, sense, pendingData, pendingCsw, writeBuf } :=
  { represents with idle := rfl, sense := rfl }

/-- A command other than a write returns its data to a host that wants some, then its status. -/
theorem perform_concluded {sense : Sense} {result : ScsiResult} (idle : device.botState = .idle)
    (executed : device.executeScsi exchange.cbw exchange.answer = (result, { device with sense }))
    (fitting : Collects exchange.lengths
      (if exchange.cbw.directionIn then result.data else []).length) :
    ∃ pendingData, device.perform exchange =
      (⟨.successEmpty, if exchange.cbw.directionIn then result.data else [],
        .success (result.csw exchange.cbw)⟩, { device with
          botState := .idle, sense := if result.status ≠ 0 then result.sense else sense,
          pendingData, pendingCsw := [] }) := by
  have undisturbed : ¬({ device with sense } : VirtualMsc).botState.isDataOut := by
    simp [idle, BotState.isDataOut]
  have begun : device.bulkOut epBulkOut exchange.wrapper exchange.answer = (.successEmpty,
      ({ device with sense } : VirtualMsc).conclude exchange.cbw result) := by
    rw [bulkOut_idle idle, handleCbw, exchange.parsed]
    dsimp only
    rw [executed]
    exact if_neg undisturbed
  rw [perform, begun]
  dsimp only
  by_cases replied : result.data ≠ [] ∧ exchange.cbw.directionIn = true
  · rw [if_pos replied.2] at fitting ⊢
    rw [show conclude _ exchange.cbw result = _ from if_pos replied, sendAll_refused (.inl rfl),
      collect_dataIn rfl replied.1 fitting, bulkIn_status rfl]
    exact ⟨_, rfl⟩
  · have quiet : (if exchange.cbw.directionIn then result.data else []) = [] := by
      rw [ite_eq_right_iff]
      exact fun inward => Classical.not_not.mp fun some => replied ⟨some, inward⟩
    rw [quiet] at fitting ⊢
    rw [show conclude _ exchange.cbw result = _ from if_neg replied, sendAll_refused (.inr rfl),
      collect_nothing fitting, bulkIn_status rfl]
    exact ⟨_, rfl⟩

theorem Disk.block_write (disk : Disk) (write : DiskWrite) (index : Nat) :
    ({ disk with writes := write :: disk.writes } : Disk).block index =
      if write.lba ≤ index ∧ index < write.lba + write.blocks then
        blockAt blockSize write.data (index - write.lba)
      else disk.block index := by
  rw [block, find?_cons]
  by_cases covered : write.lba ≤ index ∧ index < write.lba + write.blocks
  · rw [if_pos covered, DiskWrite.covers, decide_eq_true covered]
  · rw [if_neg covered, DiskWrite.covers, decide_eq_false covered]
    rfl

theorem Disk.Represents.store (represents : disk.Represents device) {lba blocks : Nat}
    {payload : Bytes} (inside : lba + blocks ≤ disk.count)
    (sized : payload.length = blocks * blockSize) :
    Disk.Represents { disk with writes := ⟨lba, blocks, payload⟩ :: disk.writes }
      { device with file := writeFile device.file (lba * blockSize) payload } := by
  have room : (lba + blocks) * blockSize ≤ device.file.length :=
    Nat.le_trans (Nat.mul_le_mul_right blockSize inside) represents.inside
  have fits : lba * blockSize + payload.length ≤ device.file.length := by
    rwa [sized, ← Nat.add_mul]
  refine { represents with inside := ?_, blocks := ?_ }
  · dsimp only
    rw [writeFile_inside fits, length_splice fits]
    exact represents.inside
  · intro index listed
    rw [writeFile_inside fits, blockAt_splice sized room, Disk.block_write,
      represents.blocks index listed]

theorem of_accepted {cbw : Cbw} (accepts : device.Accepts cbw) :
    DiskCommand.of cbw = .write cbw.lba cbw.transferBlocks := by
  rw [DiskCommand.of, accepts.1]
  rfl

theorem bulkOut_accepted (idle : device.botState = .idle) (accepts : device.Accepts exchange.cbw) :
    device.bulkOut epBulkOut exchange.wrapper exchange.answer =
      (.successEmpty, device.awaiting exchange.cbw) := by
  rw [bulkOut_idle idle, handleCbw, exchange.parsed]
  dsimp only
  rw [executeScsi_of_accepts accepts]
  rfl

theorem perform_accepted (idle : device.botState = .idle) (accepts : device.Accepts exchange.cbw)
    (some_blocks : 0 < exchange.cbw.transferBlocks)
    (sized : exchange.packets.flatten.length = exchange.cbw.transferBlocks * blockSize)
    (fitting : Collects exchange.lengths 0) {received : VirtualMsc} {result : TransferResult}
    (receives : (device.awaiting exchange.cbw).handleDataOut exchange.cbw.tag exchange.cbw.lba
      (exchange.cbw.transferBlocks * blockSize) exchange.packets.flatten exchange.answer =
        (result, received)) (status : received.botState = .status) :
    device.perform exchange = (⟨.successEmpty, [], .success received.pendingCsw⟩,
      { received with pendingCsw := [], botState := .idle }) := by
  have missing : 0 < exchange.cbw.transferBlocks * blockSize :=
    Nat.mul_pos some_blocks (by decide)
  have taken : (device.awaiting exchange.cbw).sendAll exchange.packets exchange.answer =
      received := by
    rw [sendAll_dataOut (device.awaiting exchange.cbw) rfl missing sized, receives]
  rw [perform, bulkOut_accepted idle accepts]
  dsimp only
  rw [taken, collect_nothing fitting, bulkIn_status status]

/-- What the device answers to an exchange, and what it stands for afterwards. -/
def Performs (disk : Disk) (device : VirtualMsc) (exchange : Exchange) : Prop :=
  ∃ device', device.perform exchange = (⟨.successEmpty, (disk.execExchange exchange).1.data,
      .success (Disk.status exchange (disk.execExchange exchange).1)⟩, device') ∧
    Disk.Represents (disk.execExchange exchange).2 device'

theorem Performs.of {disk' : Disk} {device' : VirtualMsc} {csw : Bytes}
    (performed : device.perform exchange = (⟨.successEmpty, reply.data, .success csw⟩, device'))
    (outcome : disk.execExchange exchange = (reply, disk'))
    (status : csw = Disk.status exchange reply) (represents : Disk.Represents disk' device') :
    Performs disk device exchange := by
  rw [Performs, outcome]
  exact ⟨device', status ▸ performed, represents⟩

section

variable (represents : disk.Represents device)
include represents

theorem Disk.Represents.exec_accepted {cbw : Cbw} (accepts : device.Accepts cbw)
    (payload : Bytes) (works : Bool) :
    disk.exec (.of cbw) payload works = if works then
      (⟨none, [], payload.length⟩,
        { disk with writes := ⟨cbw.lba, cbw.transferBlocks, payload⟩ :: disk.writes })
    else disk.fail senseMediumError 0x03 := by
  have ⟨_, writable, small, inside⟩ := accepts
  rw [represents.readOnly] at writable
  rw [represents.blockCount] at inside
  rw [of_accepted accepts, Disk.exec, writable, if_neg (by decide),
    if_neg (Nat.not_lt.mpr small), if_neg (Nat.not_lt.mpr inside)]

section

variable (follows : disk.Follows exchange)
include follows

theorem Disk.Represents.perform : Performs disk device exchange := by
  by_cases accepts : device.Accepts exchange.cbw
  · have sent := follows.sent
    rw [of_accepted accepts] at sent
    obtain ⟨some_blocks, sized, announced⟩ := sent
    have inside : exchange.cbw.lba + exchange.cbw.transferBlocks ≤ disk.count :=
      represents.blockCount ▸ accepts.2.2.2
    have fitting := follows.drained
    have complete : exchange.cbw.transferBlocks * blockSize ≤
        ((device.awaiting exchange.cbw).writeBuf ++ exchange.packets.flatten).length :=
      Nat.le_of_eq sized.symm
    have outcome : disk.execExchange exchange = _ :=
      represents.exec_accepted accepts exchange.packets.flatten exchange.answer.works
    rcases follows.clean with done | failed
    · have receives := handleDataOut_done complete exchange.cbw.tag exchange.cbw.lba
      rw [← done] at receives
      rw [done] at outcome
      rw [outcome] at fitting
      have performed := perform_accepted represents.idle accepts some_blocks sized fitting receives
        rfl
      have stored := represents.store inside sized
      have whole : exchange.cbw.dataTransferLength.toNat - exchange.packets.flatten.length = 0 := by
        omega
      refine .of performed outcome ?_ ?_
      · rw [Disk.status]
        dsimp only
        rw [length_nil, Nat.zero_add, whole]
        rfl
      · exact { stored with idle := rfl }
    · have receives := handleDataOut_failed complete exchange.cbw.tag exchange.cbw.lba 0
      rw [← failed] at receives
      rw [failed] at outcome
      rw [outcome] at fitting
      have performed := perform_accepted represents.idle accepts some_blocks sized fitting receives
        rfl
      refine .of performed outcome ?_ (represents.settle _ _ _ _)
      rw [← announced, UInt32.ofNat_toNat]
      rfl
  · obtain ⟨_, sense, executed, rfl, untaken, after⟩ :=
      represents.execute accepts exchange.packets.flatten exchange.answer
    rw [← Disk.execExchange] at executed untaken after
    have whole : (if exchange.cbw.directionIn then (disk.execExchange exchange).1.toScsi.data
        else []) = (disk.execExchange exchange).1.data := by
      rw [DiskReply.toScsi_data]
      split
      · rfl
      · next outward => exact (Classical.not_not.mp fun some => outward (follows.inward some)).symm
    obtain ⟨pendingData, performed⟩ := perform_concluded represents.idle executed
      (whole.symm ▸ follows.drained)
    rw [whole, csw_eq_status untaken follows.announced, DiskReply.toScsi_sense] at performed
    refine ⟨_, performed, ?_⟩
    rw [after]
    exact represents.settle _ _ _ _

end

theorem Disk.Represents.performAll {exchanges : List Exchange}
    (follows : disk.FollowsRun exchanges) :
    (device.performAll exchanges).1 = disk.replies exchanges ∧
      Disk.Represents (disk.after exchanges) (device.performAll exchanges).2 := by
  induction exchanges generalizing disk device with
  | nil => exact ⟨rfl, represents⟩
  | cons exchange exchanges ih =>
    obtain ⟨device', performed, next⟩ := represents.perform follows.1
    obtain ⟨replies, last⟩ := ih next follows.2
    rw [performAll, performed]
    exact ⟨congrArg _ replies, last⟩

end

end Exchanges

theorem Disk.exec_cases (disk : Disk) (command : DiskCommand) (payload : Bytes)
    (works : Bool) : (∃ key asc, disk.exec command payload works = disk.fail key asc) ∨
      (disk.exec command payload works).1.failure = none := by
  cases command with
  | read lba blocks =>
    rw [exec]
    split
    · exact .inl ⟨_, _, rfl⟩
    split
    · exact .inl ⟨_, _, rfl⟩
    split
    · exact .inr rfl
    · exact .inl ⟨_, _, rfl⟩
  | write lba blocks =>
    rw [exec]
    split
    · exact .inl ⟨_, _, rfl⟩
    split
    · exact .inl ⟨_, _, rfl⟩
    split
    · exact .inl ⟨_, _, rfl⟩
    split
    · exact .inr rfl
    · exact .inl ⟨_, _, rfl⟩
  | unsupported => exact .inl ⟨_, _, rfl⟩
  | _ => exact .inr rfl

theorem Disk.exec_failed {disk disk' : Disk} {command : DiskCommand} {payload : Bytes}
    {works : Bool} {reply : DiskReply} {sense : Sense}
    (outcome : disk.exec command payload works = (reply, disk'))
    (failed : reply.failure = some sense) : disk' = { disk with sense } := by
  rcases disk.exec_cases command payload works with ⟨key, asc, fails⟩ | passes
  · rw [outcome] at fails
    obtain ⟨rfl, rfl⟩ := Prod.mk.inj fails
    cases failed
    rfl
  · rw [outcome] at passes
    rw [passes] at failed
    cases failed

/-- To a host that follows the transport the device answers as the array of blocks does; a failed
command changes no block, and its sense is reported next. -/
theorem run_refines (image : Bytes) (readOnly : Bool) (exchanges : List Exchange)
    (follows : (Disk.ofImage image readOnly).FollowsRun exchanges) :
    ((openImage image readOnly).performAll exchanges).1 =
      (Disk.ofImage image readOnly).replies exchanges ∧
    Disk.Represents ((Disk.ofImage image readOnly).after exchanges)
      ((openImage image readOnly).performAll exchanges).2 ∧
    ∀ command payload works reply disk' sense,
      ((Disk.ofImage image readOnly).after exchanges).exec command payload works =
        (reply, disk') → reply.failure = some sense →
          disk' = { (Disk.ofImage image readOnly).after exchanges with sense } := by
  obtain ⟨replies, represents⟩ := (represents_openImage image readOnly).performAll follows
  exact ⟨replies, represents, fun _ _ _ _ _ _ => Disk.exec_failed⟩

/-- The exchange of a wrapper, with working file operations. -/
def Exchange.ofCbw (cbw : Cbw) (packets : List Bytes) (lengths : List Nat)
    (parsed : Cbw.parse (makeCbw cbw.tag cbw.dataTransferLength cbw.directionIn
      (cbw.cb.toList.take cbw.cbLength.toNat)) = some cbw) : Exchange :=
  ⟨_, cbw, parsed, packets, lengths, 13, .done⟩

def writeExchange : Exchange :=
  .ofCbw ⟨7, 512, false, 0, 10, #v[0x2A, 0, 0, 0, 0, 1, 0, 0, 1, 0, 0, 0, 0, 0, 0, 0]⟩
    [List.replicate 500 7, List.replicate 12 8] [] (by decide +kernel)

def readExchange : Exchange :=
  .ofCbw ⟨8, 1024, true, 0, 10, #v[0x28, 0, 0, 0, 0, 0, 0, 0, 2, 0, 0, 0, 0, 0, 0, 0]⟩
    [] [1000, 1000] (by decide +kernel)

theorem write_then_read_follows :
    (Disk.ofImage (List.replicate 1024 0) false).FollowsRun [writeExchange, readExchange] := by
  refine ⟨⟨.inl rfl, ⟨?_, ?_, rfl⟩, ?_, ?_, ?_⟩, ⟨.inl rfl, ⟨rfl, rfl⟩, ?_, fun _ => rfl, ?_⟩,
    trivial⟩
  all_goals decide +kernel

theorem write_then_read_refines : ((openImage (List.replicate 1024 0) false).performAll
      [writeExchange, readExchange]).1 =
      (Disk.ofImage (List.replicate 1024 0) false).replies [writeExchange, readExchange] :=
  (run_refines (List.replicate 1024 0) false [writeExchange, readExchange]
    write_then_read_follows).1

def emptyWriteExchange : Exchange :=
  .ofCbw ⟨9, 0, false, 0, 10, #v[0x2A, 0, 0, 0, 0, 0, 0, 0, 0, 0, 0, 0, 0, 0, 0, 0]⟩
    [] [] (by decide +kernel)

def outsideReadExchange : Exchange :=
  .ofCbw ⟨10, 512, true, 0, 10, #v[0x28, 0, 0, 0, 0, 9, 0, 0, 1, 0, 0, 0, 0, 0, 0, 0]⟩
    [] [512] (by decide +kernel)

def largeReadExchange : Exchange :=
  .ofCbw ⟨11, 1049088, true, 0, 10, #v[0x28, 0, 0, 0, 0, 0, 0, 8, 1, 0, 0, 0, 0, 0, 0, 0]⟩
    [] [] (by decide +kernel)

def inquiryExchange : Exchange :=
  .ofCbw ⟨12, 96, true, 0, 6, #v[0x12, 0, 0, 0, 96, 0, 0, 0, 0, 0, 0, 0, 0, 0, 0, 0]⟩
    [] [96] (by decide +kernel)

/-- Reads of more than 2048 blocks are refused, a short reply leaves a residue, the status of a
failed read is in the place of its data, and a write of no blocks has none. -/
theorem disk_not_refined : (∃ image : Bytes, image.length = 2049 * blockSize ∧
      ((openImage image false).perform largeReadExchange).1 =
        ⟨.successEmpty, [], .success (buildCsw 11 1049088 cswStatusFailed)⟩) ∧
    ((openImage (List.replicate 512 0) false).perform inquiryExchange).1 =
      ⟨.successEmpty, inquiryReport, .success (buildCsw 12 60 cswStatusPassed)⟩ ∧
    ((openImage (List.replicate 512 0) false).perform outsideReadExchange).1 =
      ⟨.successEmpty, buildCsw 10 512 cswStatusFailed, .success []⟩ ∧
    ((openImage (List.replicate 512 0) false).perform emptyWriteExchange).1 =
      ⟨.successEmpty, [], .success []⟩ := by
  refine ⟨⟨List.replicate (2049 * blockSize) 0, length_replicate, ?_⟩, ?_⟩ <;>
    decide +kernel

end Ryll
