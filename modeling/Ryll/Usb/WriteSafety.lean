import Ryll.Foundation.Runs
import Ryll.Usb.VirtualMsc

/-!
# What a host can change on the virtual disk

The data phase of a write begins with its accepted command and ends with the last byte it
announced, or with a reset.  As long as no packet overshoots that phase and no class reset cuts it
short, only its bytes reach the image.
-/

namespace Ryll

open List VirtualMsc

/-! ## The image file -/

theorem writeFile_inside {file data : Bytes} {offset : Nat}
    (inside : offset + data.length ≤ file.length) :
    writeFile file offset data = splice file offset data := by
  rw [writeFile]
  split
  · next empty =>
    rw [empty, splice, append_nil]
    exact (take_append_drop offset file).symm
  · rw [Nat.sub_eq_zero_of_le (by omega), replicate_zero, append_nil]

/-- A failed command has no data, and the length of the data of any other fits the wrapper. -/
def ScsiResult.Plain (result : ScsiResult) : Prop :=
  (result.status ≠ 0 → result.data = []) ∧ result.data.length < 2 ^ 32

namespace VirtualMsc

/-! ## Commands -/

/-- The command is a write that is accepted. -/
def Accepts (device : VirtualMsc) (cbw : Cbw) : Prop :=
  cbw.opcode = Ryll.scsiWrite10 ∧ device.readOnly = false ∧
    cbw.transferBlocks ≤ maxTransferBlocks ∧ cbw.lba + cbw.transferBlocks ≤ device.blockCount

instance (device : VirtualMsc) (cbw : Cbw) : Decidable (device.Accepts cbw) :=
  inferInstanceAs (Decidable (_ ∧ _ ∧ _ ∧ _))

def awaiting (device : VirtualMsc) (cbw : Cbw) : VirtualMsc :=
  { device with
    botState := .dataOut cbw.tag cbw.lba (cbw.transferBlocks * blockSize)
    writeBuf := [] }

variable {device : VirtualMsc} {cbw : Cbw} {result : ScsiResult}

theorem executeScsi_of_accepts (accepts : device.Accepts cbw) (answer : FileAnswer) :
    device.executeScsi cbw answer = (.goodEmpty, device.awaiting cbw) := by
  rw [executeScsi, show cbw.cb[0] = _ from accepts.1]
  obtain ⟨-, writable, small, inside⟩ := accepts
  change device.scsiWrite10 cbw = _
  rw [scsiWrite10, writable, if_neg (by decide), if_neg (Nat.not_lt.mpr small),
    if_neg (Nat.not_lt.mpr inside), awaiting, writable]

theorem plain_good {data : Bytes} (small : data.length < 2 ^ 32) : (ScsiResult.good data).Plain :=
  ⟨fun failed => absurd rfl failed, small⟩

theorem plain_checkCondition (key asc ascq : UInt8) :
    (ScsiResult.checkCondition key asc ascq).Plain :=
  ⟨fun _ => rfl, Nat.two_pow_pos 32⟩

theorem scsiRead10_plain (device : VirtualMsc) (cbw : Cbw) (answer : FileAnswer) :
    (device.scsiRead10 cbw answer).Plain := by
  unfold scsiRead10
  split
  · exact plain_checkCondition ..
  split
  · exact plain_checkCondition ..
  split
  · next few _ _ data read =>
    refine plain_good ?_
    cases answer with
    | failed written => cases read
    | done =>
      obtain ⟨-, ⟨⟩⟩ := Option.ite_none_right_eq_some.mp read
      have blocks : cbw.transferBlocks ≤ 2048 := Nat.not_lt.mp few
      rw [length_take, blockSize]
      omega
  · exact plain_checkCondition ..

theorem executeScsi_of_not_accepts (other : ¬device.Accepts cbw) (answer : FileAnswer) :
    ∃ result sense, device.executeScsi cbw answer = (result, { device with sense }) ∧
      result.Plain := by
  unfold executeScsi
  dsimp only
  split
  · exact ⟨_, device.sense, rfl, plain_good (by decide)⟩
  split
  · refine ⟨_, _, rfl, plain_good ?_⟩
    rw [length_take]
    exact Nat.lt_of_le_of_lt (Nat.min_le_right _ _) (show 18 < 2 ^ 32 by decide)
  split
  · refine ⟨_, device.sense, rfl, plain_good ?_⟩
    rw [length_take]
    exact Nat.lt_of_le_of_lt (Nat.min_le_right _ _) (by decide +kernel)
  split
  · exact ⟨_, device.sense, rfl, plain_good (show 4 < 2 ^ 32 by decide)⟩
  split
  · exact ⟨_, device.sense, rfl, plain_good (by decide)⟩
  split
  · refine ⟨_, device.sense, rfl, plain_good ?_⟩
    rw [length_append, length_toBigEndian, length_toBigEndian]
    decide
  split
  · exact ⟨_, device.sense, rfl, scsiRead10_plain device cbw answer⟩
  split
  · next write =>
    rw [scsiWrite10]
    split
    · exact ⟨_, device.sense, rfl, plain_checkCondition ..⟩
    split
    · exact ⟨_, device.sense, rfl, plain_checkCondition ..⟩
    split
    · exact ⟨_, device.sense, rfl, plain_checkCondition ..⟩
    · next writable small inside =>
      refine absurd ⟨write, ?_, Nat.not_lt.mp small, Nat.not_lt.mp inside⟩ other
      simpa using writable
  · exact ⟨_, device.sense, rfl, plain_checkCondition ..⟩

theorem conclude_rest (device : VirtualMsc) (cbw : Cbw) (result : ScsiResult) :
    (device.conclude cbw result).botState.isDataOut = false ∧
      (device.conclude cbw result).file = device.file ∧
      (device.conclude cbw result).readOnly = device.readOnly ∧
      (device.conclude cbw result).blockCount = device.blockCount := by
  by_cases reply : result.data ≠ [] ∧ cbw.directionIn = true
  · rw [show device.conclude cbw result = _ from if_pos reply]
    exact ⟨rfl, rfl, rfl, rfl⟩
  · rw [show device.conclude cbw result = _ from if_neg reply]
    exact ⟨rfl, rfl, rfl, rfl⟩

/-! ## The data of a write -/

section Data

variable {device : VirtualMsc} {data : Bytes} {remaining : Nat}

theorem handleDataOut_unfinished (partially : (device.writeBuf ++ data).length < remaining)
    (tag : UInt32) (lba : Nat) (answer : FileAnswer) :
    device.handleDataOut tag lba remaining data answer =
      (.successEmpty, { device with writeBuf := device.writeBuf ++ data }) :=
  if_neg (Nat.not_le.mpr partially)

section

variable (complete : remaining ≤ (device.writeBuf ++ data).length) (tag : UInt32)
include complete tag

theorem handleDataOut_done (lba : Nat) :
    device.handleDataOut tag lba remaining data .done = (.successEmpty, { device with
      file := writeFile device.file (lba * blockSize) (device.writeBuf ++ data)
      writeBuf := []
      pendingCsw := buildCsw tag 0 cswStatusPassed
      botState := .status }) :=
  if_pos complete

theorem handleDataOut_failed (lba written : Nat) :
    device.handleDataOut tag lba remaining data (.failed written) = (.successEmpty, { device with
      file := writeFile device.file (lba * blockSize) ((device.writeBuf ++ data).take written)
      writeBuf := []
      sense := ⟨senseMediumError, 0x03, 0x00⟩
      pendingCsw := buildCsw tag (.ofNat remaining) cswStatusFailed
      botState := .status }) :=
  if_pos complete

theorem handleDataOut_complete (lba : Nat) (answer : FileAnswer) :
    ∃ bytes, bytes <+: device.writeBuf ++ data ∧
      (device.handleDataOut tag lba remaining data answer).2.file =
        writeFile device.file (lba * blockSize) bytes ∧
      (device.handleDataOut tag lba remaining data answer).2.botState = .status ∧
      (device.handleDataOut tag lba remaining data answer).2.readOnly = device.readOnly ∧
      (device.handleDataOut tag lba remaining data answer).2.blockCount = device.blockCount := by
  cases answer with
  | done =>
    rw [handleDataOut_done complete]
    exact ⟨_, prefix_refl _, rfl, rfl, rfl, rfl⟩
  | failed written =>
    rw [handleDataOut_failed complete]
    exact ⟨_, take_prefix written _, rfl, rfl, rfl, rfl⟩

end

end Data

end VirtualMsc

/-! ## Data phases -/

/-- The data phase of a write. -/
structure WritePhase where
  lba : Nat
  blocks : Nat
  sent : Bytes

/-- A byte of the image belongs to a block of the write. -/
def WritePhase.Covers (phase : WritePhase) (index : Nat) : Prop :=
  phase.lba ≤ index / blockSize ∧ index / blockSize < phase.lba + phase.blocks

/-- A request to the device. -/
inductive UsbRequest
  | bulkOut (endpoint : UInt8) (data : Bytes) (answer : FileAnswer)
  | bulkIn (endpoint : UInt8) (maxLen : Nat)
  | control (setup : ControlSetup) (data : Bytes)
  | reset

/-- A write that expects data expects at least this many bytes in all. -/
def BotState.Admits (state : BotState) (count : Nat) : Prop :=
  match state with
  | .dataOut _ _ remaining => count ≤ remaining
  | _ => True

instance (count : Nat) : ∀ state : BotState, Decidable (state.Admits count)
  | .dataOut _ _ remaining => inferInstanceAs (Decidable (count ≤ remaining))
  | .idle | .dataIn | .status => inferInstanceAs (Decidable True)

def ControlSetup.isBulkOnlyReset (setup : ControlSetup) : Bool :=
  (setup.requestType >>> 5) &&& 3 = 1 ∧ setup.request = mscReqBulkOnlyReset

/-- The device with its data phases. -/
structure MscWorld where
  device : VirtualMsc
  current : Option WritePhase
  /-- The data phases in which all bytes were sent, latest first (history). -/
  finished : List WritePhase

namespace MscWorld

def create (image : Bytes) (readOnly : Bool) : MscWorld :=
  ⟨.openImage image readOnly, none, []⟩

variable (world : MscWorld)

/-- A packet on the bulk OUT endpoint belongs to the data phase in progress, or is a command. -/
def note (data : Bytes) : Option WritePhase × List WritePhase :=
  match world.current with
  | some phase =>
    let phase := { phase with sent := phase.sent ++ data }
    if phase.sent.length < phase.blocks * blockSize then (some phase, world.finished)
    else (none, phase :: world.finished)
  | none =>
    match Cbw.parse data with
    | some cbw =>
      if world.device.botState = .idle ∧ world.device.Accepts cbw ∧ 0 < cbw.transferBlocks then
        (some ⟨cbw.lba, cbw.transferBlocks, []⟩, world.finished)
      else (none, world.finished)
    | none => (none, world.finished)

def step : UsbRequest → MscWorld
  | .bulkOut endpoint data answer =>
    let device := (world.device.bulkOut endpoint data answer).2
    if endpoint = epBulkOut then
      let (current, finished) := world.note data
      { device, current, finished }
    else { world with device }
  | .bulkIn endpoint maxLen => { world with device := (world.device.bulkIn endpoint maxLen).2 }
  | .control setup _ =>
    { world with current := if setup.isBulkOnlyReset then none else world.current }
  | .reset => { world with device := world.device.reset, current := none }

def run (requests : List UsbRequest) : MscWorld := requests.foldl step world

/-- While the device expects data, no packet has more than is missing and no class reset comes. -/
def Orderly : UsbRequest → Prop
  | .bulkOut endpoint data _ => endpoint = epBulkOut →
      world.device.botState.Admits (world.device.writeBuf.length + data.length)
  | .control setup _ => setup.isBulkOnlyReset → world.device.botState.isDataOut = false
  | _ => True

instance (world : MscWorld) : ∀ request, Decidable (world.Orderly request)
  | .bulkOut _ _ _ | .control _ _ => inferInstanceAs (Decidable (_ → _))
  | .bulkIn _ _ | .reset => inferInstanceAs (Decidable True)

/-- Every request of a run is orderly. -/
abbrev OrderlyRun (requests : List UsbRequest) : Prop := Meets (total step) Orderly world requests

/-- A byte changes only to one that was sent for it in the data phase of a write of its block. -/
def Confines (before after : MscWorld) : Prop :=
  ∀ index, after.device.file[index]? ≠ before.device.file[index]? →
    ∃ phase ∈ after.finished, phase.Covers index ∧
      after.device.file[index]? = phase.sent[index - phase.lba * blockSize]?

/-- The device expects what is left of the data phase in progress, or nothing. -/
def Expects (lba remaining : Nat) : Prop :=
  (∃ blocks, remaining = blocks * blockSize ∧ world.device.writeBuf.length < remaining ∧
    world.current = some ⟨lba, blocks, world.device.writeBuf⟩) ∨
  remaining = 0 ∧ world.device.writeBuf = [] ∧ world.current = none

/-- What holds throughout orderly requests to a device on an image. -/
structure Linked (image : Bytes) (locked : Bool) (world : MscWorld) : Prop where
  readOnly : world.device.readOnly = locked
  blockCount : world.device.blockCount = image.length / blockSize
  sized : world.device.file.length = image.length
  /-- A read-only image keeps its contents. -/
  untouched : locked = true → world.device.file = image
  expecting : ∀ tag lba remaining, world.device.botState = .dataOut tag lba remaining →
    locked = false ∧ lba * blockSize + remaining ≤ image.length ∧ world.Expects lba remaining
  settled : world.device.botState.isDataOut = false → world.current = none

theorem Confines.of_same_file {before after : MscWorld}
    (same : after.device.file = before.device.file) : before.Confines after :=
  fun index changed => absurd (by rw [same]) changed

section Step

variable {image : Bytes} {locked : Bool} {world : MscWorld}

theorem create_linked (image : Bytes) (locked : Bool) :
    (create image locked).Linked image locked :=
  ⟨rfl, rfl, rfl, fun _ => rfl, nofun, fun _ => rfl⟩

theorem Linked.rest (linked : world.Linked image locked) {device : VirtualMsc}
    (readOnly : device.readOnly = world.device.readOnly)
    (blockCount : device.blockCount = world.device.blockCount)
    (file : device.file = world.device.file) (resting : device.botState.isDataOut = false) :
    Linked image locked { world with device, current := none } where
  readOnly := readOnly.trans linked.readOnly
  blockCount := blockCount.trans linked.blockCount
  sized := file ▸ linked.sized
  untouched whole := file.trans (linked.untouched whole)
  expecting tag lba remaining state := by
    rw [state] at resting
    cases resting
  settled _ := rfl

variable {data : Bytes}

theorem note_of_not_accepted (outside : world.current = none)
    (other : ∀ cbw, Cbw.parse data = some cbw → world.device.botState = .idle →
      ¬world.device.Accepts cbw) : world.note data = (none, world.finished) := by
  rw [note, outside]
  dsimp only
  split
  · next cbw parsed =>
    rw [if_neg]
    rintro ⟨idle, accepts, -⟩
    exact other cbw parsed idle accepts
  · rfl

theorem Linked.command (linked : world.Linked image locked)
    (idle : world.device.botState = .idle) (data : Bytes) (answer : FileAnswer) :
    Linked image locked ⟨(world.device.handleCbw data answer).2, (world.note data).1,
      (world.note data).2⟩ ∧ (world.device.handleCbw data answer).2.file = world.device.file := by
  have outside : world.current = none := linked.settled (by rw [idle]; rfl)
  unfold handleCbw
  cases parsed : Cbw.parse data with
  | none =>
    rw [note_of_not_accepted outside (by simp [parsed])]
    exact ⟨linked.rest rfl rfl rfl (by rw [idle]; rfl), rfl⟩
  | some cbw =>
    dsimp only
    by_cases accepts : world.device.Accepts cbw
    · rw [executeScsi_of_accepts accepts]
      refine ⟨?_, rfl⟩
      have ⟨_, writable, _, inside⟩ := accepts
      have room : (cbw.lba + cbw.transferBlocks) * blockSize ≤ image.length := by
        rw [linked.blockCount] at inside
        exact Nat.le_trans (Nat.mul_le_mul_right blockSize inside) (Nat.div_mul_le_self _ _)
      refine { linked with expecting := ?_, settled := nofun }
      intro tag lba remaining state
      injection state with _ same_lba same_remaining
      subst same_lba same_remaining
      refine ⟨linked.readOnly.symm.trans writable, by rw [← Nat.add_mul]; exact room, ?_⟩
      have noted : world.note data = (if 0 < cbw.transferBlocks then
          some ⟨cbw.lba, cbw.transferBlocks, []⟩ else none, world.finished) := by
        rw [note, outside]
        simp only [parsed, idle, accepts, true_and]
        split <;> rfl
      rw [noted]
      by_cases some_blocks : 0 < cbw.transferBlocks
      · left
        refine ⟨cbw.transferBlocks, rfl, ?_, if_pos some_blocks⟩
        exact Nat.mul_pos some_blocks (by decide)
      · right
        refine ⟨?_, rfl, if_neg some_blocks⟩
        rw [Nat.eq_zero_of_not_pos some_blocks, Nat.zero_mul]
    obtain ⟨result, sense, executed, -⟩ := executeScsi_of_not_accepts accepts answer
    have unaccepted : ∀ other, Cbw.parse data = some other →
        world.device.botState = .idle → ¬world.device.Accepts other := by
      intro other found _
      rw [parsed] at found
      exact Option.some.inj found ▸ accepts
    have undisturbed : ¬({ world.device with sense } : VirtualMsc).botState.isDataOut := by
      simp [idle, BotState.isDataOut]
    obtain ⟨resting, file, readOnly, blockCount⟩ :=
      conclude_rest { world.device with sense } cbw result
    rw [executed, note_of_not_accepted outside unaccepted]
    rw [if_neg undisturbed]
    exact ⟨linked.rest readOnly blockCount file resting, file⟩

theorem Expects.note_complete {lba remaining : Nat} (expects : world.Expects lba remaining)
    (exact : (world.device.writeBuf ++ data).length = remaining) :
    world.note data = (none, world.finished) ∧ world.device.writeBuf ++ data = [] ∨
    ∃ blocks, remaining = blocks * blockSize ∧
      world.note data = (none, ⟨lba, blocks, world.device.writeBuf ++ data⟩ :: world.finished) := by
  rcases expects with ⟨blocks, rfl, -, current⟩ | ⟨rfl, empty, outside⟩
  · right
    refine ⟨blocks, rfl, ?_⟩
    rw [note, current]
    exact if_neg (by dsimp only; omega)
  · left
    have nothing := eq_nil_of_length_eq_zero exact
    refine ⟨note_of_not_accepted outside fun cbw parsed => ?_, nothing⟩
    rw [(append_eq_nil_iff.mp nothing).2] at parsed
    cases parsed

section

variable (linked : world.Linked image locked)
include linked

theorem Linked.receive {tag : UInt32} {lba remaining : Nat}
    (state : world.device.botState = .dataOut tag lba remaining)
    (short : world.device.writeBuf.length + data.length ≤ remaining) (answer : FileAnswer) :
    Linked image locked ⟨(world.device.handleDataOut tag lba remaining data answer).2,
      (world.note data).1, (world.note data).2⟩ ∧
    world.Confines ⟨(world.device.handleDataOut tag lba remaining data answer).2,
      (world.note data).1, (world.note data).2⟩ := by
  obtain ⟨writable, inside, expects⟩ := linked.expecting tag lba remaining state
  rw [← length_append] at short
  by_cases complete : remaining ≤ (world.device.writeBuf ++ data).length
  · obtain ⟨bytes, sent, file, resting, readOnly, blockCount⟩ :=
      handleDataOut_complete complete tag lba answer
    have fits : lba * blockSize + bytes.length ≤ world.device.file.length := by
      have := sent.length_le
      rw [linked.sized]
      omega
    have noted := expects.note_complete (Nat.le_antisymm short complete)
    constructor
    · refine ⟨readOnly.trans linked.readOnly, blockCount.trans linked.blockCount, ?_, ?_, ?_, ?_⟩
      · rw [file, writeFile_inside fits, length_splice fits, linked.sized]
      · rw [writable]
        exact nofun
      · intro _ _ _ again
        rw [resting] at again
        cases again
      · rcases noted with ⟨noted, -⟩ | ⟨blocks, -, noted⟩ <;> exact fun _ => by rw [noted]
    · intro index changed
      rw [file, writeFile_inside fits, getElem?_splice fits] at changed ⊢
      split at changed
      · next here =>
        rw [if_pos here]
        rcases noted with ⟨-, empty⟩ | ⟨blocks, rfl, noted⟩
        · rw [empty, prefix_nil] at sent
          simp [sent] at here
          omega
        have bound := sent.length_le
        rw [noted]
        refine ⟨_, mem_cons_self, ⟨?_, ?_⟩, ?_⟩
        · exact (Nat.le_div_iff_mul_le (by decide)).mpr here.1
        · apply (Nat.div_lt_iff_lt_mul (by decide)).mpr
          dsimp only
          rw [Nat.add_mul]
          omega
        · obtain ⟨rest, joined⟩ := sent
          dsimp only
          rw [← joined, getElem?_append_left (by omega)]
      · exact absurd rfl changed
  · rw [handleDataOut_unfinished (Nat.not_le.mp complete)]
    rcases expects with ⟨blocks, rfl, -, current⟩ | ⟨rfl, -, -⟩
    · have noted : world.note data =
          (some ⟨lba, blocks, world.device.writeBuf ++ data⟩, world.finished) := by
        rw [note, current]
        exact if_pos (Nat.not_le.mp complete)
      rw [noted]
      refine ⟨{ linked with expecting := ?_, settled := ?_ },
        .of_same_file rfl⟩
      · intro tag' lba' remaining' again
        rw [state] at again
        injection again with _ same_lba same_remaining
        subst same_lba same_remaining
        exact ⟨writable, inside, .inl ⟨blocks, rfl, Nat.not_le.mp complete, rfl⟩⟩
      · rw [state]
        exact nofun
    · exact absurd (Nat.zero_le _) complete

theorem Linked.refuse (resting : world.device.botState.isDataOut = false)
    (busy : world.device.botState ≠ .idle) (data : Bytes) :
    Linked image locked ⟨world.device, (world.note data).1, (world.note data).2⟩ := by
  rw [note_of_not_accepted (linked.settled resting) fun _ _ idle => absurd idle busy]
  exact linked.rest rfl rfl rfl resting

theorem Linked.send (maxLen : Nat) :
    Linked image locked { world with device := (world.device.handleBulkIn maxLen).2 } ∧
      (world.device.handleBulkIn maxLen).2.file = world.device.file := by
  rw [handleBulkIn]
  cases state : world.device.botState with
  | idle | dataOut tag lba remaining => exact ⟨linked, rfl⟩
  | dataIn =>
    have outside : world.current = none := linked.settled (by rw [state]; rfl)
    dsimp only
    rw [outside]
    refine ⟨linked.rest rfl rfl rfl ?_, rfl⟩
    split <;> rfl
  | status =>
    have outside : world.current = none := linked.settled (by rw [state]; rfl)
    rw [outside]
    exact ⟨linked.rest rfl rfl rfl rfl, rfl⟩

theorem Linked.step {request : UsbRequest} (orderly : world.Orderly request) :
    (world.step request).Linked image locked ∧ world.Confines (world.step request) := by
  cases request with
  | bulkOut endpoint data answer =>
    rw [MscWorld.step, bulkOut]
    by_cases out : endpoint = epBulkOut
    · simp only [out, ne_eq, not_true_eq_false, if_false, if_true]
      rw [handleBulkOut]
      cases state : world.device.botState with
      | idle =>
        obtain ⟨next, file⟩ := linked.command state data answer
        exact ⟨next, .of_same_file file⟩
      | dataOut tag lba remaining =>
        have admitted := orderly out
        rw [state] at admitted
        exact linked.receive state admitted answer
      | dataIn | status =>
        have next := linked.refuse (by rw [state]; rfl) (by rw [state]; exact nofun) data
        exact ⟨next, .of_same_file rfl⟩
    · simp only [out, ne_eq, not_false_eq_true, if_false, if_true]
      exact ⟨linked, .of_same_file rfl⟩
  | bulkIn endpoint maxLen =>
    rw [MscWorld.step, bulkIn]
    split
    · exact ⟨linked, .of_same_file rfl⟩
    · obtain ⟨next, file⟩ := linked.send maxLen
      exact ⟨next, .of_same_file file⟩
  | control setup data =>
    refine ⟨?_, .of_same_file rfl⟩
    rw [MscWorld.step]
    split
    · next reset => exact linked.rest rfl rfl rfl (orderly reset)
    · exact linked
  | reset => exact ⟨linked.rest rfl rfl rfl rfl, .of_same_file rfl⟩

end

end Step

/-- A read-only device holds its image and expects no data. -/
structure Locked (image : Bytes) (device : VirtualMsc) : Prop where
  readOnly : device.readOnly = true
  file : device.file = image
  resting : device.botState.isDataOut = false

variable {image : Bytes}

theorem Locked.command {device : VirtualMsc} (locked : Locked image device) (data : Bytes)
    (answer : FileAnswer) : Locked image (device.handleCbw data answer).2 := by
  unfold handleCbw
  cases Cbw.parse data with
  | none => exact locked
  | some cbw =>
    have other : ¬device.Accepts cbw := fun accepts =>
      Bool.false_ne_true (accepts.2.1.symm.trans locked.readOnly)
    obtain ⟨result, sense, executed, -⟩ := executeScsi_of_not_accepts other answer
    obtain ⟨resting, file, readOnly, -⟩ := conclude_rest { device with sense } cbw result
    dsimp only
    rw [executed, if_neg (by rw [locked.resting]; decide)]
    exact ⟨readOnly.trans locked.readOnly, file.trans locked.file, resting⟩

theorem Locked.step {world : MscWorld} (locked : Locked image world.device)
    (request : UsbRequest) : Locked image (world.step request).device := by
  cases request with
  | bulkOut endpoint data answer =>
    have kept : Locked image (world.device.bulkOut endpoint data answer).2 := by
      rw [bulkOut]
      split
      · exact locked
      rw [handleBulkOut]
      cases state : world.device.botState with
      | idle => exact locked.command data answer
      | dataOut tag lba remaining =>
        have resting := locked.resting
        rw [state] at resting
        cases resting
      | dataIn | status => exact locked
    rw [MscWorld.step]
    split <;> exact kept
  | bulkIn endpoint maxLen =>
    rw [MscWorld.step, bulkIn]
    split
    · exact locked
    rw [handleBulkIn]
    cases world.device.botState with
    | idle | dataOut tag lba remaining => exact locked
    | dataIn =>
      refine ⟨locked.readOnly, locked.file, ?_⟩
      dsimp only
      split <;> rfl
    | status => exact ⟨locked.readOnly, locked.file, rfl⟩
  | control setup data => exact locked
  | reset => exact ⟨locked.readOnly, locked.file, rfl⟩

theorem Locked.run {world : MscWorld} (locked : Locked image world.device)
    (requests : List UsbRequest) : Locked image (world.run requests).device := by
  induction requests generalizing world with
  | nil => exact locked
  | cons request requests ih => exact ih (locked.step request)

/-- Whatever a host sends to a read-only device, and in whatever order, the image stays as it is. -/
theorem read_only_image_kept (image : Bytes) (requests : List UsbRequest) :
    ((create image true).run requests).device.file = image :=
  have opened : Locked image (create image true).device := ⟨rfl, rfl, rfl⟩
  (opened.run requests).file

/-- After orderly requests, another keeps the size of the image and a read-only image, and changes
other bytes only as the data phase of a write says. -/
theorem run_confined (image : Bytes) (readOnly : Bool) (requests : List UsbRequest)
    (request : UsbRequest) (orderly : (create image readOnly).OrderlyRun (requests ++ [request])) :
    ((create image readOnly).run (requests ++ [request])).device.file.length = image.length ∧
    (readOnly = true → ((create image readOnly).run (requests ++ [request])).device.file = image) ∧
    ((create image readOnly).run requests).Confines
      ((create image readOnly).run (requests ++ [request])) := by
  have linked : ((create image readOnly).run requests).Linked image readOnly :=
    foldl_invariant (fun _ _ linked orderly => (linked.step orderly).1)
      (create_linked image readOnly) orderly.left
  obtain ⟨next, confines⟩ := linked.step (orderly.right (run_total _ _ _)).1
  rw [run, foldl_append]
  exact ⟨next.sized, next.untouched, confines⟩

def makeCbw (tag transferLen : UInt32) (directionIn : Bool) (cdb : Bytes) : Bytes :=
  toLittleEndian 4 cbwSignature ++ toLittleEndian 4 tag.toNat ++
    toLittleEndian 4 transferLen.toNat ++
    [if directionIn then 0x80 else 0x00, 0, .ofNat (min cdb.length 16)] ++ cdb.take 16 ++
    List.replicate (16 - cdb.length) 0

def writeSecondBlock : List UsbRequest :=
  [.bulkOut epBulkOut (makeCbw 1 512 false [0x2A, 0, 0, 0, 0, 1, 0, 0, 1, 0]) .done,
    .bulkOut epBulkOut (List.replicate 500 7) .done, .bulkIn epBulkIn 13]

theorem second_block_confined :
    ((create (List.replicate 1024 0) false).run writeSecondBlock).Confines
      ((create (List.replicate 1024 0) false).run
        (writeSecondBlock ++ [.bulkOut epBulkOut (List.replicate 12 8) .done])) :=
  (run_confined (List.replicate 1024 0) false writeSecondBlock
    (.bulkOut epBulkOut (List.replicate 12 8) .done) (by decide +kernel)).2.2

def overshootingWrite : List UsbRequest :=
  [.bulkOut epBulkOut (makeCbw 1 512 false [0x2A, 0, 0, 0, 0, 0, 0, 0, 1, 0]) .done,
    .bulkOut epBulkOut (List.replicate 513 7) .done]

def emptyWrite : List UsbRequest :=
  [.bulkOut epBulkOut (makeCbw 1 0 false [0x2A, 0, 0, 0, 0, 0, 0, 0, 0, 0]) .done,
    .bulkIn epBulkIn 13, .bulkOut epBulkOut (makeCbw 2 0 false [0x00]) .done]

def abandonedWrite : List UsbRequest :=
  [.bulkOut epBulkOut (makeCbw 1 512 false [0x2A, 0, 0, 0, 0, 0, 0, 0, 1, 0]) .done,
    .control ⟨0x21, mscReqBulkOnlyReset, 0, 0⟩ [],
    .bulkOut epBulkOut (makeCbw 2 512 false [0x2A, 0, 0, 0, 0, 0, 0, 0, 1, 0]) .done,
    .bulkOut epBulkOut (List.replicate 481 7) .done]

/-- A packet that overshoots makes the image longer, and after a write of no blocks, or a class
reset in a data phase, the next command is written to it. -/
theorem overshoot_and_commands_written :
    ((create (List.replicate 512 0) false).run overshootingWrite).device.file.length = 513 ∧
    ((create (List.replicate 512 0) false).run emptyWrite).device.file.take 4 =
      [0x55, 0x53, 0x42, 0x43] ∧
    ((create (List.replicate 512 0) false).run emptyWrite).finished = [] ∧
    ((create (List.replicate 512 0) false).run abandonedWrite).device.file.take 4 =
      [0x55, 0x53, 0x42, 0x43] ∧
    ((create (List.replicate 512 0) false).run abandonedWrite).finished = [] := by
  decide +kernel

end MscWorld

end Ryll
