import Ryll.Usb.BlockDevice

/-!
# Transfer lengths and resets of the virtual disk

The device takes the length of its data from the command and not from the wrapper around it, so
only a host whose wrappers agree with its commands gets what it asked for.  A reset of the
redirection protocol makes the device new; a reset requested of its class does nothing.
-/

namespace Ryll

open VirtualMsc

/-! ## Control requests -/

namespace VirtualMsc

variable (device : VirtualMsc) (exchange : Exchange)

/-- How many bytes of a write the device takes. -/
def taken : Nat :=
  if device.Accepts exchange.cbw ∧ exchange.answer.works then exchange.packets.flatten.length else 0

/-- A write announces exactly its blocks, of which there are some; other commands announce at least
their data, or go outward with no data or none announced. -/
def Agrees : Prop :=
  let data := (device.executeScsi exchange.cbw exchange.answer).1.data
  let announced := exchange.cbw.dataTransferLength.toNat
  if device.Accepts exchange.cbw then
    0 < exchange.cbw.transferBlocks ∧ announced = exchange.cbw.transferBlocks * blockSize
  else if exchange.cbw.directionIn then data.length ≤ announced
  else data = [] ∨ announced = 0

instance : Decidable (device.Agrees exchange) := by
  unfold Agrees
  infer_instance

variable {device exchange}

section

variable (idle : device.botState = .idle)
include idle

end

end VirtualMsc

namespace MscWorld

theorem step_keeps (world : MscWorld) (request : UsbRequest) :
    (world.step request).device.readOnly = world.device.readOnly ∧
      (world.step request).device.blockCount = world.device.blockCount := by
  cases request with
  | bulkOut endpoint data answer =>
    have kept : (world.device.bulkOut endpoint data answer).2.readOnly = world.device.readOnly ∧
        (world.device.bulkOut endpoint data answer).2.blockCount = world.device.blockCount := by
      rw [bulkOut, handleBulkOut]
      split
      · exact ⟨rfl, rfl⟩
      split
      · rw [handleCbw]
        split
        · exact ⟨rfl, rfl⟩
        · next cbw _ =>
          by_cases accepts : world.device.Accepts cbw
          · rw [executeScsi_of_accepts accepts]
            exact ⟨rfl, rfl⟩
          · obtain ⟨result, sense, executed, -⟩ :=
              executeScsi_of_not_accepts accepts answer
            rw [executed]
            dsimp only
            split
            · exact ⟨rfl, rfl⟩
            · exact (conclude_rest _ cbw result).2.2
      · next tag lba remaining _ =>
        by_cases complete : remaining ≤ (world.device.writeBuf ++ data).length
        · obtain ⟨-, -, -, -, kept⟩ := handleDataOut_complete complete tag lba answer
          exact kept
        · rw [handleDataOut_unfinished (Nat.not_le.mp complete)]
          exact ⟨rfl, rfl⟩
      · exact ⟨rfl, rfl⟩
    rw [step]
    dsimp only
    split <;> exact kept
  | bulkIn endpoint maxLen =>
    rw [step, bulkIn, handleBulkIn]
    split
    · exact ⟨rfl, rfl⟩
    split <;> exact ⟨rfl, rfl⟩
  | _ => exact ⟨rfl, rfl⟩

theorem run_keeps (world : MscWorld) (requests : List UsbRequest) :
    (world.run requests).device.readOnly = world.device.readOnly ∧
      (world.run requests).device.blockCount = world.device.blockCount := by
  induction requests generalizing world with
  | nil => exact ⟨rfl, rfl⟩
  | cons request requests ih =>
    have kept := world.step_keeps request
    exact ⟨(ih _).1.trans kept.1, (ih _).2.trans kept.2⟩

/-- After a reset the device is as freshly opened, unless the image has gained whole blocks since.
After a class reset it is that only if it was before. -/
theorem reset_reopens {image : Bytes} {readOnly : Bool} {requests : List UsbRequest}
    (whole : ((create image readOnly).run requests).device.file.length / blockSize =
      image.length / blockSize) : ((create image readOnly).run (requests ++ [.reset])).device =
      .openImage ((create image readOnly).run requests).device.file readOnly ∧
    ∀ setup data, setup.isBulkOnlyReset →
      (((create image readOnly).run (requests ++ [.control setup data])).device =
          .openImage ((create image readOnly).run requests).device.file readOnly ↔
        ((create image readOnly).run requests).device =
          .openImage ((create image readOnly).run requests).device.file readOnly) := by
  have kept := (create image readOnly).run_keeps requests
  constructor
  · rw [run, List.foldl_append]
    change reset ((create image readOnly).run requests).device = _
    rw [openImage, whole]
    simp only [reset, resetBot, kept]
    rfl
  · intro setup data _
    rw [run, List.foldl_append]
    rfl

/-- A reset between the parts of the data of a write. -/
theorem abandoned_reopened :
    ((create (List.replicate 1024 0) false).run (writeSecondBlock ++ [.reset])).device =
      .openImage (List.replicate 1024 0) false := by
  have reopened := @reset_reopens (List.replicate 1024 0) false writeSecondBlock (by decide +kernel)
  rw [reopened.1]
  decide +kernel

/-- A class reset in a data phase takes the next command as data, and one before the status was
collected returns the old status. -/
theorem class_reset_ignored : ((create (List.replicate 512 0) false).run
      [.bulkOut epBulkOut (makeCbw 1 512 false [0x2A, 0, 0, 0, 0, 0, 0, 0, 1, 0]) .done,
        .control ⟨0x21, mscReqBulkOnlyReset, 0, 0⟩ [],
        .bulkOut epBulkOut (makeCbw 2 0 false [0x00]) .done]).device.botState = .dataOut 1 0 512 ∧
    (((create (List.replicate 512 0) false).run
      [.bulkOut epBulkOut (makeCbw 1 0 false [0x00]) .done,
        .control ⟨0x21, mscReqBulkOnlyReset, 0, 0⟩ []]).device.bulkIn epBulkIn 13).1 =
          .success (buildCsw 1 0 cswStatusPassed) := by
  decide +kernel

end MscWorld

end Ryll
