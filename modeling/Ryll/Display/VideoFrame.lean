import Ryll.Foundation.Bytes
import Ryll.Foundation.Raster

/-!
# Video frames in their destination

A decoded frame that is larger than its destination is cropped in its own buffer: each row moves
down to the narrower stride.
-/

namespace Ryll

open List

/-- A frame of a video. -/
structure DecodedFrame where
  rgba : Slice
  width : UInt32
  height : UInt32

def moveRows {length : Nat} (srcStride rowBytes height : Nat) (rgba : FixedBuffer UInt8 length) :
    Outcome Empty (FixedBuffer UInt8 length) :=
  forIndex (fun y rgba => do
    copyRow rgba.items (← mulUsize y srcStride) (← mulUsize y rowBytes) rowBytes rgba)
    1 (height - 1) rgba

def cropFrameToDest (frame : DecodedFrame) (destW destH : UInt32) :
    Outcome Empty (Except String DecodedFrame) := do
  let srcStride ← mulUsize frame.width.toNat 4
  let needed := srcStride * frame.height.toNat
  if 2 ^ 64 ≤ needed ∨ frame.rgba.length < needed then
    return .error
      s!"{frame.width}x{frame.height} frame carries only {frame.rgba.length} bytes of pixels"
  let width := min frame.width destW
  let height := min frame.height destH
  let rowBytes ← mulUsize width.toNat 4
  let pixels : FixedBuffer UInt8 _ := ⟨frame.rgba.bytes, rfl⟩
  let moved ← if width < frame.width then moveRows srcStride rowBytes height.toNat pixels
    else pure pixels
  let size ← mulUsize rowBytes height.toNat
  return .ok ⟨⟨moved.items.take size, Nat.lt_of_le_of_lt
    ((length_take_le' _ _).trans_eq moved.sized) frame.rgba.bounded⟩, width, height⟩

variable {length stride count height : Nat}

/-- A row is read behind the rows that are in place already. -/
theorem moveRows_ensures (rgba : FixedBuffer UInt8 length) (small : length < 2 ^ 63)
    (narrow : count ≤ stride) (sized : height * stride ≤ length) :
    (moveRows stride count height rgba).Ensures fun moved =>
      RowsGathered rgba.items stride 0 count 0 height (moved.items.take (count * height)) := by
  obtain rfl | positive := Nat.eq_zero_or_pos height
  · exact ⟨by simp, nofun⟩
  refine (forIndex_ensures (fun y (moved : FixedBuffer UInt8 length) => ∃ front,
    RowsGathered rgba.items stride 0 count 0 y front ∧
      moved.items = front ++ rgba.items.drop (y * count)) ?_ ?_).mono
    fun moved ⟨front, gathered, items⟩ => ?_
  · rintro y moved - upper ⟨front, gathered, items⟩
    have next : (y + 1) * stride ≤ length :=
      Nat.le_trans (Nat.mul_le_mul_right _ (by omega)) sized
    rw [Nat.succ_mul] at next
    have before : y * count ≤ y * stride := Nat.mul_le_mul_left y narrow
    have start : cellOffset stride (0 + y) 0 = y * stride := by simp [cellOffset]
    have whole := rgba.sized
    have past (more : Nat) :
        moved.items.drop (y * count + more) = rgba.items.drop (y * count + more) := by
      rw [items, ← gathered.length, drop_length_add_append, drop_drop]
    have ahead := past (y * stride - y * count)
    rw [Nat.add_sub_cancel' before] at ahead
    obtain ⟨copied, returned, placed⟩ := @copyRow_ok Empty _ count moved.items _ (y * stride)
      (y * count) moved (by omega) (by omega) (by rw [moved.sized]; omega) (by omega)
    simp (disch := omega) only [mulUsize_ok, ok_bind, returned]
    refine ⟨_, gathered.succ (by omega), placed.trans ?_⟩
    have taken : ((rgba.items.drop (y * stride)).take count).length = count := by
      rw [length_take, length_drop]
      omega
    rw [start, ahead, splice, taken, past, Nat.succ_mul, items, take_left' gathered.length]
  · have first := (Nat.le_mul_of_pos_left stride positive).trans sized
    have none : RowsGathered rgba.items stride 0 count 0 0 [] := ⟨by simp, nofun⟩
    refine ⟨_, none.succ (by rw [cellOffset, rgba.sized]; omega), ?_⟩
    simp [cellOffset]
  · rw [Nat.add_sub_cancel' positive] at gathered
    rwa [items, take_left' (gathered.length.trans (Nat.mul_comm ..))]

theorem rowsGathered_take {pixels : Bytes} (sized : height * stride ≤ pixels.length) :
    RowsGathered pixels stride 0 stride 0 height (pixels.take (stride * height)) := by
  rw [Nat.mul_comm]
  refine ⟨length_take_of_le sized, fun line listed column inside => ?_⟩
  have before := cellOffset_add_le listed (show column + 1 ≤ stride from inside)
  rw [getElem?_take_of_lt before, Nat.zero_add, Nat.zero_add]

/-- A frame is refused exactly when pixels are missing, and otherwise cropped to its top left
corner. -/
theorem frame_cropped (frame : DecodedFrame) (destW destH : UInt32) :
    (frame.rgba.length < frame.width.toNat * frame.height.toNat * 4 ∧
      ∃ message, cropFrameToDest frame destW destH = .ok (.error message)) ∨
    (frame.width.toNat * frame.height.toNat * 4 ≤ frame.rgba.length ∧
      ∃ cropped, cropFrameToDest frame destW destH = .ok (.ok cropped) ∧
        cropped.width = min frame.width destW ∧ cropped.height = min frame.height destH ∧
        RowsGathered frame.rgba.bytes (frame.width.toNat * 4) 0 (cropped.width.toNat * 4) 0
          cropped.height.toNat cropped.rgba.bytes) := by
  have wide := frame.width.toNat_lt
  have width := UInt32.toNat_min frame.width destW
  have height := UInt32.toNat_min frame.height destH
  have bounded : frame.rgba.length < 2 ^ 63 := frame.rgba.bounded
  rw [Nat.mul_right_comm]
  simp (disch := omega) only [cropFrameToDest, mulUsize_ok, ok_bind]
  by_cases short : frame.rgba.length < frame.width.toNat * 4 * frame.height.toNat
  · rw [if_pos (.inr short)]
    exact .inl ⟨short, _, rfl⟩
  rw [if_neg (by omega)]
  refine .inr ⟨by omega, ?_⟩
  have rows : (min frame.height destH).toNat * (frame.width.toNat * 4) ≤ frame.rgba.length := by
    refine Nat.le_trans (Nat.mul_le_mul_right _ ?_) (Nat.mul_comm .. ▸ Nat.le_of_not_lt short)
    omega
  have count : (min frame.width destW).toNat * 4 ≤ frame.width.toNat * 4 := by omega
  have kept := Nat.mul_le_mul_left (min frame.height destH).toNat count
  rw [Nat.mul_comm] at kept
  simp (disch := omega) only [mulUsize_ok, ok_bind]
  by_cases narrower : min frame.width destW < frame.width
  · obtain ⟨moved, returned, gathered⟩ :=
      (moveRows_ensures ⟨frame.rgba.bytes, rfl⟩ bounded count rows).returns
    rw [if_pos narrower, returned]
    exact ⟨_, rfl, rfl, rfl, gathered⟩
  · have same : (min frame.width destW).toNat = frame.width.toNat := by
      rw [UInt32.lt_iff_toNat_lt] at narrower
      omega
    rw [if_neg narrower]
    refine ⟨_, rfl, rfl, rfl, ?_⟩
    simp only [same]
    exact rowsGathered_take rows

end Ryll
