import Ryll.Compression.LzBlocks
import Ryll.Foundation.RowOrder

/-!
# From the output buffer to the image

A stream may store its rows from the bottom.  Both decoders then reverse the rows of the finished
buffer before they make an image of it.
-/

namespace Ryll

open List

variable {ε : Type}

def flipRow (rowBytes height : Nat) (output : Bytes) (y : Nat) (flipped : Bytes) :
    Outcome ε Bytes := do
  let src ← mulUsize y rowBytes
  let mirrored ← subChecked (← subChecked height 1) y
  let dst ← mulUsize mirrored rowBytes
  let row ← sliceOf output src (← addUsize src rowBytes)
  copyFromSlice flipped dst (← addUsize dst rowBytes) row

def flipRows (width height : Nat) (output : Bytes) : Outcome ε Bytes := do
  let rowBytes ← mulUsize width 4
  forIndex (flipRow rowBytes height output) 0 height (List.replicate output.length 0)

variable {output : Bytes} {pixels : List Rgba} {height width : Nat}

/-- After `y` rows the buffer ends with those rows in reverse, behind untouched zeros. -/
theorem flipRow_mirrorRows {rowBytes : Nat} (sized : output.length = height * rowBytes)
    (small : output.length < 2 ^ 63) {y : Nat} (inside : y < height) :
    (flipRow rowBytes height output y
        (List.replicate ((height - y) * rowBytes) 0 ++ mirrorRows rowBytes output y) :
          Outcome ε Bytes) = .ok (List.replicate ((height - (y + 1)) * rowBytes) 0 ++
        mirrorRows rowBytes output (y + 1)) := by
  obtain ⟨below, rfl⟩ : ∃ below, height = below + (y + 1) := ⟨height - (y + 1), by omega⟩
  have rows : (below + (y + 1)) * rowBytes = below * rowBytes + (y * rowBytes + rowBytes) := by
    ring
  have done := length_mirrorRows (show y * rowBytes ≤ output.length by omega)
  rw [show below + (y + 1) - y = below + 1 by omega, Nat.add_sub_cancel, mirrorRows, flipRow]
  rw [mulUsize_ok (by omega), ok_bind, subChecked_ok (by omega), ok_bind,
    subChecked_ok (by omega), ok_bind, show below + (y + 1) - 1 - y = below by omega,
    mulUsize_ok (by omega), ok_bind, addUsize_ok (by omega), ok_bind,
    sliceOf_ok (by omega) (by omega), ok_bind, addUsize_ok (by omega), ok_bind]
  have row_length : ((output.drop (y * rowBytes)).take rowBytes).length = rowBytes := by
    rw [length_take, length_drop]
    omega
  rw [Nat.add_sub_cancel_left, copyFromSlice_ok (by omega)
    (by simp only [length_append, length_replicate, done, Nat.succ_mul]; omega)
    (by omega), splice, row_length, Nat.succ_mul, replicate_add]
  rw [append_assoc, take_append_of_le_length (by simp)]
  simp

theorem flipRows_eq (sized : output.length = height * (width * 4))
    (small : output.length < 2 ^ 63) (row : width * 4 < 2 ^ 64) :
    (flipRows width height output : Outcome ε Bytes) =
      .ok (mirrorRows (width * 4) output height) := by
  have run : ∀ count y, y + count = height → (forIndex (flipRow (width * 4) height output) y count
        (List.replicate ((height - y) * (width * 4)) 0 ++ mirrorRows (width * 4) output y) :
          Outcome ε Bytes) = .ok (mirrorRows (width * 4) output height) := by
    intro count
    induction count with
    | zero =>
      intro y reached
      obtain rfl : y = height := reached
      simp [forIndex]
    | succ count ih =>
      intro y reached
      rw [forIndex, flipRow_mirrorRows sized small (by omega), ok_bind]
      exact ih (y + 1) (by omega)
  rw [flipRows, mulUsize_ok row, ok_bind, sized]
  simpa [mirrorRows] using run height 0 (by omega)

theorem drop_flat (pixels : List Rgba) (count : Nat) :
    (flat pixels).drop (4 * count) = flat (pixels.drop count) := by
  induction pixels generalizing count with
  | nil => simp
  | cons pixel pixels ih =>
    cases count with
    | zero => rfl
    | succ count => simp [Nat.mul_succ, ih]

theorem take_flat (pixels : List Rgba) (count : Nat) :
    (flat pixels).take (4 * count) = flat (pixels.take count) := by
  induction pixels generalizing count with
  | nil => simp
  | cons pixel pixels ih =>
    cases count with
    | zero => rfl
    | succ count => simp [Nat.mul_succ, ih]

theorem mirrorRows_flat (width : Nat) (pixels : List Rgba) (height : Nat) :
    mirrorRows (width * 4) (flat pixels) height = flat (mirrorRows width pixels height) := by
  induction height with
  | zero => rfl
  | succ height ih =>
    rw [mirrorRows, mirrorRows, flat_append, ih, ← take_flat, ← drop_flat,
      show 4 * (height * width) = height * (width * 4) by ring, Nat.mul_comm 4 width]

/-! ## The finished image -/

def orderRows (topDown : Bool) (width height : Nat) (output : Bytes) :
    Outcome ε Bytes :=
  if topDown then .ok output else flipRows width height output

/-- The pixels shown for an image whose rows are stored in the given order. -/
def displayOrder (topDown : Bool) (width height : Nat) (pixels : List Rgba) : List Rgba :=
  if topDown then pixels else mirrorRows width pixels height

/-- The pixels of an image of which only the first have been drawn. -/
def padded (total : Nat) (pixels : List Rgba) : List Rgba :=
  pixels ++ List.replicate (total - pixels.length) Rgba.zero

theorem length_padded {total : Nat} (fits : pixels.length ≤ total) :
    (padded total pixels).length = total := by
  simp only [padded, length_append, length_replicate]
  omega

theorem flat_replicate_zero (count : Nat) :
    flat (List.replicate count Rgba.zero) = List.replicate (4 * count) 0 := by
  induction count with
  | zero => rfl
  | succ count ih =>
    rw [replicate_succ, flat_cons, ih]
    simp [Nat.mul_succ, Rgba.zero, replicate_succ]

theorem canvas_eq_flat_padded (total : Nat) (pixels : List Rgba) :
    canvas total pixels = flat (padded total pixels) := by
  rw [canvas, padded, flat_append, flat_replicate_zero]

theorem length_displayOrder {topDown : Bool} (sized : pixels.length = width * height) :
    (displayOrder topDown width height pixels).length = width * height := by
  rw [displayOrder]
  split
  · exact sized
  · rw [length_mirrorRows (by rw [sized, Nat.mul_comm]), Nat.mul_comm]

theorem displayOrder_inj {topDown : Bool} {pixels' : List Rgba}
    (sized : pixels.length = width * height) (sized' : pixels'.length = width * height)
    (same : displayOrder topDown width height pixels = displayOrder topDown width height pixels') :
    pixels = pixels' := by
  cases topDown with
  | true => exact same
  | false =>
    have rows := take_eq_of_mirrorRows_eq (by rw [sized, Nat.mul_comm])
      (by rw [sized', Nat.mul_comm]) same
    rwa [take_of_length_le (by rw [sized, Nat.mul_comm]),
      take_of_length_le (by rw [sized', Nat.mul_comm])] at rows

variable (topDown : Bool)

theorem orderRows_flat
    (sized : pixels.length = width * height) (small : width * height ≤ maxImagePixels)
    (narrow : width ≤ maxImageDimension) :
    (orderRows topDown width height (flat pixels) : Outcome ε Bytes) =
      .ok (flat (displayOrder topDown width height pixels)) := by
  have pixels_le : width * height ≤ 67108864 := small
  have width_le : width ≤ 16384 := narrow
  have bytes : (flat pixels).length = height * (width * 4) := by
    rw [length_flat, sized]
    ring
  cases topDown with
  | true => rfl
  | false =>
    have short : (flat pixels).length < 2 ^ 63 := by
      rw [length_flat, sized]
      omega
    simp only [orderRows, displayOrder, Bool.false_eq_true, if_false]
    rw [flipRows_eq bytes short (by omega), mirrorRows_flat]

def finishImage (width height imageId winHeadDist : Nat) (output : Bytes) :
    Outcome StreamError DecompressedImage := do
  let output ← orderRows topDown width height output
  match DecompressedImage.newGlz width height output imageId winHeadDist with
  | some image => return image
  | none => .error (.dimensionsRefused width height)

theorem finishImage_canvas {length : Nat}
    (accepted : rgbaLen width height = some length) (imageId winHeadDist : Nat)
    (fits : pixels.length ≤ width * height) :
    ∃ image, finishImage topDown width height imageId winHeadDist
        (canvas (width * height) pixels) = .ok image ∧
      image.width = width ∧ image.height = height ∧ image.imageId = imageId ∧
      image.winHeadDist = winHeadDist ∧
      image.pixels = flat (displayOrder topDown width height (padded (width * height) pixels)) := by
  obtain ⟨-, -, narrow, -, small, length_eq⟩ := rgbaLen_eq_some.mp accepted
  have whole := length_padded fits
  have sized : rgbaLen width height = some (flat (displayOrder topDown width height
        (padded (width * height) pixels))).length := by
    rw [accepted, length_flat, length_displayOrder whole, length_eq, Nat.mul_comm]
  refine ⟨⟨width, height, _, imageId, winHeadDist, sized⟩, ?_, rfl, rfl, rfl, rfl, rfl⟩
  rw [finishImage, canvas_eq_flat_padded, orderRows_flat topDown whole small narrow,
    ok_bind, DecompressedImage.newGlz_of_sized sized]
  rfl

end Ryll
