import Ryll.Compression.Image
import Ryll.Display.Damage
import Ryll.Foundation.Raster
import Ryll.Foundation.RegionCopy

/-!
# Display surfaces

The pixel buffer that draw operations write to, and the copy of one area of a surface to another.
The copy is compared with a move that reads every source pixel before it writes any destination
pixel.
-/

namespace Ryll

open DamageRect

def maxSurfaceDimension : Nat := maxImageDimension

theorem one_le_maxSurfaceDimension : 1 ≤ maxSurfaceDimension := by
  decide

/-- A surface of RGBA pixels that tracks whether, and where, it has been written. -/
structure DisplaySurface where
  id : Nat
  width : Nat
  height : Nat
  /-- RGBA bytes, row by row from the top. -/
  pixels : FixedBuffer UInt8 (width * height * 4)
  dirty : Bool
  /-- What was written since the damage was last taken. -/
  damage : DamageRegion
  width_le : width ≤ maxSurfaceDimension
  height_le : height ≤ maxSurfaceDimension

def segmentStart {ε : Type} (stride top row left : Nat) : Outcome ε Nat := do
  let line ← addUsize top row
  let offset ← mulUsize line stride
  let column ← mulUsize left 4
  addUsize offset column

namespace DisplaySurface

def new (id width height : Nat) : Outcome Empty DisplaySurface := do
  let clampedWidth := min width maxSurfaceDimension
  let clampedHeight := min height maxSurfaceDimension
  let damage ← DamageRegion.full clampedWidth clampedHeight
  pure {
    id
    width := clampedWidth
    height := clampedHeight
    pixels := ⟨(List.replicate (clampedWidth * clampedHeight) [0, 0, 0, 255]).flatten, by
      simp⟩
    dirty := true
    damage
    width_le := Nat.min_le_right _ _
    height_le := Nat.min_le_right _ _ }

variable (surface : DisplaySurface)

def holds (point : Point) : Bool :=
  point.x < surface.width && point.y < surface.height

def pixel (point : Point) : Option Bytes :=
  if surface.holds point then
    some ((surface.pixels.items.drop
      (cellOffset (surface.width * 4) point.y (point.x * 4))).take 4)
  else
    none

def snapshotRows (stride sx sy rows rowBytes : Nat) :
    Outcome Empty (FixedBuffer UInt8 (rowBytes * rows)) :=
  forIndex (fun row scratch => do
    let srcRowStart ← segmentStart stride sy row sx
    let scratchStart ← mulUsize row rowBytes
    copyRow surface.pixels.items srcRowStart scratchStart rowBytes scratch)
    0 rows (FixedBuffer.replicate (rowBytes * rows) 0)

def writeRows (stride left top rows rowBytes : Nat) (scratch : Bytes) :
    Outcome Empty (FixedBuffer UInt8 (surface.width * surface.height * 4)) :=
  forIndex (fun row pixels => do
    let dstRowStart ← segmentStart stride top row left
    let scratchStart ← mulUsize row rowBytes
    copyRow scratch scratchStart dstRowStart rowBytes pixels)
    0 rows surface.pixels

def copySubrect (sx sy : Nat) (dest : DamageRect) :
    Outcome Empty DisplaySurface := do
  let stride ← mulChecked 32 surface.width 4
  let w ← subChecked dest.right dest.left
  let h ← subChecked dest.bottom dest.top
  let rowBytes ← mulUsize w 4
  let _ ← mulUsize rowBytes h
  let scratch ← surface.snapshotRows stride sx sy h rowBytes
  let pixels ← surface.writeRows stride dest.left dest.top h rowBytes scratch.items
  pure { surface with pixels }

def shrinkEnd {ε : Type} (side source start stop : Nat) : Outcome ε (Option Nat) := do
  let extent ← subChecked stop start
  let sourceEnd := min (source + extent) (2 ^ 32 - 1)
  if sourceEnd > side then
    let overflow ← subChecked sourceEnd side
    if overflow ≥ extent then
      pure none
    else
      let shrunk ← subChecked stop overflow
      pure (some shrunk)
  else
    pure (some stop)

def clipCopy (srcX srcY : Nat) (dest : DamageRect) :
    Outcome Empty (Option DamageRect) := do
  if dest.left ≥ dest.right ∨ dest.top ≥ dest.bottom then
    return none
  let right := if dest.right > surface.width then surface.width else dest.right
  let bottom := if dest.bottom > surface.height then surface.height else dest.bottom
  if dest.left ≥ right ∨ dest.top ≥ bottom then
    return none
  if srcX ≥ surface.width ∨ srcY ≥ surface.height then
    return none
  let some right ← shrinkEnd surface.width srcX dest.left right | return none
  let some bottom ← shrinkEnd surface.height srcY dest.top bottom | return none
  if dest.left ≥ right ∨ dest.top ≥ bottom then
    return none
  return some ⟨dest.left, dest.top, right, bottom⟩

/-- Copy a sub-rectangle and record the destination as damaged. -/
def copyPart (sx sy : Nat) (part : DamageRect) :
    Outcome Empty DisplaySurface := do
  let copied ← surface.copySubrect sx sy part
  let damage ← copied.damage.add part
  return { copied with damage, dirty := true }

def copyClip (srcX srcY : Nat) (target : DamageRect) (surface : DisplaySurface)
    (clip : DamageRect) : Outcome Empty DisplaySurface := do
  let part : DamageRect := ⟨max target.left clip.left, max target.top clip.top,
    min target.right clip.right, min target.bottom clip.bottom⟩
  if part.left ≥ part.right ∨ part.top ≥ part.bottom then
    return surface
  let sx ← addChecked 32 srcX (← subChecked part.left target.left)
  let sy ← addChecked 32 srcY (← subChecked part.top target.top)
  surface.copyPart sx sy part

def copyBits (surface : DisplaySurface) (srcX srcY : Nat) (dest : DamageRect)
    (clip : List DamageRect) : Outcome Empty DisplaySurface := do
  let some target ← surface.clipCopy srcX srcY dest | return surface
  if clip.isEmpty then
    surface.copyPart srcX srcY target
  else
    clip.foldlM (copyClip srcX srcY target) surface

/-! ## One sub-rectangle -/

variable (srcX srcY : Nat)

def copySource (dest : DamageRect) (point : Point) : Point :=
  ⟨srcX + (point.x - dest.left), srcY + (point.y - dest.top)⟩

/-- The id and the size are the same. -/
structure SameFrame (before after : DisplaySurface) : Prop where
  id : after.id = before.id
  width : after.width = before.width
  height : after.height = before.height

theorem SameFrame.trans {first second third : DisplaySurface} (one : SameFrame first second)
    (two : SameFrame second third) : SameFrame first third :=
  ⟨two.id.trans one.id, two.width.trans one.width, two.height.trans one.height⟩

/-- The damage and the dirty flag were left alone. -/
structure SameRecord (before after : DisplaySurface) : Prop where
  damage : after.damage = before.damage
  dirty : after.dirty = before.dirty

variable {surface : DisplaySurface} {point : Point}

theorem holds_iff : surface.holds point ↔ point.x < surface.width ∧ point.y < surface.height := by
  simp [holds]

theorem pixel_of_not_holds (off : ¬ surface.holds point) : surface.pixel point = none :=
  if_neg off

theorem pixel_of_holds {width : Nat} (same : surface.width = width) (on : surface.holds point) :
    surface.pixel point =
      some ((surface.pixels.items.drop (cellOffset (width * 4) point.y (point.x * 4))).take 4) := by
  subst same
  exact if_pos on

/-- A rectangle that can be copied as it is: it lies on the surface, and so does its source. -/
structure Copyable (surface : DisplaySurface) (sx sy : Nat) (dest : DamageRect) : Prop where
  ordered_x : dest.left ≤ dest.right
  ordered_y : dest.top ≤ dest.bottom
  right_le : dest.right ≤ surface.width
  bottom_le : dest.bottom ≤ surface.height
  source_x : sx + (dest.right - dest.left) ≤ surface.width
  source_y : sy + (dest.bottom - dest.top) ≤ surface.height

theorem segmentStart_ok {ε : Type} {stride top row left : Nat}
    (line_le : top + row ≤ 16384) (stride_le : stride ≤ 16384 * 4) (left_le : left ≤ 16384) :
    (segmentStart stride top row left : Outcome ε Nat) =
      .ok (cellOffset stride (top + row) (left * 4)) := by
  have offset_le := Nat.mul_le_mul line_le stride_le
  simp (disch := omega) only [segmentStart, addUsize_ok, mulUsize_ok, ok_bind]
  rfl

section

variable (surface : DisplaySurface)

theorem bounded : surface.width ≤ 16384 ∧ surface.height ≤ 16384 :=
  ⟨surface.width_le, surface.height_le⟩

theorem pixels_length : surface.pixels.items.length = surface.height * (surface.width * 4) := by
  rw [surface.pixels.sized]
  ring

theorem pixels_length_le : surface.height * (surface.width * 4) ≤ 16384 * (16384 * 4) :=
  Nat.mul_le_mul surface.height_le (Nat.mul_le_mul_right 4 surface.width_le)

end

theorem snapshotRows_ensures {sx sy rows w : Nat} (source_x : sx + w ≤ surface.width)
    (source_y : sy + rows ≤ surface.height) :
    (surface.snapshotRows (surface.width * 4) sx sy rows (w * 4)).Ensures fun scratch =>
      BlockCopied surface.pixels.items ⟨surface.width * 4, sy, sx * 4⟩ ⟨w * 4, 0, 0⟩ rows (w * 4)
        (List.replicate (w * 4 * rows) 0) scratch.items := by
  obtain ⟨width_le, height_le⟩ := surface.bounded
  have scratch_le : w * 4 * rows ≤ 65536 * 16384 := Nat.mul_le_mul (by omega) (by omega)
  refine copyRows_ensures surface.pixels.items ⟨surface.width * 4, sy, sx * 4⟩ ⟨w * 4, 0, 0⟩
    (w * 4) ?_ ?_ ?_ ?_ ?_ ?_ (by omega)
  · intro row listed scratch
    have row_le : row * (w * 4) ≤ 16384 * 65536 := Nat.mul_le_mul (by omega) (by omega)
    simp (disch := omega) only [segmentStart_ok, mulUsize_ok, ok_bind, Placement.offset,
      cellOffset, Nat.add_zero, Nat.zero_add]
  · dsimp only
    omega
  · simp
  · rw [surface.pixels_length]
    exact Nat.mul_le_mul_right _ source_y
  · simp [Nat.mul_comm]
  · have := surface.pixels_length_le
    have := surface.pixels_length
    omega

theorem writeRows_ensures {left top rows w : Nat} {scratch : Bytes}
    (sized : scratch.length = w * 4 * rows) (dest_x : left + w ≤ surface.width)
    (dest_y : top + rows ≤ surface.height) :
    (surface.writeRows (surface.width * 4) left top rows (w * 4) scratch).Ensures fun pixels =>
      BlockCopied scratch ⟨w * 4, 0, 0⟩ ⟨surface.width * 4, top, left * 4⟩ rows (w * 4)
        surface.pixels.items pixels.items := by
  obtain ⟨width_le, height_le⟩ := surface.bounded
  have scratch_le : w * 4 * rows ≤ 65536 * 16384 := Nat.mul_le_mul (by omega) (by omega)
  refine copyRows_ensures scratch ⟨w * 4, 0, 0⟩ ⟨surface.width * 4, top, left * 4⟩
    (w * 4) ?_ ?_ ?_ ?_ ?_ (by omega) ?_
  · intro row listed pixels
    have row_le : row * (w * 4) ≤ 16384 * 65536 := Nat.mul_le_mul (by omega) (by omega)
    simp (disch := omega) only [segmentStart_ok, mulUsize_ok, ok_bind, Placement.offset,
      cellOffset, Nat.add_zero, Nat.zero_add]
  · simp
  · dsimp only
    omega
  · simp [sized, Nat.mul_comm]
  · rw [← surface.pixels.sized, surface.pixels_length]
    exact Nat.mul_le_mul_right _ dest_y
  · have := surface.pixels_length_le
    rw [← surface.pixels.sized, surface.pixels_length]
    omega

theorem copySubrect_bytes {sx sy : Nat} {dest : DamageRect} (fits : surface.Copyable sx sy dest) :
    (surface.copySubrect sx sy dest).Ensures fun copied =>
      SameFrame surface copied ∧ SameRecord surface copied ∧
        BlockCopied surface.pixels.items ⟨surface.width * 4, sy, sx * 4⟩
          ⟨surface.width * 4, dest.top, dest.left * 4⟩ (dest.bottom - dest.top)
          ((dest.right - dest.left) * 4) surface.pixels.items copied.pixels.items := by
  obtain ⟨ordered_x, ordered_y, right_le, bottom_le, source_x, source_y⟩ := fits
  obtain ⟨width_le, height_le⟩ := surface.bounded
  have scratch_le : (dest.right - dest.left) * 4 * (dest.bottom - dest.top) ≤ 65536 * 16384 :=
    Nat.mul_le_mul (by omega) (by omega)
  simp (disch := omega) only [copySubrect, mulChecked_ok, subChecked_ok, mulUsize_ok, ok_bind]
  refine (snapshotRows_ensures source_x source_y).bind fun scratch gathered => ?_
  refine (writeRows_ensures scratch.sized (by omega) (by omega)).bind fun pixels scattered => ?_
  exact ⟨⟨rfl, rfl, rfl⟩, ⟨rfl, rfl⟩, gathered.through scattered⟩

theorem copySubrect_ensures {sx sy : Nat} {dest : DamageRect} (fits : surface.Copyable sx sy dest) :
    (surface.copySubrect sx sy dest).Ensures fun copied => SameFrame surface copied ∧
        copied.pixel = copyRegion (copySource sx sy dest) dest.covers surface.pixel := by
  refine (copySubrect_bytes fits).mono fun copied ⟨same, _, bytes⟩ => ⟨same, ?_⟩
  obtain ⟨ordered_x, ordered_y, right_le, bottom_le, source_x, source_y⟩ := fits
  funext point
  by_cases on : point.x < surface.width ∧ point.y < surface.height
  · have on' : copied.holds point := by rw [holds_iff, same.width, same.height]; exact on
    rw [pixel_of_holds same.width on', copyRegion]
    by_cases inside : dest.covers point
    · rw [if_pos inside]
      rw [covers_iff] at inside
      have source_on : surface.holds (copySource sx sy dest point) := by
        rw [holds_iff]
        simp only [copySource]
        omega
      rw [pixel_of_holds rfl source_on]
      refine congrArg some (take_drop_congr fun channel listed => ?_)
      have byte := bytes point.y (point.x * 4 + channel) (by dsimp only; omega)
      rw [if_pos (by dsimp only; omega)] at byte
      rw [cellOffset, Nat.add_assoc]
      refine byte.trans ?_
      simp only [Placement.offset, cellOffset, copySource]
      congr 1
      omega
    · rw [if_neg inside, pixel_of_holds rfl (holds_iff.mpr on)]
      rw [covers_iff] at inside
      refine congrArg some (take_drop_congr fun channel listed => ?_)
      have byte := bytes point.y (point.x * 4 + channel) (by dsimp only; omega)
      rw [if_neg (by dsimp only; omega)] at byte
      rw [cellOffset, Nat.add_assoc]
      exact byte
  · have outside : ¬ dest.covers point := by
      rw [covers_iff]
      omega
    have off : ¬ copied.holds point := by rw [holds_iff, same.width, same.height]; exact on
    rw [pixel_of_not_holds off, copyRegion, if_neg outside,
      pixel_of_not_holds fun held => on (holds_iff.mp held)]

/-! ## Clipping the destination -/

def reach (surface : DisplaySurface) (srcX srcY : Nat) (dest : DamageRect) : DamageRect where
  left := dest.left
  top := dest.top
  right := min (min dest.right surface.width) (dest.left + (surface.width - srcX))
  bottom := min (min dest.bottom surface.height) (dest.top + (surface.height - srcY))

def moves (surface : DisplaySurface) (srcX srcY : Nat) (dest : DamageRect) (point : Point) : Bool :=
  dest.covers point && surface.holds point && surface.holds (copySource srcX srcY dest point)

theorem reach_covers (surface : DisplaySurface) (srcX srcY : Nat) (dest : DamageRect) :
    (surface.reach srcX srcY dest).covers = surface.moves srcX srcY dest := by
  funext point
  rw [Bool.eq_iff_iff, covers_iff, moves, Bool.and_eq_true, Bool.and_eq_true,
    covers_iff, holds_iff, holds_iff]
  simp only [reach, copySource]
  omega

theorem shrinkEnd_ok {ε : Type} {side source start stop : Nat} (side_le : side ≤ 16384)
    (source_lt : source < side) (ordered : start < stop) (stop_le : stop ≤ side) :
    (shrinkEnd side source start stop : Outcome ε _) =
      .ok (some (min stop (start + (side - source)))) := by
  have unsaturated : min (source + (stop - start)) (2 ^ 32 - 1) = source + (stop - start) := by
    omega
  rw [shrinkEnd, subChecked_ok (by omega), ok_bind]
  dsimp only
  rw [unsaturated]
  split
  · rw [subChecked_ok (by omega), ok_bind, if_neg (by omega), subChecked_ok (by omega),
      show stop - (source + (stop - start) - side) = min stop (start + (side - source)) by omega]
    rfl
  · rw [show min stop (start + (side - source)) = stop by omega]
    rfl

theorem clipCopy_ok (surface : DisplaySurface) (srcX srcY : Nat) (dest : DamageRect) :
    surface.clipCopy srcX srcY dest = .ok (if (surface.reach srcX srcY dest).isEmpty then none
        else some (surface.reach srcX srcY dest)) := by
  obtain ⟨width_le, height_le⟩ := surface.bounded
  have empty_iff : (surface.reach srcX srcY dest).isEmpty ↔
      dest.left ≥ min (min dest.right surface.width) (dest.left + (surface.width - srcX)) ∨
        dest.top ≥ min (min dest.bottom surface.height) (dest.top + (surface.height - srcY)) :=
    isEmpty_iff
  unfold clipCopy
  by_cases degenerate : dest.left ≥ dest.right ∨ dest.top ≥ dest.bottom
  · rw [if_pos degenerate, if_pos (empty_iff.mpr (by omega))]
    rfl
  rw [if_neg degenerate]
  rw [show (if dest.right > surface.width then surface.width else dest.right) =
      min dest.right surface.width by split <;> omega,
    show (if dest.bottom > surface.height then surface.height else dest.bottom) =
      min dest.bottom surface.height by split <;> omega]
  by_cases off : dest.left ≥ min dest.right surface.width ∨
      dest.top ≥ min dest.bottom surface.height
  · rw [if_pos off, if_pos (empty_iff.mpr (by omega))]
    rfl
  rw [if_neg off]
  by_cases source_off : srcX ≥ surface.width ∨ srcY ≥ surface.height
  · rw [if_pos source_off, if_pos (empty_iff.mpr (by omega))]
    rfl
  rw [if_neg source_off, shrinkEnd_ok (by omega) (by omega) (by omega) (by omega), ok_bind]
  dsimp only
  rw [shrinkEnd_ok (by omega) (by omega) (by omega) (by omega), ok_bind]
  dsimp only
  rw [if_neg (by omega), if_neg (by rw [empty_iff]; omega)]
  rfl

end DisplaySurface

end Ryll
