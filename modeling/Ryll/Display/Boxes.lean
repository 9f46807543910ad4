import Ryll.Display.ImageEvents

/-!
# Draws and their boxes

The size of what an image draw paints comes from the image and its source rectangle, never from the
box of the message.  A copy of bits moves each pixel of its box by the distance from the source
point to the corner of the box; a negative coordinate of the source point is read as zero.
-/

namespace Ryll

/-- No edge of a rectangle is negative. -/
def Rect.Nonneg (rect : Rect) : Prop :=
  0 ≤ rect.left.toInt ∧ 0 ≤ rect.top.toInt ∧ 0 ≤ rect.right.toInt ∧ 0 ≤ rect.bottom.toInt

instance (rect : Rect) : Decidable rect.Nonneg := inferInstanceAs (Decidable (_ ∧ _))

instance (rect : Rect) (point : Point) : Decidable (Clip.Holds rect point) :=
  inferInstanceAs (Decidable (_ ∧ _))

theorem toNat_toUInt32 {value : Int32} (nonneg : 0 ≤ value.toInt) :
    (value.toUInt32.toNat : Int) = value.toInt := by
  have signed := value.toBitVec.toInt_eq_toNat_cond
  have unsigned : value.toUInt32.toNat = value.toBitVec.toNat := rfl
  have same : value.toInt = value.toBitVec.toInt := rfl
  have small := value.toBitVec.isLt
  split at signed <;> omega

theorem ltrb_eq {rect : Rect} (nonneg : rect.Nonneg) :
    (ltrb rect).left = rect.left.toInt ∧ (ltrb rect).top = rect.top.toInt ∧
      (ltrb rect).right = rect.right.toInt ∧ (ltrb rect).bottom = rect.bottom.toInt := by
  obtain ⟨left, top, right, bottom⟩ := nonneg
  exact ⟨toNat_toUInt32 left, toNat_toUInt32 top, toNat_toUInt32 right, toNat_toUInt32 bottom⟩

theorem ltrb_covers {rect : Rect} (nonneg : rect.Nonneg) {point : Point} :
    (ltrb rect).covers point ↔ Clip.Holds rect point := by
  obtain ⟨left, top, right, bottom⟩ := ltrb_eq nonneg
  rw [DamageRect.covers_iff, Clip.Holds]
  omega

/-! ## Image draws -/

/-- A pixel of this source colour is drawn and not left out. -/
def CompositeMode.Paints (mode : CompositeMode) (source : Rgba) : Prop :=
  match mode with
  | .overwrite => True
  | .chromaKey chroma => ¬(source.r = chroma.r ∧ source.g = chroma.g ∧ source.b = chroma.b)
  | .alphaBlend alpha => alpha ≠ 0

theorem CompositeMode.Paints.repaints {mode : CompositeMode} {source : Rgba}
    (paints : mode.Paints source) :
    ∃ level, mode.composite source ⟨level, level, level, level⟩ ≠ ⟨level, level, level, level⟩ := by
  obtain ⟨level, other⟩ : ∃ level, level ≠ source.a := by
    by_cases clear : source.a = 0
    · exact ⟨1, by rw [clear]; decide⟩
    · exact ⟨0, Ne.symm clear⟩
  cases mode with
  | overwrite => exact ⟨level, fun same => other (congrArg Rgba.a same).symm⟩
  | chromaKey chroma =>
    refine ⟨level, fun same => other ?_⟩
    rw [composite, if_neg paints] at same
    exact (congrArg Rgba.a same).symm
  | alphaBlend alpha =>
    refine ⟨0, fun same => ?_⟩
    rw [composite, if_neg paints] at same
    cases congrArg Rgba.a same

def readDrawBase (payload : Bytes) : Outcome LinkError (DrawBase × Bytes) := do
  let (base, reader) ← DrawBase.read (BoundedReader.new payload)
  let (body, _) ← readBytes reader.remaining reader
  return (base, body)

/-- The message that copies an area. -/
structure CopyBits where
  base : DrawBase
  srcX : UInt32
  srcY : UInt32

def decodeCopyBits (payload : Bytes) : Outcome LinkError CopyBits := do
  let (base, body) ← readDrawBase payload
  let srcPos : SpicePoint ← decode body
  return { base, srcX := (max srcPos.x 0).toUInt32, srcY := (max srcPos.y 0).toUInt32 }

/-- The events of a COPY_BITS. -/
def handleCopyBits (channelId : UInt8) (payload : Bytes) :
    Outcome LinkError (List DrawEvent) := do
  let ⟨base, srcX, srcY⟩ ← decodeCopyBits payload
  let destRect := ltrb base.bbox
  match eventClip base destRect with
  | none => return []
  | some clip => return [.copyBits ⟨channelId, base.surfaceId⟩ srcX srcY destRect clip]

namespace DisplaySurface

/-- Every pixel of a box takes the value as far from it as the source point from the corner. -/
def displaced (surface : DisplaySurface) (srcPos : SpicePoint) (bbox : Rect) (point : Point) :
    Option Bytes :=
  let x := point.x + (srcPos.x.toInt - bbox.left.toInt)
  let y := point.y + (srcPos.y.toInt - bbox.top.toInt)
  if Clip.Holds bbox point ∧ surface.holds point ∧ 0 ≤ x ∧ x < surface.width ∧ 0 ≤ y ∧
      y < surface.height then
    surface.pixel ⟨x.toNat, y.toNat⟩
  else
    surface.pixel point

theorem copyBits_displaced (surface : DisplaySurface) {srcX srcY : Nat} {srcPos : SpicePoint}
    {bbox : Rect} (nonneg : bbox.Nonneg) (x_eq : (srcX : Int) = srcPos.x.toInt)
    (y_eq : (srcY : Int) = srcPos.y.toInt) :
    (surface.copyBits srcX srcY (ltrb bbox) []).Ensures fun after =>
      SameFrame surface after ∧
        ∀ point, after.pixel point = surface.displaced srcPos bbox point := by
  refine (surface.copyBits_ensures srcX srcY (ltrb bbox) []).mono fun after ⟨frame, pixels⟩ =>
    ⟨frame, fun point => ?_⟩
  obtain ⟨left, top, -, -⟩ := ltrb_eq nonneg
  have single : after.pixel point =
      copyRegion (copySource srcX srcY (ltrb bbox)) (surface.moves srcX srcY (ltrb bbox))
        surface.pixel point := by
    rw [pixels]
    rfl
  simp only [single, copyRegion, displaced, moves, Bool.and_eq_true, ltrb_covers nonneg, and_assoc]
  by_cases inside : Clip.Holds bbox point
  · -- In the box, the source pixel is the same over the naturals and over the integers.
    have held := inside
    rw [Clip.Holds] at held
    have x_source : point.x + (srcPos.x.toInt - bbox.left.toInt) =
        (copySource srcX srcY (ltrb bbox) point).x := by
      dsimp only [copySource]
      omega
    have y_source : point.y + (srcPos.y.toInt - bbox.top.toInt) =
        (copySource srcX srcY (ltrb bbox) point).y := by
      dsimp only [copySource]
      omega
    simp only [x_source, y_source, Int.toNat_natCast, Int.natCast_nonneg, Int.ofNat_lt, true_and,
      holds_iff]
  · simp only [inside, false_and, if_false]

end DisplaySurface

/-- The source point of a copy, with what is negative read as zero. -/
def SpicePoint.clamped (point : SpicePoint) : SpicePoint := ⟨max point.x 0, max point.y 0⟩

theorem zero_le_clamped (value : Int32) : 0 ≤ (max value 0).toInt := by
  change 0 ≤ (if value ≤ 0 then 0 else value).toInt
  split
  · exact Int.le_refl 0
  · next positive =>
    rw [Int32.le_iff_toInt_le] at positive
    exact Int.le_of_lt (Int.not_le.mp positive)

/-- An unclipped copy displaces its box by the distance from the clamped source point. -/
theorem copyBits_displaces {payload body : Bytes} {base : DrawBase} {srcPos : SpicePoint}
    (framed : readDrawBase payload = .ok (base, body)) (pointed : decode body = .ok srcPos)
    (unclipped : base.clip.clipType ≠ clipTypeRects) (nonneg : base.bbox.Nonneg)
    (channelId : UInt8) (mirror : SurfaceMirror) (surface : DisplaySurface)
    (known : mirror.surfaces.lookup ⟨channelId, base.surfaceId⟩ = some surface) :
    ∃ events mirror' after, handleCopyBits channelId payload = .ok events ∧
      mirror.applyAll events = .ok mirror' ∧
      mirror'.surfaces.lookup ⟨channelId, base.surfaceId⟩ = some after ∧
      DisplaySurface.SameFrame surface after ∧
      ∀ point, after.pixel point = surface.displaced srcPos.clamped base.bbox point := by
  have clip : eventClip base (ltrb base.bbox) = some [] := by
    have area : base.clip.clipArea (ltrb base.bbox) = .whole := if_pos unclipped
    rw [eventClip, area]
  have emitted : handleCopyBits channelId payload = .ok [.copyBits ⟨channelId, base.surfaceId⟩
      (max srcPos.x 0).toUInt32 (max srcPos.y 0).toUInt32 (ltrb base.bbox) []] := by
    simp only [handleCopyBits, decodeCopyBits, framed, pointed, ok_bind, clip, pure_eq]
  have displaced := @DisplaySurface.copyBits_displaced surface _ _ srcPos.clamped _ nonneg
    (toNat_toUInt32 (zero_le_clamped _)) (toNat_toUInt32 (zero_le_clamped _))
  obtain ⟨⟨_, mirror'⟩, applied, after, ⟨frame, pixels⟩, last, -⟩ :=
    (@SurfaceMirror.draw_ensures mirror surface _ (fun surface => surface.copyBits
      (max srcPos.x 0).toUInt32.toNat (max srcPos.y 0).toUInt32.toNat (ltrb base.bbox) []) _ known
      displaced).returns
  refine ⟨_, mirror', after, emitted, ?_, last, frame, pixels⟩
  rw [SurfaceMirror.applyAll, List.foldlM_cons, SurfaceMirror.applyEvent, applied]
  rfl

/-- A copy to the left edge of a surface, from the given source point. -/
def copyPayload (x : UInt8) (sign : UInt8) : Bytes :=
  [0, 0, 0, 0] ++ [0, 0, 0, 0, 0, 0, 0, 0, 1, 0, 0, 0, 3, 0, 0, 0] ++ [0] ++
    [x, sign, sign, sign, 0, 0, 0, 0]

def threePixelMirror : SurfaceMirror where
  surfaces := AList.singleton ⟨0, 0⟩ .threePixels

/-- What the copy leaves in the middle of three pixels. -/
def middleAfter (payload : Bytes) : Outcome LinkError (Option Bytes) := do
  let events ← handleCopyBits 0 payload
  match threePixelMirror.applyAll events with
  | .ok mirror => return (mirror.surfaces.lookup ⟨0, 0⟩).bind fun surface => surface.pixel ⟨1, 0⟩
  | _ => return none

/-- A copy from the second pixel on. -/
theorem left_displaced : middleAfter (copyPayload 1 0) = .ok (some [30, 30, 30, 255]) := by
  obtain ⟨events, mirror', after, emitted, applied, last, -, pixels⟩ :=
    @copyBits_displaces (copyPayload 1 0) [1, 0, 0, 0, 0, 0, 0, 0] ⟨0, ⟨0, 0, 1, 3⟩, ⟨0, []⟩⟩ ⟨1, 0⟩
      (by decide +kernel) (by decide +kernel) (by decide) (by decide) 0
      threePixelMirror .threePixels rfl
  rw [middleAfter, emitted, ok_bind, applied]
  dsimp only
  rw [last, Option.bind_some, pixels]
  decide +kernel

/-- A copy from before the surface should move every pixel, and leaves the middle one alone. -/
theorem negative_source_clamped :
    (readDrawBase (copyPayload 255 255) >>= fun read => decode read.2) =
        .ok (⟨-1, 0⟩ : SpicePoint) ∧
      DisplaySurface.threePixels.displaced ⟨-1, 0⟩ ⟨0, 0, 1, 3⟩ ⟨1, 0⟩ = some [10, 10, 10, 255] ∧
      middleAfter (copyPayload 255 255) = .ok (some [20, 20, 20, 255]) := by
  exact ⟨by decide +kernel, by decide +kernel, by decide +kernel⟩

end Ryll
