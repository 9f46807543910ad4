import Ryll.Display.Clip
import Ryll.Display.Composite
import Ryll.Display.Mirror

/-!
# From a decoded image to what is painted

A draw of an image crops it to the source rectangle, reduces the clip to disjoint boxes and emits
one event for each of them, which the mirror applies to its surface.  `image_drawn` says what all
of this paints.
-/

namespace Ryll

open List DisplaySurface SurfaceMirror Clip

/-- Pixels for a rectangle. -/
structure PixelBlock where
  width : Nat
  height : Nat
  pixels : Bytes
  deriving DecidableEq

def ltrb (rect : Rect) : Ltrb where
  left := rect.left.toUInt32.toNat
  top := rect.top.toUInt32.toNat
  right := rect.right.toUInt32.toNat
  bottom := rect.bottom.toUInt32.toNat

def copyBlock (source : PixelBlock) (left top width height : Nat) : Outcome Empty PixelBlock := do
  let length ← mulUsize (← mulUsize width height) 4
  let block ← forIndex (fun y (block : FixedBuffer UInt8 length) => do
    let line ← mulUsize (← addUsize top y) source.width
    let srcOff ← mulUsize (← addUsize line left) 4
    let dstOff ← mulUsize (← mulUsize y width) 4
    let rowBytes ← mulUsize width 4
    copyRow source.pixels srcOff dstOff rowBytes block) 0 height (FixedBuffer.replicate length 0)
  return ⟨width, height, block.items⟩

def crop (image : PixelBlock) (src : Ltrb) : Outcome Empty PixelBlock := do
  let cropW := src.right - src.left
  let cropH := src.bottom - src.top
  if cropW > 0 ∧ cropH > 0 ∧ (src.left ≠ 0 ∨ src.top ≠ 0 ∨ cropW ≠ image.width ∨
      cropH ≠ image.height) then
    let left := min src.left image.width
    let top := min src.top image.height
    let right := min src.right image.width
    let bottom := min src.bottom image.height
    if right > left ∧ bottom > top then
      copyBlock image left top (← subChecked right left) (← subChecked bottom top)
    else
      return image
  else
    return image

/-- The boxes that a draw is restricted to, none if it is not; `none` if it paints nothing. -/
def eventClip (base : DrawBase) (dest : Ltrb) : Option (List Ltrb) :=
  match base.clip.clipArea dest with
  | .whole => some []
  | .rects boxes => some boxes
  | .nothing => none
  | .tooComplex _ => none

variable (composite : CompositeMode) (key : SurfaceKey)

def buildImageEvent (left top : Nat) (block : PixelBlock) : DrawEvent :=
  let left := UInt32.ofNat left
  let top := UInt32.ofNat top
  let width := UInt32.ofNat block.width
  let height := UInt32.ofNat block.height
  match composite with
  | .overwrite => .imageReady key left top width height block.pixels
  | .chromaKey chroma => .imageReadyChroma key left top width height block.pixels chroma
  | .alphaBlend alpha => .imageReadyAlpha key left top width height block.pixels alpha

def buildBoxEvent (destLeft destTop : Nat)
    (block : PixelBlock) (box : Ltrb) : Outcome Empty DrawEvent := do
  let subW ← subChecked box.right box.left
  let subH ← subChecked box.bottom box.top
  let xOff ← subChecked box.left destLeft
  let yOff ← subChecked box.top destTop
  let sub ← copyBlock block xOff yOff subW subH
  return buildImageEvent composite key box.left box.top sub

def destination (base : DrawBase) (block : PixelBlock) : Ltrb where
  left := (ltrb base.bbox).left
  top := (ltrb base.bbox).top
  right := min ((ltrb base.bbox).left + block.width) (2 ^ 32 - 1)
  bottom := min ((ltrb base.bbox).top + block.height) (2 ^ 32 - 1)

def DecompressedImage.block (image : DecompressedImage) : PixelBlock :=
  ⟨image.width, image.height, image.pixels⟩

def blockEvents (base : DrawBase) (block : PixelBlock) : Outcome Empty (List DrawEvent) :=
  let dest := destination base block
  match eventClip base dest with
  | none => return []
  | some clip =>
    if clip.isEmpty then
      return [buildImageEvent composite key dest.left dest.top block]
    else
      clip.mapM (buildBoxEvent composite key dest.left dest.top block)

def emitImage (channelId : UInt8) (base : DrawBase) (srcArea : Rect)
    (image : DecompressedImage) : Outcome Empty (List DrawEvent) := do
  let block ← crop image.block (ltrb srcArea)
  blockEvents composite ⟨channelId, base.surfaceId⟩ base block

/-! ## Blocks of pixels -/

namespace PixelBlock

def colour (block : PixelBlock) (x y : Nat) : Option Rgba :=
  colourAt block.pixels (cellOffset (block.width * 4) y (x * 4))

/-- A block has its pixels, and not too many. -/
structure Sized (block : PixelBlock) : Prop where
  length : block.pixels.length = block.height * (block.width * 4)
  width_le : block.width ≤ 16384
  height_le : block.height ≤ 16384

theorem Sized.small {block : PixelBlock} (sized : block.Sized) :
    block.height * (block.width * 4) ≤ 16384 * (16384 * 4) :=
  Nat.mul_le_mul sized.height_le (Nat.mul_le_mul_right 4 sized.width_le)

end PixelBlock

theorem DecompressedImage.block_sized (image : DecompressedImage) : image.block.Sized := by
  obtain ⟨-, -, width_le, height_le, -, -⟩ := rgbaLen_eq_some.mp image.sized
  refine ⟨?_, width_le, height_le⟩
  change image.pixels.length = image.height * (image.width * 4)
  rw [image.length_pixels]
  ring

variable {top count : Nat} {left : Nat} {block : PixelBlock}

theorem copyBlock_ensures {source : PixelBlock} (sized : source.Sized) {width height : Nat}
    (right_le : left + width ≤ source.width) (bottom_le : top + height ≤ source.height) :
    (copyBlock source left top width height).Ensures fun block =>
      block.width = width ∧ block.height = height ∧ block.Sized ∧
        ∀ x < width, ∀ y < height, block.colour x y = source.colour (left + x) (top + y) := by
  have width_le : source.width ≤ 16384 := sized.width_le
  have height_le : source.height ≤ 16384 := sized.height_le
  have area_le : width * height ≤ 16384 * 16384 := Nat.mul_le_mul (by omega) (by omega)
  have length_eq : width * height * 4 = height * (width * 4) := by ring
  have small := sized.small
  rw [copyBlock, mulUsize_ok (by omega), ok_bind, mulUsize_ok (by omega), ok_bind]
  refine (copyRows_ensures (ε := Empty) source.pixels ⟨source.width * 4, top, left * 4⟩
    ⟨width * 4, 0, 0⟩ (width * 4) ?_ ?_ ?_ ?_ ?_ ?_ ?_).bind fun block copied => ?_
  · intro y listed block
    have line_le : (top + y) * source.width ≤ 16384 * 16384 := Nat.mul_le_mul (by omega) (by omega)
    have row_le : y * width ≤ 16384 * 16384 := Nat.mul_le_mul (by omega) (by omega)
    simp (disch := omega) only [addUsize_ok, mulUsize_ok, ok_bind]
    have origin : ((top + y) * source.width + left) * 4 =
        (top + y) * (source.width * 4) + (left * 4 + 0) := by ring
    have target : y * width * 4 = (0 + y) * (width * 4) + (0 + 0) := by ring
    simp only [Placement.offset, cellOffset]
    rw [origin, target]
  · dsimp only
    omega
  · dsimp only
    omega
  · rw [sized.length]
    exact Nat.mul_le_mul_right _ (by dsimp only; omega)
  · simp only [length_eq, Nat.zero_add]
    exact Nat.le_refl _
  · rw [sized.length]
    omega
  · omega
  · refine ⟨rfl, rfl, ⟨?_, by dsimp only; omega, by dsimp only; omega⟩, ?_⟩
    · dsimp only
      rw [block.sized, length_eq]
    · intro x x_lt y y_lt
      apply colourAt_congr
      intro channel listed
      have byte := copied y (x * 4 + channel) (by dsimp only; omega)
      rw [if_pos (by dsimp only; omega)] at byte
      rw [cellOffset, Nat.add_assoc]
      refine byte.trans ?_
      simp only [Placement.offset, cellOffset, Nat.sub_zero]
      congr 1
      omega

/-- The source rectangle and the image have a pixel in common. -/
def Overlaps (src : Ltrb) (image : PixelBlock) : Prop :=
  src.left < min src.right image.width ∧ src.top < min src.bottom image.height

instance (src : Ltrb) (image : PixelBlock) : Decidable (Overlaps src image) :=
  inferInstanceAs (Decidable (_ ∧ _))

/-- A block is the part of an image in a rectangle. -/
structure PixelBlock.IsPart (block image : PixelBlock) (src : Ltrb) : Prop where
  width : block.width = min src.right image.width - src.left
  height : block.height = min src.bottom image.height - src.top
  colours : ∀ x < block.width, ∀ y < block.height,
    block.colour x y = image.colour (src.left + x) (src.top + y)

theorem crop_ensures {image : PixelBlock} (sized : image.Sized) (src : Ltrb) :
    (crop image src).Ensures fun block =>
      block.Sized ∧ (Overlaps src image → block.IsPart image src) := by
  unfold crop
  by_cases partly : src.right - src.left > 0 ∧ src.bottom - src.top > 0 ∧
      (src.left ≠ 0 ∨ src.top ≠ 0 ∨ src.right - src.left ≠ image.width ∨
        src.bottom - src.top ≠ image.height)
  · rw [if_pos partly]
    by_cases overlaps : Overlaps src image
    · have both : src.left < min src.right image.width ∧ src.top < min src.bottom image.height :=
        overlaps
      have left_eq : min src.left image.width = src.left := by omega
      have top_eq : min src.top image.height = src.top := by omega
      rw [left_eq, top_eq, if_pos both, subChecked_ok (by omega), ok_bind,
        subChecked_ok (by omega), ok_bind]
      refine (copyBlock_ensures sized (by omega) (by omega)).mono fun block copied => ?_
      obtain ⟨width, height, block_sized, colours⟩ := copied
      refine ⟨block_sized, fun _ => ⟨width, height, ?_⟩⟩
      rw [width, height]
      exact colours
    · rw [Overlaps] at overlaps
      rw [if_neg (by omega)]
      exact ⟨sized, fun overlapping => absurd overlapping overlaps⟩
  · -- an empty or inverted rectangle overlaps nothing, and the image itself needs no copy
    rw [if_neg partly]
    refine ⟨sized, fun overlaps => ?_⟩
    rw [Overlaps] at overlaps
    have left_eq : src.left = 0 := by omega
    have top_eq : src.top = 0 := by omega
    refine ⟨by omega, by omega, fun x _ y _ => ?_⟩
    rw [left_eq, top_eq, Nat.zero_add, Nat.zero_add]

/-! ## What events paint -/

/-- Applied to any mirror that knows the surface, the events paint a region and nothing else. -/
def EventsPaint (key : SurfaceKey) (region : Point → Prop)
    (change : Point → Option Rgba → Option Rgba) (events : List DrawEvent) : Prop :=
  ∀ (mirror : SurfaceMirror) surface, mirror.surfaces.lookup key = some surface →
    (mirror.applyAll events).Ensures fun mirror' => ∃ drawn,
      mirror'.surfaces.lookup key = some drawn ∧ DisplaySurface.SameFrame surface drawn ∧
      Painted region change surface.colour drawn.colour ∧
      ∀ other, other ≠ key → mirror'.surfaces.lookup other = mirror.surfaces.lookup other

section Events

variable {key : SurfaceKey} {change : Point → Option Rgba → Option Rgba} {region : Point → Prop}

theorem eventsPaint_nil (empty : ∀ point, ¬region point) : EventsPaint key region change [] :=
  fun _ surface known => ⟨surface, known, ⟨rfl, rfl, rfl⟩, .refl region empty, fun _ _ => rfl⟩

variable {events : List DrawEvent}

theorem EventsPaint.cons {first rest : Point → Prop} {event : DrawEvent}
    (early : EventsPaint key first change [event]) (late : EventsPaint key rest change events)
    (apart : ∀ point, first point → ¬rest point) :
    EventsPaint key (fun point => first point ∨ rest point) change (event :: events) := by
  intro mirror surface known
  have split : mirror.applyAll (event :: events) =
      mirror.applyAll [event] >>= fun middle => middle.applyAll events := by
    rw [← singleton_append, applyAll, foldlM_append]
    rfl
  rw [split]
  refine (early mirror surface known).bind
    fun middle ⟨between, known', frame, painted, spared⟩ => ?_
  refine (late middle between known').mono
    fun mirror' ⟨drawn, last, frame', painted', spared'⟩ => ?_
  refine ⟨drawn, last, frame.trans frame', painted.union painted' apart, fun other ne => ?_⟩
  rw [spared' other ne, spared other ne]

theorem eventsPaint_single {event : DrawEvent}
    (call : DisplaySurface → Outcome Empty DisplaySurface)
    (dispatched : ∀ (mirror : SurfaceMirror) surface, mirror.surfaces.lookup key = some surface →
      mirror.applyEvent event = mirror.draw key call)
    (paints : ∀ surface, (call surface).Ensures fun after =>
      DisplaySurface.SameFrame surface after ∧ Painted region change surface.colour after.colour) :
    EventsPaint key region change [event] := by
  intro mirror surface known
  rw [applyAll, foldlM_cons, dispatched mirror surface known, bind_assoc]
  refine (draw_ensures known (paints surface)).bind fun result drawn => ?_
  obtain ⟨after, ⟨frame, painted⟩, last, spared⟩ := drawn
  exact ⟨after, last, frame, painted, spared⟩

theorem EventsPaint.congr {region' : Point → Prop}
    {change' : Point → Option Rgba → Option Rgba} (paints : EventsPaint key region change events)
    (same : ∀ point, region' point ↔ region point)
    (agree : ∀ point, region point → change' point = change point) :
    EventsPaint key region' change' events := by
  intro mirror surface known
  refine (paints mirror surface known).mono fun mirror' ⟨drawn, last, frame, painted, spared⟩ => ?_
  have agreed := painted.congr_change fun point inside => congrFun (agree point inside) _
  exact ⟨drawn, last, frame, agreed.congr same, spared⟩

theorem boxEvents_paint {build : Ltrb → Outcome Empty DrawEvent} {boxes : List Ltrb}
    (apart : boxes.Pairwise Clip.Apart) (each : ∀ box ∈ boxes, (build box).Ensures fun event =>
      EventsPaint key (fun point => box.covers point) change [event]) :
    (boxes.mapM build).Ensures fun events =>
      EventsPaint key (Clip.Covered boxes) change events := by
  induction boxes with
  | nil =>
    refine eventsPaint_nil fun point => ?_
    rintro ⟨box, listed, -⟩
    cases listed
  | cons box boxes ih =>
    obtain ⟨first, rest⟩ := pairwise_cons.mp apart
    rw [mapM_cons]
    refine (each box mem_cons_self).bind fun event early => ?_
    refine (ih rest fun other listed => each other (mem_cons_of_mem box listed)).bind
      fun events late => ?_
    have both := early.cons late ?_
    · refine both.congr (fun point => ?_) fun _ _ => rfl
      simp [Clip.Covered]
    · rintro point inside ⟨other, listed, inside'⟩
      exact first other listed point ⟨inside, inside'⟩

end Events

variable (composite : CompositeMode) (key : SurfaceKey)

open UInt32

theorem buildImageEvent_paints (left_small : left < 2 ^ 32)
    (top_small : top < 2 ^ 32) (sized : block.Sized) : EventsPaint key
      (fun point => (box left top block.width block.height).covers point)
      (paintOver composite block.pixels block.width left top)
      [buildImageEvent composite key left top block] := by
  have width_le := sized.width_le
  have height_le := sized.height_le
  have length : block.height * (block.width * 4) ≤ block.pixels.length :=
    Nat.le_of_eq sized.length.symm
  have size : size = 2 ^ 32 := rfl
  have left_eq : (ofNat left).toNat = left := toNat_ofNat_of_lt' left_small
  have top_eq : (ofNat top).toNat = top := toNat_ofNat_of_lt' top_small
  have width_eq : (ofNat block.width).toNat = block.width :=
    toNat_ofNat_of_lt' (by omega)
  have height_eq : (ofNat block.height).toNat = block.height :=
    toNat_ofNat_of_lt' (by omega)
  cases composite with
  | overwrite =>
    refine eventsPaint_single (fun surface =>
      surface.blit left top block.width block.height block.pixels) ?_ fun surface => ?_
    · intro mirror surface known
      have listed : key ∈ mirror.surfaces := by
        rw [← AList.lookup_isSome, known]
        rfl
      rw [buildImageEvent, applyEvent]
      simp only [left_eq, top_eq, width_eq, height_eq, if_pos listed]
    · exact surface.blit_paints (by omega) (by omega) length
  | chromaKey chroma =>
    refine eventsPaint_single (fun surface =>
      surface.blitChroma left top block.width block.height block.pixels chroma) ?_ fun surface => ?_
    · intro mirror surface known
      rw [buildImageEvent, applyEvent]
      simp only [left_eq, top_eq, width_eq, height_eq]
    · exact surface.blitChroma_paints (by omega) length chroma
  | alphaBlend alpha =>
    refine eventsPaint_single (fun surface =>
      surface.blitAlpha left top block.width block.height block.pixels alpha) ?_ fun surface => ?_
    · intro mirror surface known
      rw [buildImageEvent, applyEvent]
      simp only [left_eq, top_eq, width_eq, height_eq]
    · exact surface.blitAlpha_paints (by omega) length alpha

theorem buildBoxEvent_paints (sized : block.Sized) {box : Ltrb} (proper : box.isEmpty = false)
    (starts : left ≤ box.left ∧ top ≤ box.top)
    (ends : box.right ≤ left + block.width ∧ box.bottom ≤ top + block.height)
    (small : box.right < 2 ^ 32 ∧ box.bottom < 2 ^ 32) :
    (buildBoxEvent composite key left top block box).Ensures fun event =>
      EventsPaint key (fun point => box.covers point)
        (paintOver composite block.pixels block.width left top) [event] := by
  have ordered : box.left < box.right ∧ box.top < box.bottom := by
    simpa [DamageRect.isEmpty] using proper
  rw [buildBoxEvent]
  simp (disch := omega) only [subChecked_ok, ok_bind]
  refine (copyBlock_ensures sized (by omega) (by omega)).bind fun sub copied => ?_
  obtain ⟨width, height, sub_sized, colours⟩ := copied
  have paints := buildImageEvent_paints composite key (show box.left < 2 ^ 32 by omega)
    (show box.top < 2 ^ 32 by omega) sub_sized
  refine paints.congr (fun point => ?_) fun point inside => ?_
  · rw [box_covers, DamageRect.covers_iff, width, height]
    omega
  · rw [box_covers, width, height] at inside
    have source := colours (point.x - box.left) (by omega) (point.y - box.top) (by omega)
    rw [PixelBlock.colour, PixelBlock.colour,
      show box.left - left + (point.x - box.left) = point.x - left by omega,
      show box.top - top + (point.y - box.top) = point.y - top by omega] at source
    funext dest
    rw [paintOver, paintOver, source]

/-! ## Draws -/

/-- The clip lets a pixel be drawn. -/
def Clip.Admits (clip : Clip) (point : Point) : Prop :=
  clip.clipType = clipTypeRects → ∃ rect ∈ clip.rects, Clip.Holds rect point

def ClipArea.isTooComplex : ClipArea → Bool
  | .tooComplex _ => true
  | _ => false

/-- The pixels that a draw of a block paints. -/
def drawnRegion (base : DrawBase) (block : PixelBlock) (point : Point) : Prop :=
  (base.clip.clipArea (destination base block)).isTooComplex = false ∧
    (box (ltrb base.bbox).left (ltrb base.bbox).top block.width
      block.height).covers point ∧ base.clip.Admits point

theorem destination_covers {base : DrawBase} {rects : List Rect}
    (clip : base.clip = ⟨clipTypeRects, rects⟩) (point : Point) :
    (destination base block).covers point ∧ (∃ rect ∈ rects, Clip.Holds rect point) ↔
      (box (ltrb base.bbox).left (ltrb base.bbox).top block.width
        block.height).covers point ∧ base.clip.Admits point := by
  rw [clip, Clip.Admits, box_covers, DamageRect.covers_iff]
  simp only [forall_const]
  refine and_congr_left fun ⟨rect, _, held⟩ => ?_
  obtain ⟨-, right, -, bottom⟩ := held
  have right_lt : rect.right.toInt < 2 ^ 31 := rect.right.toInt_lt
  have bottom_lt : rect.bottom.toInt < 2 ^ 31 := rect.bottom.toInt_lt
  dsimp only [destination]
  omega

theorem blockEvents_paint (base : DrawBase) (sized : block.Sized) :
    (blockEvents composite key base block).Ensures (EventsPaint key (drawnRegion base block)
        (paintOver composite block.pixels block.width (ltrb base.bbox).left
          (ltrb base.bbox).top)) := by
  have left_small : (ltrb base.bbox).left < 2 ^ 32 := base.bbox.left.toUInt32.toNat_lt
  have top_small : (ltrb base.bbox).top < 2 ^ 32 := base.bbox.top.toUInt32.toNat_lt
  unfold blockEvents eventClip drawnRegion
  dsimp only
  by_cases clipped : base.clip.clipType = clipTypeRects
  · have clip : base.clip = ⟨clipTypeRects, base.clip.rects⟩ := by rw [← clipped]
    cases area : base.clip.clipArea (destination base block) with
    | whole => exact absurd clipped (clipArea_eq_whole area)
    | nothing =>
      rw [clip] at area
      refine eventsPaint_nil fun point inside => ?_
      exact clipArea_nothing_iff.mp area point ((destination_covers clip point).mpr inside.2)
    | tooComplex sent => exact eventsPaint_nil fun _ inside => Bool.noConfusion inside.1
    | rects boxes =>
      rw [clip] at area
      obtain ⟨inside, apart, -, covers⟩ := clipArea_boxes area
      have nonempty : boxes.isEmpty = false :=
        isEmpty_eq_false_iff.mpr (clipArea_boxes_ne_nil area)
      dsimp only
      rw [nonempty, if_neg Bool.false_ne_true]
      refine (boxEvents_paint apart fun box listed => ?_).mono fun events paints =>
        paints.congr (fun point => ?_) fun _ _ => rfl
      · obtain ⟨proper, within⟩ := inside box listed
        rw [DamageRect.contains_iff] at within
        dsimp only [destination] at within ⊢
        exact buildBoxEvent_paints composite key sized proper (by omega) (by omega) (by omega)
      · rw [covers, destination_covers clip]
        exact and_iff_right rfl
  · have area : base.clip.clipArea (destination base block) = .whole := if_pos clipped
    rw [area]
    refine (buildImageEvent_paints composite key left_small top_small sized).congr
      (fun point => ?_) fun _ _ => rfl
    exact ⟨fun inside => inside.2.1,
      fun inside => ⟨rfl, inside, fun listed => absurd listed clipped⟩⟩

theorem blockEvents_tooComplex {composite : CompositeMode} {key : SurfaceKey} {base : DrawBase}
    (clip : Clip) (clipped : base.clip = clip) {sent : Nat}
    (area : clip.clipArea (destination base block) = .tooComplex sent) :
    blockEvents composite key base block = .ok [] := by
  rw [blockEvents, eventClip, clipped, area]
  rfl

/-- A draw of a decoded image paints its part in the source rectangle onto the destination, each
pixel once, where the clip admits it.  A clip that is too complex skips the draw. -/
theorem image_drawn (composite : CompositeMode) (channelId : UInt8) (base : DrawBase)
    (srcArea : Rect) (image : DecompressedImage) (mirror : SurfaceMirror) (surface : DisplaySurface)
    (known : mirror.surfaces.lookup ⟨channelId, base.surfaceId⟩ = some surface) :
    ∃ block events mirror' drawn, crop image.block (ltrb srcArea) = .ok block ∧
      (Overlaps (ltrb srcArea) image.block → block.IsPart image.block (ltrb srcArea)) ∧
      emitImage composite channelId base srcArea image = .ok events ∧
      mirror.applyAll events = .ok mirror' ∧
      mirror'.surfaces.lookup ⟨channelId, base.surfaceId⟩ = some drawn ∧
      DisplaySurface.SameFrame surface drawn ∧ Painted (drawnRegion base block)
        (paintOver composite block.pixels block.width (ltrb base.bbox).left
          (ltrb base.bbox).top) surface.colour drawn.colour ∧
      ∀ other, other ≠ ⟨channelId, base.surfaceId⟩ →
        mirror'.surfaces.lookup other = mirror.surfaces.lookup other := by
  obtain ⟨block, cropped, sized, part⟩ :=
    (crop_ensures image.block_sized (ltrb srcArea)).returns
  obtain ⟨events, built, paints⟩ :=
    (blockEvents_paint composite ⟨channelId, base.surfaceId⟩ base sized).returns
  obtain ⟨mirror', applied, drawn, last, frame, painted, spared⟩ :=
    (paints mirror surface known).returns
  refine ⟨block, events, mirror', drawn, cropped, part, ?_, applied, last, frame, painted, spared⟩
  rw [emitImage, cropped]
  exact built

def blackPixel : SurfaceMirror where
  surfaces := AList.singleton ⟨0, 0⟩
    { id := 0, width := 1, height := 1, pixels := ⟨[0, 0, 0, 255], rfl⟩, dirty := false,
      damage := .empty, width_le := one_le_maxSurfaceDimension,
      height_le := one_le_maxSurfaceDimension }

def SurfaceMirror.origin (mirror : SurfaceMirror) : Option Rgba :=
  (mirror.surfaces.lookup ⟨0, 0⟩).bind fun surface => surface.colour ⟨0, 0⟩

def redGreen : DecompressedImage where
  width := 2
  height := 1
  pixels := [255, 0, 0, 255, 0, 255, 0, 255]
  imageId := 0
  winHeadDist := 0
  sized := by decide

theorem green_drawn : ∃ events mirror', emitImage .overwrite 0 ⟨0, ⟨0, 0, 1, 1⟩, ⟨0, []⟩⟩
      ⟨0, 1, 1, 2⟩ redGreen = .ok events ∧ blackPixel.applyAll events = .ok mirror' ∧
    mirror'.origin = some ⟨0, 255, 0, 255⟩ := by
  obtain ⟨block, events, mirror', drawn, cropped, -, emitted, applied, last, -, painted, -⟩ :=
    image_drawn .overwrite 0 ⟨0, ⟨0, 0, 1, 1⟩, ⟨0, []⟩⟩ ⟨0, 1, 1, 2⟩ redGreen blackPixel _ rfl
  refine ⟨events, mirror', emitted, applied, ?_⟩
  rw [origin, last]
  have green : block = ⟨1, 1, [0, 255, 0, 255]⟩ :=
    Outcome.ok.inj (cropped.symm.trans (by decide +kernel))
  subst green
  exact (painted ⟨0, 0⟩).1 ⟨by decide, by decide, fun listed => absurd listed (by decide)⟩

def whiteRow : DecompressedImage where
  width := 1025
  height := 1
  pixels := List.replicate 4100 255
  imageId := 0
  winHeadDist := 0
  sized := by
    rw [length_replicate]
    rfl

def pixelClip (count : Nat) : Clip where
  clipType := clipTypeRects
  rects := (List.range count).map fun x => ⟨0, Int32.ofNat x, 1, Int32.ofNat (x + 1)⟩

theorem pixelClip_admits (nonempty : 0 < count) : (pixelClip count).Admits ⟨0, 0⟩ := by
  intro _
  refine ⟨_, mem_map.mpr ⟨0, mem_range.mpr nonempty, rfl⟩, ?_⟩
  rw [Clip.Holds]
  decide

theorem clamp_pixel {x : Nat} (listed : x < count) (small : count < 2 ^ 31) :
    clamp ⟨0, Int32.ofNat x, 1, Int32.ofNat (x + 1)⟩ ⟨0, 0, count, 1⟩ =
      some ⟨x, 0, x + 1, 1⟩ := by
  have left : (Int32.ofNat x).toInt = x := Int32.toInt_ofNat_of_lt (by omega)
  have right : (Int32.ofNat (x + 1)).toInt = (x + 1 : Nat) := Int32.toInt_ofNat_of_lt (by omega)
  have zero : (0 : Int32).toInt = 0 := rfl
  have one : (1 : Int32).toInt = 1 := rfl
  simp only [clamp, left, right, zero, one]
  rw [if_neg (by omega)]
  congr 2 <;> omega

theorem pixelClip_tooComplex (many : maxClipRects < count) (small : count < 2 ^ 31) :
    (pixelClip count).clipArea ⟨0, 0, count, 1⟩ = .tooComplex count := by
  have distinct : ((List.range count).map fun x => (⟨x, 0, x + 1, 1⟩ : Ltrb)).Nodup :=
    nodup_range.map fun x x' same => congrArg DamageRect.left same
  have kept : ((List.range count).map fun x => (⟨x, 0, x + 1, 1⟩ : Ltrb)) ⊆
      clampedRects ⟨0, 0, count, 1⟩ (pixelClip count).rects [] := by
    intro clamped listed
    obtain ⟨x, ranged, rfl⟩ := mem_map.mp listed
    exact mem_clampedRects.mpr (.inr ⟨_, mem_map.mpr ⟨x, ranged, rfl⟩,
      clamp_pixel (mem_range.mp ranged) small⟩)
  have length_le := (subperm_of_subset distinct kept).length_le
  rw [length_map, length_range] at length_le
  have area := clipArea_eq (pixelClip count).rects ⟨0, 0, count, 1⟩
  rw [if_pos (Nat.lt_of_lt_of_le many length_le)] at area
  refine area.trans (congrArg ClipArea.tooComplex ?_)
  rw [pixelClip, length_map, length_range]

/-- A complex clip skips the draw, and a source rectangle off the image draws all of it. -/
theorem draw_skipped :
    emitImage .overwrite 0 ⟨0, ⟨0, 0, 1, 1025⟩, pixelClip 1025⟩ ⟨0, 0, 1, 1025⟩ whiteRow = .ok [] ∧
    (pixelClip 1025).Admits ⟨0, 0⟩ ∧
    ¬Overlaps (ltrb ⟨5, 5, 6, 6⟩) redGreen.block ∧
    blackPixel.origin = some ⟨0, 0, 0, 255⟩ ∧
    (emitImage .overwrite 0 ⟨0, ⟨0, 0, 1, 1⟩, ⟨0, []⟩⟩ ⟨5, 5, 6, 6⟩ redGreen >>= fun events => do
      return (← blackPixel.applyAll events).origin) = .ok (some ⟨255, 0, 0, 255⟩) := by
  have whole : crop whiteRow.block (ltrb ⟨0, 0, 1, 1025⟩) = .ok whiteRow.block := by
    rfl
  have area : (pixelClip 1025).clipArea (destination ⟨0, ⟨0, 0, 1, 1025⟩, pixelClip 1025⟩
      whiteRow.block) = .tooComplex 1025 := by
    exact pixelClip_tooComplex (by decide) (by decide)
  refine ⟨?_, pixelClip_admits (by decide), by decide, by decide, by decide +kernel⟩
  rw [emitImage, whole, ok_bind]
  exact blockEvents_tooComplex (pixelClip 1025) rfl area

end Ryll
