import Ryll.Display.Draw
import Ryll.Foundation.Painting

/-!
# What copies of pixel data paint

The copies of pixel data onto a surface paint the rectangle they are given, each pixel of it once,
with the pixel of the data in the same place.
-/

namespace Ryll

open List

/-! ## Compositing -/

/-- How pixel data is combined with what is on the surface. -/
inductive CompositeMode
  | overwrite
  /-- Pixels of the given colour, its alpha apart, are left out. -/
  | chromaKey (chroma : Rgba)
  /-- The data is blended over the surface, with its alpha scaled. -/
  | alphaBlend (alpha : UInt8)
  deriving DecidableEq

/-- What becomes of a pixel of the surface. -/
def CompositeMode.composite : CompositeMode → (source dest : Rgba) → Rgba
  | .overwrite, source, _ => source
  | .chromaKey chroma, source, dest =>
    if source.r = chroma.r ∧ source.g = chroma.g ∧ source.b = chroma.b then dest else source
  | .alphaBlend alpha, source, dest => if alpha = 0 then dest else blendOver alpha source dest

/-! ## The colours of a surface -/

namespace DisplaySurface

def colour (surface : DisplaySurface) (point : Point) : Option Rgba :=
  if surface.holds point then
    colourAt surface.pixels.items (cellOffset (surface.width * 4) point.y (point.x * 4))
  else
    none

def withPixels (surface : DisplaySurface)
    (pixels : FixedBuffer UInt8 (surface.width * surface.height * 4)) : DisplaySurface :=
  { surface with pixels }

variable {surface : DisplaySurface} {point : Point} {top : Nat} {mode : CompositeMode}
  {data : Bytes}

theorem colour_of_holds (on : surface.holds point) : ∃ colour, surface.colour point = some colour ∧
      colourAt surface.pixels.items (cellOffset (surface.width * 4) point.y (point.x * 4)) =
        some colour := by
  have inside := surface.pixel_inside (holds_iff.mp on).1 (holds_iff.mp on).2
  rw [← surface.pixels.sized] at inside
  obtain ⟨colour, present⟩ := colourAt_isSome inside
  exact ⟨colour, (if_pos on).trans present, present⟩

theorem colour_of_not_holds (off : ¬surface.holds point) : surface.colour point = none :=
  if_neg off

theorem pixel_eq (surface : DisplaySurface) (point : Point) :
    surface.pixel point = (surface.colour point).map Rgba.bytes := by
  by_cases on : surface.holds point
  · obtain ⟨colour, known, present⟩ := colour_of_holds on
    obtain ⟨red, green, blue, alpha⟩ := colourAt_eq_some.mp present
    rw [known, pixel_of_holds rfl on, Option.map_some, Rgba.bytes, Option.some.injEq]
    refine ext_getElem? fun channel => ?_
    rcases channel with _ | _ | _ | _ | channel
    all_goals simp_all
  · rw [colour_of_not_holds on, pixel_of_not_holds on]
    rfl

/-! ## One pixel and one row -/

theorem colour_withPixels (surface : DisplaySurface) (pixels : surface.Buffer) (point : Point) :
    (surface.withPixels pixels).colour point = if surface.holds point then
        colourAt pixels.items (cellOffset (surface.width * 4) point.y (point.x * 4))
      else
        none := rfl

/-- What pixel data at a corner makes of the pixel at a point. -/
def paintOver (mode : CompositeMode) (data : Bytes) (width left top : Nat) (point : Point)
    (dest : Option Rgba) : Option Rgba := do
  let source ← colourAt data (cellOffset (width * 4) (point.y - top) ((point.x - left) * 4))
  return mode.composite source (← dest)

section Pieces

variable {surface : DisplaySurface} {pixels painted : surface.Buffer}

theorem colour_splice {line start count : Nat} {source : Bytes}
    (length : source.length = count * 4) (fits : start + count ≤ surface.width)
    (listed : line < surface.height)
    (items : painted.items =
      splice pixels.items (cellOffset (surface.width * 4) line (start * 4)) source)
    (point : Point) :
    (surface.withPixels painted).colour point =
      if point.y = line ∧ start ≤ point.x ∧ point.x < start + count then
        colourAt source ((point.x - start) * 4)
      else
        (surface.withPixels pixels).colour point := by
  have whole : cellOffset (surface.width * 4) line (start * 4) + source.length ≤
      pixels.items.length := by
    rw [length, pixels.sized, ← surface.pixels.sized, surface.pixels_length]
    exact cellOffset_add_le listed (by omega)
  by_cases on : surface.holds point
  · have on_x := (holds_iff.mp on).1
    have bytes (channel : Nat) (small : channel < 4) :
        painted.items[cellOffset (surface.width * 4) point.y (point.x * 4) + channel]? =
          if point.y = line ∧ start * 4 ≤ point.x * 4 + channel ∧
              point.x * 4 + channel < start * 4 + source.length then
            source[point.x * 4 + channel - start * 4]?
          else
            pixels.items[cellOffset (surface.width * 4) point.y (point.x * 4) + channel]? := by
      have column : cellOffset (surface.width * 4) point.y (point.x * 4) + channel =
          cellOffset (surface.width * 4) point.y (point.x * 4 + channel) := Nat.add_assoc _ _ _
      rw [items, column]
      exact getElem?_splice_segment (by omega) (by omega) whole
    rw [colour_withPixels, colour_withPixels, if_pos on, if_pos on]
    split
    · next within =>
      apply colourAt_congr
      intro channel small
      rw [bytes channel small, if_pos (by omega)]
      congr 1
      omega
    · next outside =>
      apply colourAt_congr
      intro channel small
      rw [bytes channel small, if_neg (by omega)]
  · have off : ¬(point.y = line ∧ start ≤ point.x ∧ point.x < start + count) := by
      rw [holds_iff] at on
      omega
    rw [if_neg off, colour_withPixels, colour_withPixels, if_neg on, if_neg on]

theorem painted_pixel {width left x y : Nat}
    {source dest : Rgba} (on_x : left + x < surface.width) (on_y : top + y < surface.height)
    (read : colourAt data (cellOffset (width * 4) y (x * 4)) = some source)
    (known : (surface.withPixels pixels).colour ⟨left + x, top + y⟩ = some dest)
    (items : painted.items = splice pixels.items
      (cellOffset (surface.width * 4) (top + y) ((left + x) * 4))
      (mode.composite source dest).bytes) :
    Painted (fun point => point = ⟨left + x, top + y⟩) (paintOver mode data width left top)
      (surface.withPixels pixels).colour (surface.withPixels painted).colour := by
  have length : (mode.composite source dest).bytes.length = 1 * 4 := rfl
  have colours := colour_splice length on_x on_y items
  intro point
  rw [colours point]
  constructor
  · rintro rfl
    rw [if_pos ⟨rfl, Nat.le_refl _, Nat.lt_succ_self _⟩, Nat.sub_self, paintOver, known]
    rw [Nat.add_sub_cancel_left, Nat.add_sub_cancel_left, read]
    rfl
  · intro other
    refine if_neg fun same => other ?_
    obtain ⟨px, py⟩ := point
    simp only [Point.mk.injEq] at same ⊢
    omega

theorem painted_row {width left y count : Nat}
    (fits : left + count ≤ surface.width) (listed : top + y < surface.height)
    (source_inside : y * (width * 4) + count * 4 ≤ data.length)
    (items : painted.items = splice pixels.items
      (cellOffset (surface.width * 4) (top + y) (left * 4))
      ((data.drop (y * (width * 4))).take (count * 4))) :
    Painted (fun point => point.y = top + y ∧ left ≤ point.x ∧ point.x < left + count)
      (paintOver .overwrite data width left top) (surface.withPixels pixels).colour
      (surface.withPixels painted).colour := by
  have length : ((data.drop (y * (width * 4))).take (count * 4)).length = count * 4 := by
    rw [length_take, length_drop]
    omega
  have colours := colour_splice length fits listed items
  intro point
  rw [colours point]
  refine ⟨fun inside => ?_, fun outside => if_neg outside⟩
  rw [if_pos inside]
  obtain ⟨row, lower, upper⟩ := inside
  have on : surface.holds point := by
    rw [holds_iff]
    omega
  obtain ⟨dest, known, -⟩ := @colour_of_holds (surface.withPixels pixels) point on
  have segment : colourAt ((data.drop (y * (width * 4))).take (count * 4))
      ((point.x - left) * 4) =
        colourAt data (cellOffset (width * 4) (point.y - top) ((point.x - left) * 4)) := by
    apply colourAt_congr
    intro channel small
    rw [getElem?_take_of_lt (by omega), getElem?_drop, row, cellOffset, Nat.add_sub_cancel_left]
    congr 1
    omega
  rw [segment, paintOver, known]
  cases colourAt data (cellOffset (width * 4) (point.y - top) ((point.x - left) * 4)) <;> rfl

end Pieces

/-! ## The copies -/

def box (left top width height : Nat) : DamageRect := ⟨left, top, left + width, top + height⟩

theorem box_covers {left width height : Nat} : (box left top width height).covers point ↔
      left ≤ point.x ∧ point.x < left + width ∧ top ≤ point.y ∧ point.y < top + height :=
  DamageRect.covers_iff

theorem paintOver_none (mode : CompositeMode) (data : Bytes) (width left top : Nat)
    (point : Point) : paintOver mode data width left top point none = none := by
  rw [paintOver]
  cases colourAt data _ <;> rfl

theorem painted_same {region : Point → Prop} {width left : Nat}
    (still : ∀ point, surface.holds point → region point → ∃ source,
      colourAt data (cellOffset (width * 4) (point.y - top) ((point.x - left) * 4)) = some source ∧
        ∀ dest, mode.composite source dest = dest) :
    Painted region (paintOver mode data width left top) surface.colour surface.colour := by
  intro point
  refine ⟨fun inside => ?_, fun _ => rfl⟩
  by_cases on : surface.holds point
  · obtain ⟨source, read, same⟩ := still point on inside
    obtain ⟨dest, known, -⟩ := colour_of_holds on
    rw [paintOver, read, known]
    exact congrArg some (same dest).symm
  · rw [colour_of_not_holds on, paintOver_none]

section

variable {left width height : Nat}

theorem painted_off (off : left ≥ surface.width ∨ top ≥ surface.height ∨ width = 0 ∨ height = 0) :
    Painted (fun point => (box left top width height).covers point)
      (paintOver mode data width left top) surface.colour surface.colour := by
  refine painted_same fun point on inside => ?_
  rw [box_covers] at inside
  rw [holds_iff] at on
  omega

theorem painted_whole {written : surface.Buffer} (painted : Painted (fun point =>
      (box left top (min width (surface.width - left)) (min height (surface.height - top))).covers
        point) (paintOver mode data width left top) surface.colour
      (surface.withPixels written).colour) :
    Painted (fun point => (box left top width height).covers point)
      (paintOver mode data width left top) surface.colour (surface.withPixels written).colour := by
  intro point
  by_cases on : surface.holds point
  · have same := painted point
    rw [holds_iff] at on
    simp only [box_covers] at same ⊢
    exact ⟨fun inside => same.1 (by omega), fun outside => same.2 (by omega)⟩
  · have off : ¬(surface.withPixels written).holds point := on
    rw [colour_of_not_holds on, colour_of_not_holds off, paintOver_none]
    exact ⟨fun _ => rfl, fun _ => rfl⟩

end

/-- Copy the first `count` pixels of the first rows of the data. -/
def blitRows (surface : DisplaySurface) (data : Bytes) (width left top count rows : Nat) :
    Outcome Empty (FixedBuffer UInt8 (surface.width * surface.height * 4)) :=
  forIndex (fun y => copyRow data (y * (width * 4))
    (cellOffset (surface.width * 4) (top + y) (left * 4)) (count * 4)) 0 rows surface.pixels

theorem blitRows_painted {width left count rows : Nat} (width_small : width < 2 ^ 32)
    (count_le : count ≤ width) (fits : left + count ≤ surface.width)
    (listed : top + rows ≤ surface.height) (sized : rows * (width * 4) ≤ data.length) :
    (surface.blitRows data width left top count rows).Ensures fun written =>
      Painted (fun point => (box left top count rows).covers point)
        (paintOver .overwrite data width left top) surface.colour
        (surface.withPixels written).colour := by
  have height_le : surface.height ≤ 16384 := surface.height_le
  have painted : (surface.blitRows data width left top count rows).Ensures fun written =>
      Painted (fun point => ∃ y, 0 ≤ y ∧ y < 0 + rows ∧
          (point.y = top + y ∧ left ≤ point.x ∧ point.x < left + count))
        (paintOver .overwrite data width left top) surface.colour
        (surface.withPixels written).colour := by
    refine forIndex_painted (fun pixels => (surface.withPixels pixels).colour) _
      (fun first second below point inside inside' => by omega) ?_ surface.pixels
    intro y pixels _ upper
    have source_le : y * (width * 4) ≤ 16384 * (2 ^ 32 * 4) := Nat.mul_le_mul (by omega) (by omega)
    have source_inside : y * (width * 4) + count * 4 ≤ data.length := by
      have next : (y + 1) * (width * 4) ≤ rows * (width * 4) :=
        Nat.mul_le_mul_right _ (by omega)
      rw [Nat.succ_mul] at next
      omega
    have dest_inside : cellOffset (surface.width * 4) (top + y) (left * 4) + count * 4 ≤
        surface.width * surface.height * 4 := by
      rw [← surface.pixels.sized, surface.pixels_length]
      exact cellOffset_add_le (by omega) (by omega)
    have small := surface.pixels_small
    obtain ⟨copied, returned, items⟩ := copyRow_ok (ε := Empty) pixels (by omega) (by omega)
      source_inside dest_inside
    rw [returned]
    exact painted_row fits (by omega) source_inside items
  refine painted.mono fun written whole => whole.congr fun point => ?_
  rw [box_covers]
  constructor
  · rintro ⟨lower, right, upper, bottom⟩
    exact ⟨point.y - top, Nat.zero_le _, by omega, by omega, lower, right⟩
  · rintro ⟨y, -, upper, row, lower, right⟩
    omega

variable {left width height : Nat}

theorem blit_paints (surface : DisplaySurface)
    (width_small : width < 2 ^ 32) (height_small : height < 2 ^ 32)
    (sized : height * (width * 4) ≤ data.length) :
    (surface.blit left top width height data).Ensures fun after =>
      SameFrame surface after ∧ Painted (fun point => (box left top width height).covers point)
          (paintOver .overwrite data width left top) surface.colour after.colour := by
  obtain ⟨width_le, height_le⟩ := surface.bounded
  unfold blit
  by_cases off : left ≥ surface.width ∨ top ≥ surface.height
  · rw [if_pos off]
    exact ⟨⟨rfl, rfl, rfl⟩, painted_off (by omega)⟩
  rw [if_neg off]
  simp (disch := omega) only [mulUsize_ok, ok_bind]
  have copyWidth : min (width * 4) (surface.width * 4 - left * 4) =
      min width (surface.width - left) * 4 := by omega
  have rows_sized : min height (surface.height - top) * (width * 4) ≤ data.length :=
    Nat.le_trans (Nat.mul_le_mul_right _ (Nat.min_le_left _ _)) sized
  rw [copyWidth, forIndexWhile_eq (fun y => copyRow data (y * (width * 4))
    (cellOffset (surface.width * 4) (top + y) (left * 4)) (min width (surface.width - left) * 4))
    (Nat.zero_le (surface.height - top)) ?runs ?leaves, Nat.sub_zero]
  case runs =>
    intro y written upper on
    have source_le : y * (width * 4) ≤ 16384 * (2 ^ 32 * 4) := Nat.mul_le_mul (by omega) (by omega)
    have dest_le : (top + y) * (surface.width * 4) ≤ 16384 * (16384 * 4) :=
      Nat.mul_le_mul (by omega) (by omega)
    have next : (y + 1) * (width * 4) ≤ height * (width * 4) := Nat.mul_le_mul_right _ (by omega)
    have below : (top + y + 1) * (surface.width * 4) ≤ surface.height * (surface.width * 4) :=
      Nat.mul_le_mul_right _ (by omega)
    have length : written.items.length = surface.height * (surface.width * 4) := by
      rw [written.sized, ← surface.pixels.sized, surface.pixels_length]
    rw [Nat.succ_mul] at next below
    rw [addUsize_ok (by omega), ok_bind, if_neg (by omega)]
    simp (disch := omega) only [mulUsize_ok, addUsize_ok, ok_bind]
    rw [if_pos (by omega)]
    rfl
  case leaves =>
    intro y written upper past
    rw [addUsize_ok (by omega), ok_bind, if_pos (by omega)]
    rfl
  refine (blitRows_painted width_small (Nat.min_le_left _ _) (by omega) (by omega)
    rows_sized).bind fun written painted => ?_
  rw [addChecked_ok (by omega), ok_bind]
  refine (surface.damage.add_ensures _).bind fun damage _ => ?_
  exact ⟨⟨rfl, rfl, rfl⟩, painted_whole painted⟩

theorem paintRows_painted {σ : Type} {paint : (sp dstRow x : Nat) → σ → Outcome Empty σ}
    (view : σ → Point → Option Rgba) (change : Point → Option Rgba → Option Rgba)
    {left width height clipW clipH : Nat}
    (width_small : width < 2 ^ 32) (sized : height * (width * 4) ≤ data.length)
    (clipW_le : clipW ≤ width) (clipH_le : clipH ≤ height)
    (right_le : left + clipW ≤ surface.width) (bottom_le : top + clipH ≤ surface.height)
    (round : ∀ x y state, x < clipW → y < clipH →
      cellOffset (width * 4) y (x * 4) + 4 ≤ data.length →
      cellOffset (width * 4) y (x * 4) + 4 < 2 ^ 64 → (paint (cellOffset (width * 4) y (x * 4))
        (cellOffset (surface.width * 4) (top + y) (left * 4)) x state).Ensures fun state' =>
          Painted (fun point => point = ⟨left + x, top + y⟩) change (view state) (view state'))
    (state : σ) : (paintRows paint (width * 4) (surface.width * 4) left top clipW clipH data.length
      state).Ensures fun state' =>
        Painted (fun point => (box left top clipW clipH).covers point) change (view state)
          (view state') := by
  obtain ⟨width_le, height_le⟩ := surface.bounded
  let inRow (y : Nat) (point : Point) : Prop :=
    ∃ x, 0 ≤ x ∧ x < 0 + clipW ∧ point = ⟨left + x, top + y⟩
  have rows : (paintRows paint (width * 4) (surface.width * 4) left top clipW clipH data.length
      state).Ensures fun state' =>
        Painted (fun point => ∃ y, 0 ≤ y ∧ y < 0 + clipH ∧ inRow y point) change (view state)
          (view state') := by
    refine forIndex_painted view inRow ?_ ?_ state
    · rintro first second below point ⟨x, -, -, rfl⟩ ⟨x', -, -, same⟩
      simp only [Point.mk.injEq] at same
      omega
    · intro y state _ upper
      have source_le : y * (width * 4) ≤ 16384 * (2 ^ 32 * 4) :=
        Nat.mul_le_mul (by omega) (by omega)
      have next : (y + 1) * (width * 4) ≤ height * (width * 4) :=
        Nat.mul_le_mul_right _ (by omega)
      rw [Nat.succ_mul] at next
      rw [mulUsize_ok (by omega), ok_bind,
        segmentStart_ok (by omega) (by omega) (by omega), ok_bind,
        forIndexWhile_eq (fun x state => paint (cellOffset (width * 4) y (x * 4))
          (cellOffset (surface.width * 4) (top + y) (left * 4)) x state)
          (Nat.zero_le clipW) ?runs ?leaves, Nat.sub_zero, Nat.min_self]
      case runs =>
        intro x state _ listed
        simp (disch := omega) only [mulUsize_ok, addUsize_ok, ok_bind]
        rw [if_neg (by omega)]
        rfl
      case leaves =>
        intro x state listed past
        omega
      refine forIndex_painted view (fun x point => point = ⟨left + x, top + y⟩) ?_ ?_ state
      · rintro first second below point rfl same
        simp only [Point.mk.injEq] at same
        omega
      · intro x state _ listed
        exact round x y state (by omega) (by omega) (by simp only [cellOffset]; omega)
          (by simp only [cellOffset]; omega)
  refine rows.mono fun state' painted => painted.congr fun point => ?_
  rw [box_covers]
  constructor
  · rintro ⟨lower, right, upper, bottom⟩
    refine ⟨point.y - top, Nat.zero_le _, by omega, point.x - left, Nat.zero_le _, by omega, ?_⟩
    obtain ⟨x, y⟩ := point
    simp only [Point.mk.injEq] at lower upper ⊢
    omega
  · rintro ⟨y, -, row_lt, x, -, column_lt, rfl⟩
    dsimp only
    omega

variable (surface : DisplaySurface)

theorem pixel_known (pixels : surface.Buffer) {x y : Nat}
    (on_x : x < surface.width) (on_y : y < surface.height) :
    ∃ dest, (surface.withPixels pixels).colour ⟨x, y⟩ = some dest ∧
      colourAt pixels.items (cellOffset (surface.width * 4) y (x * 4)) = some dest :=
  @colour_of_holds (surface.withPixels pixels) ⟨x, y⟩ (holds_iff.mpr ⟨on_x, on_y⟩)

theorem blitAlpha_paints
    (width_small : width < 2 ^ 32) (sized : height * (width * 4) ≤ data.length) (alpha : UInt8) :
    (surface.blitAlpha left top width height data alpha).Ensures fun after =>
      SameFrame surface after ∧ Painted (fun point => (box left top width height).covers point)
          (paintOver (.alphaBlend alpha) data width left top) surface.colour after.colour := by
  obtain ⟨width_le, height_le⟩ := surface.bounded
  unfold blitAlpha
  split
  · exact ⟨⟨rfl, rfl, rfl⟩, painted_off (by omega)⟩
  next on =>
  split
  · next unseen =>
    refine ⟨⟨rfl, rfl, rfl⟩, painted_same fun point _ inside => ?_⟩
    rw [box_covers] at inside
    obtain ⟨source, read⟩ := colourAt_isSome (Nat.le_trans (cellOffset_add_le
      (show point.y - top < height by omega)
      (show (point.x - left) * 4 + 4 ≤ width * 4 by omega)) sized)
    refine ⟨source, read, fun dest => if_pos ?_⟩
    exact (unseen.resolve_left (by omega)).resolve_left (by omega)
  next seen =>
  rw [subChecked_ok (by omega), ok_bind, subChecked_ok (by omega), ok_bind]
  rw [if_neg (by omega)]
  simp (disch := omega) only [mulUsize_ok, ok_bind]
  refine Outcome.Ensures.bind (paintRows_painted
    (fun pixels => (surface.withPixels pixels).colour)
    (paintOver (.alphaBlend alpha) data width left top) width_small sized (Nat.min_le_left _ _)
    (Nat.min_le_left _ _) (by omega) (by omega) ?_ surface.pixels) fun written painted => ?_
  · intro x y pixels x_lt y_lt inside small
    have on_x : left + x < surface.width := by omega
    have on_y : top + y < surface.height := by omega
    obtain ⟨dest, known, present⟩ := surface.pixel_known pixels on_x on_y
    obtain ⟨source, read⟩ := colourAt_isSome inside
    obtain ⟨painted, returned, items⟩ := blendPixel_ok surface.pixels_small
      (surface.pixel_inside on_x on_y) source alpha present
    rw [readPixel_eq small read, ok_bind, mulUsize_ok (by omega), ok_bind,
      pixel_position on_x on_y, ok_bind, returned]
    refine painted_pixel on_x on_y read known (items.trans ?_)
    rw [CompositeMode.composite, if_neg fun zero => seen (.inr (.inr zero))]
  · rw [addChecked_ok (by omega), ok_bind, addChecked_ok (by omega), ok_bind]
    refine (surface.damage.add_ensures _).bind fun damage _ => ?_
    exact ⟨⟨rfl, rfl, rfl⟩, painted_whole painted⟩

theorem blitChroma_paints
    (width_small : width < 2 ^ 32) (sized : height * (width * 4) ≤ data.length) (chroma : Rgba) :
    (surface.blitChroma left top width height data chroma).Ensures fun after =>
      SameFrame surface after ∧ Painted (fun point => (box left top width height).covers point)
          (paintOver (.chromaKey chroma) data width left top) surface.colour after.colour := by
  obtain ⟨width_le, height_le⟩ := surface.bounded
  unfold blitChroma
  split
  · exact ⟨⟨rfl, rfl, rfl⟩, painted_off (by omega)⟩
  next on =>
  split
  · exact ⟨⟨rfl, rfl, rfl⟩, painted_off (by omega)⟩
  next some_pixels =>
  rw [subChecked_ok (by omega), ok_bind, subChecked_ok (by omega), ok_bind]
  rw [if_neg (by omega)]
  simp (disch := omega) only [mulUsize_ok, ok_bind]
  refine Outcome.Ensures.bind (paintRows_painted
    (fun (state : surface.Buffer × Bool) => (surface.withPixels state.1).colour)
    (paintOver (.chromaKey chroma) data width left top) width_small sized (Nat.min_le_left _ _)
    (Nat.min_le_left _ _) (by omega) (by omega) ?_ (surface.pixels, false)) ?_
  · intro x y state x_lt y_lt inside small
    have on_x : left + x < surface.width := by omega
    have on_y : top + y < surface.height := by omega
    obtain ⟨dest, known, -⟩ := surface.pixel_known state.1 on_x on_y
    obtain ⟨source, read⟩ := colourAt_isSome inside
    rw [readPixel_eq small read, ok_bind]
    split
    · next keyed =>
      refine painted_same fun point _ here => ⟨source, ?_, fun dest => if_pos keyed⟩
      rw [here, Nat.add_sub_cancel_left, Nat.add_sub_cancel_left]
      exact read
    · next plain =>
      obtain ⟨painted, returned, items⟩ := setPixel_ok surface.pixels_small
        (surface.pixel_inside on_x on_y) source state.1
      rw [mulUsize_ok (by omega), ok_bind, pixel_position on_x on_y, ok_bind, returned, ok_bind]
      refine painted_pixel on_x on_y read known (items.trans ?_)
      rw [CompositeMode.composite, if_neg plain]
  · rintro ⟨written, wrote⟩ painted
    have whole := painted_whole painted
    cases wrote with
    | false => exact ⟨⟨rfl, rfl, rfl⟩, whole⟩
    | true =>
      rw [if_pos rfl, addChecked_ok (by omega), ok_bind, addChecked_ok (by omega), ok_bind]
      refine (surface.damage.add_ensures _).bind fun damage _ => ?_
      exact ⟨⟨rfl, rfl, rfl⟩, whole⟩

end DisplaySurface

end Ryll
