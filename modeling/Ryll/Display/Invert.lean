import Ryll.Display.ImageEvents

/-!
# Inverting twice

An inversion changes a pixel once for each clip rectangle that contains it.  The rectangles that a
wire clip is reduced to are disjoint, so each pixel is inverted once, and a second inversion
restores the surface.
-/

namespace Ryll

open DamageRect

@[simp]
theorem Rgba.inverted_inverted (colour : Rgba) : colour.inverted.inverted = colour := by
  have twice (channel : UInt8) : 255 - (255 - channel) = channel := by
    have channel_lt := channel.toNat_lt
    apply UInt8.toNat.inj
    simp only [UInt8.toNat_sub, UInt8.reduceToNat]
    omega
  simp only [inverted, twice]

namespace DisplaySurface

/-- The colours in a region were inverted, each of them once, and no others. -/
def Inverts (region : Point → Prop) (before after : DisplaySurface) : Prop :=
  SameFrame before after ∧
    Painted region (fun _ => Option.map Rgba.inverted) before.colour after.colour

variable {surface : DisplaySurface}

theorem invertSubrect_inverts {rect : DamageRect} (on : surface.bounds.contains rect) :
    (surface.invertSubrect rect).Ensures (surface.Inverts fun point => rect.covers point) := by
  obtain ⟨width_le, height_le⟩ := surface.bounded
  obtain ⟨-, -, right_le, bottom_le⟩ := contains_iff.mp on
  dsimp only [bounds] at right_le bottom_le
  simp (disch := omega) only [invertSubrect, paintSubrect, mulChecked_ok, ok_bind]
  refine (@forIndex_painted _ _ _ _ (fun pixels => (surface.withPixels pixels).colour)
    (fun _ => Option.map Rgba.inverted) _
    (fun y point => point.y = y ∧ rect.left ≤ point.x ∧ point.x < rect.right)
    (fun first second before point inside inside' => by omega) _ _
    (fun y pixels top_le above => ?_) surface.pixels).bind fun pixels painted => ?_
  · have row_le : y * (surface.width * 4) ≤ 16384 * (16384 * 4) :=
      Nat.mul_le_mul (by omega) (by omega)
    rw [mulUsize_ok (by omega), ok_bind]
    refine (forIndex_painted (fun pixels => (surface.withPixels pixels).colour)
      (fun x point => point = ⟨x, y⟩) ?_ (fun x pixels left_le beyond => ?_) pixels).mono
      fun pixels painted => painted.congr fun point => ?_
    · rintro first second before point rfl inside
      exact absurd (congrArg Point.x inside) (Nat.ne_of_lt before)
    · have on_x : x < surface.width := by omega
      have on_y : y < surface.height := by omega
      obtain ⟨dest, known, present⟩ := surface.pixel_known pixels on_x on_y
      obtain ⟨inverted, returned, items⟩ :=
        invertPixel_ok surface.pixels_small (surface.pixel_inside on_x on_y) present
      simp (disch := omega) only [mulUsize_ok, addUsize_ok, ok_bind]
      have made : invertPixel (y * (surface.width * 4) + x * 4) pixels = .ok inverted := returned
      rw [made]
      intro point
      rw [@colour_splice surface pixels inverted y x 1 _ rfl on_x on_y items point]
      constructor
      · rintro rfl
        rw [if_pos ⟨rfl, Nat.le_refl _, Nat.lt_succ_self _⟩, Nat.sub_self, known]
        rfl
      · intro other
        refine if_neg fun same => other ?_
        obtain ⟨px, py⟩ := point
        simp only [Point.mk.injEq] at same ⊢
        omega
    · constructor
      · rintro ⟨rfl, lower, upper⟩
        exact ⟨point.x, lower, by omega, rfl⟩
      · rintro ⟨x, lower, upper, rfl⟩
        exact ⟨rfl, lower, by dsimp only; omega⟩
  · refine ⟨⟨rfl, rfl, rfl⟩, painted.congr fun point => ?_⟩
    rw [covers_iff]
    constructor
    · rintro ⟨left, right, top, bottom⟩
      exact ⟨point.y, top, by omega, rfl, left, right⟩
    · rintro ⟨y, top, bottom, rfl, left, right⟩
      exact ⟨left, right, top, by omega⟩

theorem drawPart_inverts {part : DamageRect} (on : surface.bounds.contains part) :
    (drawPart invertSubrect surface part).Ensures
      (surface.Inverts fun point => part.covers point) := by
  refine (invertSubrect_inverts on).bind fun drawn inverts => ?_
  refine (drawn.damage.add_ensures part).bind fun damage _ => ?_
  exact ⟨{ inverts.1 with }, inverts.2⟩

theorem drawClip_inverts {target : DamageRect} (on : surface.bounds.contains target)
    (clip : DamageRect) : (drawClip invertSubrect target surface clip).Ensures
      (surface.Inverts fun point => target.covers point ∧ clip.covers point) := by
  have meet (point : Point) : target.covers point ∧ clip.covers point ↔
      covers ⟨max target.left clip.left, max target.top clip.top,
        min target.right clip.right, min target.bottom clip.bottom⟩ point := by
    simp only [covers_iff]
    omega
  simp only [drawClip]
  split
  · refine ⟨⟨rfl, rfl, rfl⟩, .refl _ fun point inside => ?_⟩
    rw [meet, covers_iff] at inside
    dsimp only at inside
    omega
  · refine (drawPart_inverts ?_).mono fun drawn inverts => ⟨inverts.1, inverts.2.congr meet⟩
    rw [contains_iff] at on ⊢
    dsimp only
    omega

theorem invertRect_inverts (surface : DisplaySurface) (rect : DamageRect) {clip : List Ltrb}
    (apart : clip.Pairwise Clip.Apart) :
    (surface.invertRect rect clip).Ensures (surface.Inverts fun point =>
      surface.holds point ∧ rect.covers point ∧ (clip = [] ∨ Clip.Covered clip point)) := by
  have meet (point : Point) : surface.holds point ∧ rect.covers point ↔
      covers ⟨min rect.left surface.width, min rect.top surface.height,
        min rect.right surface.width, min rect.bottom surface.height⟩ point := by
    rw [holds_iff, covers_iff, covers_iff]
    dsimp only
    omega
  rw [invertRect, drawClipped]
  cases clipped : clipToBounds surface.width surface.height rect with
  | none =>
    refine ⟨⟨rfl, rfl, rfl⟩, .refl _ fun point inside => ?_⟩
    have covered := (meet point).mp ⟨inside.1, inside.2.1⟩
    rw [covers_iff] at covered
    simp only [clipToBounds, ite_eq_left_iff, reduceCtorEq, imp_false, not_not] at clipped
    dsimp only at covered
    omega
  | some target =>
    have on := clipToBounds_on clipped
    obtain rfl : _ = target := by
      obtain ⟨-, clipped⟩ := Option.ite_none_left_eq_some.mp clipped
      exact Option.some.inj clipped
    cases clip with
    | nil =>
      refine (drawPart_inverts on).mono fun drawn inverts => ⟨inverts.1, ?_⟩
      refine inverts.2.congr fun point => ?_
      rw [← meet]
      simp
    | cons first rest =>
      refine (foldlM_painted colour (SameFrame surface)
        (fun box point => (surface.holds point ∧ rect.covers point) ∧ box.covers point)
        (apart.imp fun disjoint point inside inside' => disjoint point ⟨inside.2, inside'.2⟩)
        (fun drawn box _ frame => ?_) ⟨rfl, rfl, rfl⟩).mono fun drawn inverts =>
          ⟨inverts.1, inverts.2.congr fun point => ?_⟩
      · have same : drawn.bounds = surface.bounds := by
          rw [bounds, bounds, frame.width, frame.height]
        refine (drawClip_inverts (same ▸ on) box).mono fun drawn' inverts => ?_
        refine ⟨frame.trans inverts.1, inverts.2.congr fun point => ?_⟩
        rw [meet]
      · constructor
        · rintro ⟨held, inside, empty | ⟨box, listed, covered⟩⟩
          · cases empty
          · exact ⟨box, listed, ⟨held, inside⟩, covered⟩
        · rintro ⟨box, listed, ⟨held, inside⟩, covered⟩
          exact ⟨held, inside, .inr ⟨box, listed, covered⟩⟩

theorem eventClip_admits {base : DrawBase} {dest : Ltrb} {clip : List Ltrb}
    (produced : eventClip base dest = some clip) : clip.Pairwise Clip.Apart ∧
      ∀ point, dest.covers point →
        ((clip = [] ∨ Clip.Covered clip point) ↔ base.clip.Admits point) := by
  rw [eventClip] at produced
  split at produced
  · rename_i area
    cases produced
    have unclipped := Clip.clipArea_eq_whole area
    exact ⟨.nil, fun point _ => ⟨fun _ clipped => absurd clipped unclipped, fun _ => .inl rfl⟩⟩
  · rename_i boxes area
    cases produced
    by_cases clipped : base.clip.clipType = clipTypeRects
    · have same : base.clip = ⟨clipTypeRects, base.clip.rects⟩ := by rw [← clipped]
      rw [same] at area
      obtain ⟨-, apart, -, covers⟩ := Clip.clipArea_boxes area
      refine ⟨apart, fun point inside => ?_⟩
      rw [covers, Clip.Admits]
      simp [Clip.clipArea_boxes_ne_nil area, clipped, inside]
    · rw [Clip.clipArea, if_pos clipped] at area
      cases area
  · cases produced
  · cases produced

/-- Inverting under a wire clip inverts each pixel of the surface, the destination and the clip
once, and inverting again restores the surface. -/
theorem inverting_twice_restores (surface : DisplaySurface) (base : DrawBase) (dest : Ltrb)
    (clip : List Ltrb) (produced : eventClip base dest = some clip) :
    ∃ inverted, surface.invertRect dest clip = .ok inverted ∧ SameFrame surface inverted ∧
      (∀ point, (surface.holds point ∧ dest.covers point ∧ base.clip.Admits point →
          inverted.colour point = (surface.colour point).map Rgba.inverted) ∧
        (¬(surface.holds point ∧ dest.covers point ∧ base.clip.Admits point) →
          inverted.colour point = surface.colour point)) ∧
      ∃ restored, inverted.invertRect dest clip = .ok restored ∧ SameFrame surface restored ∧
        restored.pixels.items = surface.pixels.items := by
  obtain ⟨apart, admits⟩ := eventClip_admits produced
  have region (point : Point) : surface.holds point ∧ dest.covers point ∧ base.clip.Admits point ↔
      surface.holds point ∧ dest.covers point ∧ (clip = [] ∨ Clip.Covered clip point) :=
    and_congr_right fun _ => and_congr_right fun inside => (admits point inside).symm
  obtain ⟨inverted, once, frame, painted⟩ := (surface.invertRect_inverts dest apart).returns
  obtain ⟨restored, twice, frame', painted'⟩ := (inverted.invertRect_inverts dest apart).returns
  refine ⟨inverted, once, frame, painted.congr region, restored, twice, frame.trans frame', ?_⟩
  have same (point : Point) : inverted.holds point = surface.holds point := by
    rw [DisplaySurface.holds, DisplaySurface.holds, frame.width, frame.height]
  simp only [same] at painted'
  refine items_eq_of_pixel_eq (frame.trans frame') (funext fun point => ?_)
  rw [pixel_eq, pixel_eq]
  by_cases inside : surface.holds point ∧ dest.covers point ∧ (clip = [] ∨ Clip.Covered clip point)
  · rw [(painted' point).1 inside, (painted point).1 inside]
    simp [Function.comp_def]
  · rw [(painted' point).2 inside, (painted point).2 inside]

open Clip

/-- A draw whose clip lists two rectangles that share a pixel. -/
def overlapping : DrawBase :=
  ⟨0, ⟨0, 0, 2, 3⟩, ⟨clipTypeRects, [⟨1, 1, 2, 3⟩, ⟨0, 0, 2, 2⟩]⟩⟩

theorem eventClip_overlapping :
    eventClip overlapping ⟨0, 0, 3, 2⟩ = some [⟨0, 0, 2, 1⟩, ⟨0, 1, 3, 2⟩] := by
  have distinct : distinctRects ⟨0, 0, 3, 2⟩ overlapping.clip.rects [] =
      some [⟨0, 0, 2, 2⟩, ⟨1, 1, 3, 2⟩] := by decide +kernel
  have sorted : [(⟨0, 0, 2, 2⟩ : Ltrb), ⟨1, 1, 3, 2⟩].mergeSort Ltrb.le =
      [⟨0, 0, 2, 2⟩, ⟨1, 1, 3, 2⟩] := List.mergeSort_of_pairwise (by decide)
  have edges : cuts [0, 2, 1, 2] = [0, 1, 2] := by
    rw [cuts, show [0, 2, 1, 2].mergeSort (fun first second => first ≤ second) = [0, 1, 2, 2] by
      simp [List.mergeSort]]
    rfl
  have upper : bandSpans [⟨0, 0, 2, 2⟩, ⟨1, 1, 3, 2⟩] 0 1 = [⟨0, 2⟩] :=
    congrArg Span.merge (List.mergeSort_of_pairwise (by decide))
  have lower : bandSpans [⟨0, 0, 2, 2⟩, ⟨1, 1, 3, 2⟩] 1 2 = [⟨0, 3⟩] :=
    congrArg Span.merge (List.mergeSort_of_pairwise (by decide))
  have united : union [⟨0, 0, 2, 2⟩, ⟨1, 1, 3, 2⟩] = some [⟨0, 0, 2, 1⟩, ⟨0, 1, 3, 2⟩] := by
    change (addBands _ (cuts [0, 2, 1, 2]) _).bind _ = _
    simp only [edges, addBands, addBand, upper, lower]
    rfl
  have area : overlapping.clip.clipArea ⟨0, 0, 3, 2⟩ = .rects [⟨0, 0, 2, 1⟩, ⟨0, 1, 3, 2⟩] := by
    rw [clipArea, if_neg (by decide)]
    simp only [distinct, sorted, united]
    rfl
  rw [eventClip, area]

/-- The shared pixel becomes white and then black again, and one outside the clip stays black. -/
theorem overlap_restored : ∃ surface clip inverted restored,
    DisplaySurface.new 0 3 2 = .ok surface ∧ eventClip overlapping ⟨0, 0, 3, 2⟩ = some clip ∧
    surface.invertRect ⟨0, 0, 3, 2⟩ clip = .ok inverted ∧
    inverted.colour ⟨1, 1⟩ = some ⟨255, 255, 255, 255⟩ ∧
    inverted.colour ⟨2, 0⟩ = some ⟨0, 0, 0, 255⟩ ∧
    inverted.invertRect ⟨0, 0, 3, 2⟩ clip = .ok restored ∧
    restored.pixels.items = surface.pixels.items := by
  obtain ⟨surface, created⟩ : ∃ surface, DisplaySurface.new 0 3 2 = .ok surface := ⟨_, rfl⟩
  obtain ⟨inverted, once, -, colours, restored, twice, -, same⟩ :=
    inverting_twice_restores surface overlapping ⟨0, 0, 3, 2⟩ _ eventClip_overlapping
  refine ⟨surface, _, inverted, restored, created, eventClip_overlapping, once, ?_, ?_, twice,
    same⟩ <;> cases created
  · refine (colours ⟨1, 1⟩).1 ⟨rfl, rfl, fun _ => ⟨⟨1, 1, 2, 3⟩, by decide, ?_⟩⟩
    simp [Holds]
  · refine (colours ⟨2, 0⟩).2 fun inside => ?_
    simpa [overlapping, Holds] using inside.2.2 rfl

end DisplaySurface

end Ryll
