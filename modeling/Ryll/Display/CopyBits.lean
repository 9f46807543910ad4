import Ryll.Display.Surface

/-!
# Copying inside a surface

`copyBits` copies the clip rectangles one after the other, each through a snapshot of its own.
It is a move, in which every source pixel is read before any destination pixel is written,
exactly when no rectangle reads a pixel that an earlier one has changed.
-/

namespace Ryll.DisplaySurface

variable (surface : DisplaySurface) (srcX srcY : Nat)

variable (dest : DamageRect)

variable (clip : List DamageRect)

/-- Every pixel that moves within the clip, if there is one, has the old value of its source. -/
def moved (point : Point) : Option Bytes :=
  if surface.moves srcX srcY dest point &&
      (clip.isEmpty || clip.any fun rect => rect.covers point) then
    surface.pixel (copySource srcX srcY dest point)
  else
    surface.pixel point

/-- Where a clip rectangle reads from an earlier one, copying the earlier one changes nothing. -/
def ClipUndisturbed : Prop :=
  clip.Pairwise fun earlier later => ∀ point,
    surface.moves srcX srcY dest point → later.covers point →
      surface.moves srcX srcY dest (copySource srcX srcY dest point) →
        earlier.covers (copySource srcX srcY dest point) →
          surface.pixel (copySource srcX srcY dest (copySource srcX srcY dest point)) =
            surface.pixel (copySource srcX srcY dest point)

def clipRegion (dest clip : DamageRect) (point : Point) : Bool :=
  surface.moves srcX srcY dest point && clip.covers point

def clipRegions : List (Point → Bool) :=
  if clip.isEmpty then [surface.moves srcX srcY dest]
  else clip.map (surface.clipRegion srcX srcY dest)

variable {surface : DisplaySurface} {srcX srcY : Nat} {dest : DamageRect} {clip : List DamageRect}

open DamageRect

theorem reach_copyable (some : ¬ (surface.reach srcX srcY dest).isEmpty) :
    surface.Copyable srcX srcY (surface.reach srcX srcY dest) := by
  rw [DamageRect.isEmpty_iff] at some
  simp only [reach] at some
  constructor <;> simp only [reach] <;> omega

theorem copyPart_ensures {sx sy : Nat} {part : DamageRect} (fits : surface.Copyable sx sy part) :
    (surface.copyPart sx sy part).Ensures fun copied => SameFrame surface copied ∧
        copied.pixel = copyRegion (copySource sx sy part) part.covers surface.pixel := by
  refine (copySubrect_ensures fits).bind fun copied ⟨same, pixels⟩ => ?_
  refine (copied.damage.add_ensures part).bind fun damage _ => ?_
  exact ⟨{ same with }, pixels⟩

variable {target : DamageRect}

theorem copyClip_cases (fits : surface.Copyable srcX srcY target) (clip : DamageRect) :
    ∃ part : DamageRect, (∀ point, part.covers point = (target.covers point && clip.covers point)) ∧
      ((∀ point, ¬part.covers point) ∧ copyClip srcX srcY target surface clip = .ok surface ∨
        target.left ≤ part.left ∧ target.top ≤ part.top ∧
        surface.Copyable (srcX + (part.left - target.left)) (srcY + (part.top - target.top)) part ∧
        copyClip srcX srcY target surface clip =
          surface.copyPart (srcX + (part.left - target.left)) (srcY + (part.top - target.top))
            part) := by
  obtain ⟨ordered_x, ordered_y, right_le, bottom_le, source_x, source_y⟩ := fits
  obtain ⟨width_le, height_le⟩ := surface.bounded
  let part : DamageRect := ⟨max target.left clip.left, max target.top clip.top,
    min target.right clip.right, min target.bottom clip.bottom⟩
  refine ⟨part, fun point => ?_, ?_⟩
  · rw [Bool.eq_iff_iff, Bool.and_eq_true]
    simp only [covers_iff, part]
    omega
  unfold copyClip
  by_cases none : part.left ≥ part.right ∨ part.top ≥ part.bottom
  · refine .inl ⟨fun point => ?_, if_pos none⟩
    rw [covers_iff]
    omega
  · rw [if_neg none]
    simp only [part] at none
    simp (disch := omega) only [subChecked_ok, addChecked_ok, ok_bind]
    refine .inr ⟨Nat.le_max_left _ _, Nat.le_max_left _ _, ?_, rfl⟩
    constructor <;> simp only [part] <;> omega

theorem Copyable.frame {surface' : DisplaySurface} {sx sy : Nat}
    (fits : surface.Copyable sx sy dest) (same : SameFrame surface surface') :
    surface'.Copyable sx sy dest := by
  obtain ⟨ordered_x, ordered_y, right_le, bottom_le, source_x, source_y⟩ := fits
  rw [← same.width] at right_le source_x
  rw [← same.height] at bottom_le source_y
  exact ⟨ordered_x, ordered_y, right_le, bottom_le, source_x, source_y⟩

theorem copyClip_ensures (fits : surface.Copyable srcX srcY target) (clip : DamageRect) :
    (copyClip srcX srcY target surface clip).Ensures fun copied =>
      SameFrame surface copied ∧ copied.pixel = copyRegion (copySource srcX srcY target)
          (fun point => target.covers point && clip.covers point) surface.pixel := by
  obtain ⟨part, covers_part, ⟨empty, same⟩ | ⟨left_le, top_le, part_fits, same⟩⟩ :=
    copyClip_cases fits clip
  · rw [same]
    refine ⟨⟨rfl, rfl, rfl⟩, ?_⟩
    funext point
    rw [copyRegion, if_neg (by rw [← covers_part]; exact empty point)]
  · rw [same]
    refine (copyPart_ensures part_fits).mono fun copied copy => ⟨copy.1, copy.2.trans ?_⟩
    funext point
    simp only [copyRegion, covers_part]
    refine ite_congr rfl (fun inside => ?_) fun _ => rfl
    rw [← covers_part, covers_iff] at inside
    refine congrArg surface.pixel ?_
    simp only [copySource, Point.mk.injEq]
    omega

theorem copyClips_ensures (clip : List DamageRect) (fits : surface.Copyable srcX srcY target) :
    (clip.foldlM (copyClip srcX srcY target) surface).Ensures fun copied =>
      SameFrame surface copied ∧ copied.pixel = copyRegions (copySource srcX srcY target)
          (clip.map fun rect point => target.covers point && rect.covers point) surface.pixel := by
  induction clip generalizing surface with
  | nil => exact ⟨⟨rfl, rfl, rfl⟩, rfl⟩
  | cons rect clip ih =>
    refine (copyClip_ensures fits rect).bind fun middle ⟨same, pixels⟩ => ?_
    refine (ih (fits.frame same)).mono fun copied ⟨same', pixels'⟩ => ⟨same.trans same', ?_⟩
    rw [pixels', pixels]
    rfl

theorem copyBits_ensures (surface : DisplaySurface) (srcX srcY : Nat) (dest : DamageRect)
    (clip : List DamageRect) : (surface.copyBits srcX srcY dest clip).Ensures fun copied =>
      SameFrame surface copied ∧ copied.pixel = copyRegions (copySource srcX srcY dest)
          (surface.clipRegions srcX srcY dest clip) surface.pixel := by
  rw [copyBits, clipCopy_ok, ok_bind]
  by_cases empty : (surface.reach srcX srcY dest).isEmpty
  · rw [if_pos empty]
    refine ⟨⟨rfl, rfl, rfl⟩, ?_⟩
    funext point
    refine (copyRegions_of_not_any fun region listed inside => ?_).symm
    have covered : surface.moves srcX srcY dest point := by
      unfold clipRegions at listed
      split at listed
      · rw [List.mem_singleton] at listed
        rwa [listed] at inside
      · obtain ⟨rect, -, rfl⟩ := List.mem_map.mp listed
        exact (Bool.and_eq_true _ _ ▸ inside).1
    rw [← reach_covers, DamageRect.covers_iff] at covered
    rw [DamageRect.isEmpty_iff] at empty
    omega
  · rw [if_neg empty, clipRegions]
    dsimp only
    split
    · refine (copyPart_ensures (reach_copyable empty)).mono fun copied ⟨same, pixels⟩ =>
        ⟨same, ?_⟩
      rw [pixels, reach_covers]
      rfl
    · refine (copyClips_ensures clip (reach_copyable empty)).mono fun copied ⟨same, pixels⟩ =>
        ⟨same, ?_⟩
      rw [pixels, reach_covers]
      rfl

theorem moved_eq (surface : DisplaySurface) (srcX srcY : Nat) (dest : DamageRect)
    (clip : List DamageRect) :
    surface.moved srcX srcY dest clip = movedRegions (copySource srcX srcY dest)
      (surface.clipRegions srcX srcY dest clip) surface.pixel := by
  funext point
  simp only [moved, movedRegions, copyRegion, clipRegions]
  refine ite_congr (congrArg (· = true) ?_) (fun _ => rfl) fun _ => rfl
  cases clip with
  | nil => simp
  | cons first rest =>
    rw [List.isEmpty_cons, Bool.false_or, if_neg Bool.false_ne_true, List.any_map, Bool.eq_iff_iff]
    simp only [Bool.and_eq_true, List.any_eq_true, Function.comp_apply, clipRegion]
    tauto

theorem clipRegions_disjoint (disjoint : clip.Pairwise fun earlier later => ∀ point,
      earlier.covers point → ¬ later.covers point) :
    DisjointRegions (surface.clipRegions srcX srcY dest clip) := by
  unfold clipRegions
  split
  · exact List.pairwise_singleton _ _
  · refine List.pairwise_map.mpr (disjoint.imp fun apart point first second => ?_)
    simp only [clipRegion, Bool.and_eq_true] at first second
    exact apart point first.2 second.2

theorem undisturbed_clipRegions_iff :
    Undisturbed (copySource srcX srcY dest) (surface.clipRegions srcX srcY dest clip)
        surface.pixel ↔ surface.ClipUndisturbed srcX srcY dest clip := by
  unfold clipRegions
  split
  · rename_i none
    rw [List.isEmpty_iff] at none
    subst none
    exact iff_of_true (List.pairwise_singleton _ _) List.Pairwise.nil
  · rw [Undisturbed, ClipUndisturbed, List.pairwise_map]
    refine List.Pairwise.iff_of_mem fun _ _ => ?_
    simp only [clipRegion, Bool.and_eq_true, and_imp]

/-- A copy is a move exactly when no clip rectangle reads what an earlier one changed. -/
theorem copyBits_memmove_iff (surface : DisplaySurface) (srcX srcY : Nat) (dest : DamageRect)
    (clip : List DamageRect) (disjoint : clip.Pairwise fun earlier later => ∀ point,
      earlier.covers point → ¬ later.covers point) :
    ∃ after, surface.copyBits srcX srcY dest clip = .ok after ∧ SameFrame surface after ∧
      ((∀ point, after.pixel point = surface.moved srcX srcY dest clip point) ↔
        surface.ClipUndisturbed srcX srcY dest clip) := by
  obtain ⟨after, returned, same, pixels⟩ :=
    (copyBits_ensures surface srcX srcY dest clip).returns
  refine ⟨after, returned, same, ?_⟩
  rw [← funext_iff, pixels, moved_eq, copyRegions_eq_moved_iff (clipRegions_disjoint disjoint)]
  exact undisturbed_clipRegions_iff

def threePixels : DisplaySurface where
  id := 0
  width := 3
  height := 1
  pixels := ⟨[10, 10, 10, 255, 20, 20, 20, 255, 30, 30, 30, 255], rfl⟩
  dirty := false
  damage := DamageRegion.empty
  width_le := by decide
  height_le := one_le_maxSurfaceDimension

/-- Scrolling to the left in two clip rectangles given from left to right is a move. -/
theorem scrollLeft_memmove :
    ∃ after, threePixels.copyBits 1 0 ⟨0, 0, 2, 1⟩ [⟨0, 0, 1, 1⟩, ⟨1, 0, 2, 1⟩] = .ok after ∧
      ∀ point, after.pixel point =
        threePixels.moved 1 0 ⟨0, 0, 2, 1⟩ [⟨0, 0, 1, 1⟩, ⟨1, 0, 2, 1⟩] point := by
  obtain ⟨after, returned, -, move_iff⟩ :=
    copyBits_memmove_iff threePixels 1 0 ⟨0, 0, 2, 1⟩ [⟨0, 0, 1, 1⟩, ⟨1, 0, 2, 1⟩] (by
      simp [covers]
      omega)
  refine ⟨after, returned, move_iff.mpr ?_⟩
  simp [ClipUndisturbed, covers, copySource]

/-- Scrolling to the right in the same way smears the first pixel over the row. -/
theorem scrollRight_smears :
    ([⟨1, 0, 2, 1⟩, ⟨2, 0, 3, 1⟩] : List DamageRect).Pairwise (fun earlier later => ∀ point,
        earlier.covers point → ¬ later.covers point) ∧
      ¬ ∃ after, threePixels.copyBits 0 0 ⟨1, 0, 3, 1⟩ [⟨1, 0, 2, 1⟩, ⟨2, 0, 3, 1⟩] = .ok after ∧
        ∀ point, after.pixel point =
          threePixels.moved 0 0 ⟨1, 0, 3, 1⟩ [⟨1, 0, 2, 1⟩, ⟨2, 0, 3, 1⟩] point := by
  constructor
  · simp [covers]
    omega
  · rintro ⟨after, returned, move⟩
    -- The last pixel should hold 20 and holds 10.
    have smeared : (threePixels.copyBits 0 0 ⟨1, 0, 3, 1⟩ [⟨1, 0, 2, 1⟩, ⟨2, 0, 3, 1⟩]).Ensures
        fun after => after.pixel ⟨2, 0⟩ = some [10, 10, 10, 255] ∧
          threePixels.moved 0 0 ⟨1, 0, 3, 1⟩ [⟨1, 0, 2, 1⟩, ⟨2, 0, 3, 1⟩] ⟨2, 0⟩ =
            some [20, 20, 20, 255] := by
      decide +kernel
    rw [returned] at smeared
    have contradiction := (smeared.1.symm.trans (move ⟨2, 0⟩)).trans smeared.2
    exact absurd contradiction (by decide)

end Ryll.DisplaySurface
