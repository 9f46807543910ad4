import Ryll.Display.CopyBits
import Ryll.Display.Pixels

/-!
# Drawing on a surface

The operations that write pixels: copies of pixel data, plain, keyed by a colour or blended, and
fills, inversions and copies of areas of the surface.  None of them faults, whatever its arguments,
and each records what it changes.
-/

namespace Ryll

open DamageRect

namespace DisplaySurface

/-! ## The operations -/

variable (surface : DisplaySurface)

def blit (left top width height : Nat) (pixels : Bytes) : Outcome Empty DisplaySurface := do
  if left ≥ surface.width ∨ top ≥ surface.height then
    return surface
  let srcStride ← mulUsize width 4
  let dstStride ← mulUsize surface.width 4
  let dstLeft ← mulUsize left 4
  let copyWidth := min srcStride (dstStride - dstLeft)
  let written ← forIndexWhile (fun y (written : FixedBuffer UInt8 _) => do
    let dstY ← addUsize top y
    if dstY ≥ surface.height then
      return .leave written
    let srcStart ← mulUsize y srcStride
    let dstStart ← addUsize (← mulUsize dstY dstStride) dstLeft
    let srcEnd ← addUsize srcStart copyWidth
    let dstEnd ← addUsize dstStart copyWidth
    if srcEnd ≤ pixels.length ∧ dstEnd ≤ written.items.length then
      return .next (← copyRow pixels srcStart dstStart copyWidth written)
    else
      return .next written) 0 height surface.pixels
  let right ← addChecked 32 left (copyWidth / 4)
  let bottom := min (min (top + height) (2 ^ 32 - 1)) surface.height
  let damage ← surface.damage.add ⟨left, top, right, bottom⟩
  return { surface with pixels := written, damage, dirty := true }

def clipToBounds (width height : Nat) (rect : DamageRect) : Option DamageRect :=
  let clipped : DamageRect :=
    ⟨min rect.left width, min rect.top height, min rect.right width, min rect.bottom height⟩
  if clipped.left ≥ clipped.right ∨ clipped.top ≥ clipped.bottom then none else some clipped

def paintSubrect (paint : {length : Nat} → Nat → FixedBuffer UInt8 length →
      Outcome Empty (FixedBuffer UInt8 length)) (surface : DisplaySurface) (rect : DamageRect) :
    Outcome Empty DisplaySurface := do
  let stride ← mulChecked 32 surface.width 4
  let pixels ← forIndex (fun y pixels => do
    let rowStart ← mulUsize y stride
    forIndex (fun x pixels => do
      let p ← addUsize rowStart (← mulUsize x 4)
      paint p pixels) rect.left (rect.right - rect.left) pixels)
    rect.top (rect.bottom - rect.top) surface.pixels
  return { surface with pixels }

def fillSubrect (colour : Rgba) (surface : DisplaySurface) (rect : DamageRect) :
    Outcome Empty DisplaySurface :=
  paintSubrect (fun p => setPixel p colour) surface rect

variable (rect : DamageRect)

def invertSubrect : Outcome Empty DisplaySurface :=
  paintSubrect invertPixel surface rect

variable (draw : DisplaySurface → DamageRect → Outcome Empty DisplaySurface)

/-- Draw in a rectangle and record it; raising the dirty flag with each part is raising it once. -/
def drawPart (surface : DisplaySurface) (part : DamageRect) : Outcome Empty DisplaySurface := do
  let drawn ← draw surface part
  let damage ← drawn.damage.add part
  return { drawn with damage, dirty := true }

def drawClip (target : DamageRect) (surface : DisplaySurface) (clip : DamageRect) :
    Outcome Empty DisplaySurface :=
  let part : DamageRect := ⟨max target.left clip.left, max target.top clip.top,
    min target.right clip.right, min target.bottom clip.bottom⟩
  if part.left ≥ part.right ∨ part.top ≥ part.bottom then
    return surface
  else
    drawPart draw surface part

def drawClipped (surface : DisplaySurface) (rect : DamageRect) (clip : List DamageRect) :
    Outcome Empty DisplaySurface :=
  match clipToBounds surface.width surface.height rect with
  | none => return surface
  | some target =>
    if clip.isEmpty then
      drawPart draw surface target
    else
      clip.foldlM (drawClip draw target) surface

def fillRect (colour : Rgba) (clip : List DamageRect) :
    Outcome Empty DisplaySurface :=
  surface.drawClipped (fillSubrect colour) rect clip

def invertRect (clip : List DamageRect) : Outcome Empty DisplaySurface :=
  surface.drawClipped invertSubrect rect clip

def paintRows {σ : Type} (paint : (sp dstRow x : Nat) → σ → Outcome Empty σ)
    (srcStride dstStride left top clipW clipH available : Nat) (state : σ) : Outcome Empty σ :=
  forIndex (fun y state => do
    let srcRow ← mulUsize y srcStride
    let dstRow ← segmentStart dstStride top y left
    forIndexWhile (fun x state => do
      let sp ← addUsize srcRow (← mulUsize x 4)
      if (← addUsize sp 4) > available then
        return .leave state
      return .next (← paint sp dstRow x state)) 0 clipW state) 0 clipH state

def blitChroma (left top width height : Nat) (pixels : Bytes) (chroma : Rgba) :
    Outcome Empty DisplaySurface := do
  if left ≥ surface.width ∨ top ≥ surface.height then
    return surface
  if width = 0 ∨ height = 0 then
    return surface
  let clipW := min width (← subChecked surface.width left)
  let clipH := min height (← subChecked surface.height top)
  if clipW = 0 ∨ clipH = 0 then
    return surface
  let srcStride ← mulUsize width 4
  let dstStride ← mulUsize surface.width 4
  let (written, wrote) ← paintRows (fun sp dstRow x (state : FixedBuffer UInt8 _ × Bool) => do
    let source ← readPixel pixels sp
    if source.r = chroma.r ∧ source.g = chroma.g ∧ source.b = chroma.b then
      return state
    let dp ← addUsize dstRow (← mulUsize x 4)
    return (← setPixel dp source state.1, true))
    srcStride dstStride left top clipW clipH pixels.length (surface.pixels, false)
  let painted := { surface with pixels := written }
  if wrote then
    let right ← addChecked 32 left clipW
    let bottom ← addChecked 32 top clipH
    let damage ← painted.damage.add ⟨left, top, right, bottom⟩
    return { painted with damage, dirty := true }
  else
    return painted

def blitAlpha (left top width height : Nat) (pixels : Bytes) (alpha : UInt8) :
    Outcome Empty DisplaySurface := do
  if left ≥ surface.width ∨ top ≥ surface.height then
    return surface
  if width = 0 ∨ height = 0 ∨ alpha = 0 then
    return surface
  let clipW := min width (← subChecked surface.width left)
  let clipH := min height (← subChecked surface.height top)
  if clipW = 0 ∨ clipH = 0 then
    return surface
  let srcStride ← mulUsize width 4
  let dstStride ← mulUsize surface.width 4
  let written ← paintRows (fun sp dstRow x written => do
    let source ← readPixel pixels sp
    let dp ← addUsize dstRow (← mulUsize x 4)
    blendPixel source alpha dp written)
    srcStride dstStride left top clipW clipH pixels.length surface.pixels
  let right ← addChecked 32 left clipW
  let bottom ← addChecked 32 top clipH
  let damage ← surface.damage.add ⟨left, top, right, bottom⟩
  return { surface with pixels := written, damage, dirty := true }

def consumeDirty : Bool × DisplaySurface :=
  (surface.dirty, { surface with dirty := false })

def takeDamage : DamageRegion × DisplaySurface :=
  (surface.damage, { surface with damage := .empty })

end DisplaySurface

/-! ## What painting a rectangle changes -/

/-- The bytes of the pixels of a rectangle. -/
def DamageRect.bytes (rect : DamageRect) (row column : Nat) : Prop :=
  rect.covers ⟨column / 4, row⟩

open DamageRect

theorem Local.confined {stride x y : Nat} {rect : DamageRect} {before after : Bytes}
    (painted : Local (cellOffset stride y (x * 4)) before after) (covered : rect.covers ⟨x, y⟩)
    (fits : x * 4 + 4 ≤ stride) : Confined stride rect.bytes before after := by
  intro row column inside outside
  refine painted _ (Decidable.byContradiction fun near => outside ?_)
  have segment : cellOffset stride y (x * 4) ≤ cellOffset stride row column ∧
      cellOffset stride row column < cellOffset stride y (x * 4) + 4 := by omega
  obtain ⟨rfl, lower, upper⟩ := (cellOffset_mem_segment inside fits).mp segment
  rw [bytes, show column / 4 = x by omega]
  exact covered

namespace DisplaySurface

/-- The pixels of a surface. -/
abbrev Buffer (surface : DisplaySurface) : Type :=
  FixedBuffer UInt8 (surface.width * surface.height * 4)

/-- Pixels of a rectangle were painted, and nothing else changed. -/
structure Repaints (before : DisplaySurface) (rect : DamageRect) (after : DisplaySurface) :
    Prop where
  frame : SameFrame before after
  record : SameRecord before after
  confined : Confined (before.width * 4) rect.bytes before.pixels.items after.pixels.items

theorem pixels_small (surface : DisplaySurface) : surface.width * surface.height * 4 < 2 ^ 64 := by
  have bound := surface.pixels_length_le
  rw [← surface.pixels_length, surface.pixels.sized] at bound
  omega

theorem pixel_inside (surface : DisplaySurface) {x y : Nat} (on_x : x < surface.width)
    (on_y : y < surface.height) :
    cellOffset (surface.width * 4) y (x * 4) + 4 ≤ surface.width * surface.height * 4 := by
  rw [← surface.pixels.sized, surface.pixels_length]
  exact cellOffset_add_le on_y (by omega)

variable {surface before : DisplaySurface} {top : Nat}

theorem paintSubrect_repaints {paint : {length : Nat} → Nat → FixedBuffer UInt8 length →
      Outcome Empty (FixedBuffer UInt8 length)}
    (local_paint : ∀ {length p : Nat}, length < 2 ^ 64 → p + 4 ≤ length →
      ∀ pixels : FixedBuffer UInt8 length, (paint p pixels).Ensures fun painted =>
        Local p pixels.items painted.items)
    {rect : DamageRect} (right_le : rect.right ≤ surface.width)
    (bottom_le : rect.bottom ≤ surface.height) :
    (paintSubrect paint surface rect).Ensures (surface.Repaints rect) := by
  obtain ⟨width_le, height_le⟩ := surface.bounded
  simp (disch := omega) only [paintSubrect, mulChecked_ok, ok_bind]
  let kept (pixels : surface.Buffer) : Prop :=
    Confined (surface.width * 4) rect.bytes surface.pixels.items pixels.items
  have rows : (forIndex (fun y pixels => do
      let rowStart ← mulUsize y (surface.width * 4)
      forIndex (fun x pixels => do
        let p ← addUsize rowStart (← mulUsize x 4)
        paint p pixels) rect.left (rect.right - rect.left) pixels)
      rect.top (rect.bottom - rect.top) surface.pixels : Outcome Empty _).Ensures kept := by
    refine forIndex_ensures (fun _ => kept) (fun y pixels top_le above before => ?_) (.refl _ _ _)
    have row_le : y * (surface.width * 4) ≤ 16384 * (16384 * 4) :=
      Nat.mul_le_mul (by omega) (by omega)
    rw [mulUsize_ok (by omega), ok_bind]
    refine forIndex_ensures (fun _ => kept) (fun x pixels left_le beyond before => ?_) before
    simp (disch := omega) only [mulUsize_ok, addUsize_ok, ok_bind]
    have placed := surface.pixel_inside (x := x) (y := y) (by omega) (by omega)
    refine (local_paint surface.pixels_small placed pixels).mono fun painted near => ?_
    refine before.trans (near.confined ?_ (by omega))
    rw [covers_iff]
    dsimp only
    omega
  refine rows.bind fun pixels confined => ?_
  exact ⟨⟨rfl, rfl, rfl⟩, ⟨rfl, rfl⟩, confined⟩

theorem Repaints.pixel {after : DisplaySurface} {rect : DamageRect}
    (repaints : before.Repaints rect after) {point : Point} (outside : ¬rect.covers point) :
    after.pixel point = before.pixel point := by
  by_cases on : before.holds point
  · have on' : after.holds point := by
      rw [holds_iff, repaints.frame.width, repaints.frame.height]
      exact holds_iff.mp on
    rw [pixel_of_holds repaints.frame.width on', pixel_of_holds rfl on]
    refine congrArg some (take_drop_congr fun channel listed => ?_)
    have on_x := (holds_iff.mp on).1
    have same := repaints.confined point.y (point.x * 4 + channel) (by omega) (by
      rw [bytes, show (point.x * 4 + channel) / 4 = point.x by omega]
      exact outside)
    rw [cellOffset, Nat.add_assoc]
    exact same
  · have off : ¬after.holds point := by
      rw [holds_iff, repaints.frame.width, repaints.frame.height, ← holds_iff]
      exact on
    rw [pixel_of_not_holds off, pixel_of_not_holds on]

/-! ## What the operations record -/

section

variable (surface : DisplaySurface)

def bounds : DamageRect := ⟨0, 0, surface.width, surface.height⟩

/-- The damage is on the surface. -/
def Sound : Prop :=
  ∀ rect ∈ surface.damage.rects, surface.bounds.contains rect

/-- What changed is damaged. -/
structure Draws (before after : DisplaySurface) : Prop where
  frame : SameFrame before after
  kept : ∀ point, before.damage.covers point → after.damage.covers point
  damaged : ∀ point, after.pixel point ≠ before.pixel point → after.damage.covers point
  sound : before.Sound → after.Sound
  /-- A change raises the dirty flag, and nothing lowers it. -/
  dirty : after.dirty = true ∨ after.dirty = before.dirty ∧ after.pixel = before.pixel

theorem Draws.refl : surface.Draws surface :=
  ⟨⟨rfl, rfl, rfl⟩, fun _ held => held, fun _ changed => absurd rfl changed,
    fun inside => inside, .inr ⟨rfl, rfl⟩⟩

end

theorem Draws.trans {first second third : DisplaySurface} (early : first.Draws second)
    (late : second.Draws third) : first.Draws third where
  frame := early.frame.trans late.frame
  kept point covered := late.kept point (early.kept point covered)
  damaged point changed := by
    by_cases same : third.pixel point = second.pixel point
    · exact late.kept point (early.damaged point (same ▸ changed))
    · exact late.damaged point same
  sound inside := late.sound (early.sound inside)
  dirty := by
    rcases late.dirty with raised | ⟨flag, pixels⟩
    · exact .inl raised
    · rw [flag, pixels]
      exact early.dirty

theorem Repaints.draws {drawn : DisplaySurface} {rect : DamageRect} {damage : DamageRegion}
    (repaints : before.Repaints rect drawn) (on : before.bounds.contains rect)
    (recorded : DamageRegion.Recorded before.damage rect damage) :
    before.Draws { drawn with damage, dirty := true } where
  frame := { repaints.frame with }
  kept point covered := recorded.covered point (.inl covered)
  damaged point changed := by
    refine recorded.covered point (.inr ?_)
    by_contra outside
    exact changed (repaints.pixel outside)
  sound inside := by
    have same : bounds { drawn with damage, dirty := true } = before.bounds := by
      simp only [bounds, repaints.frame.width, repaints.frame.height]
    rw [Sound, same]
    exact recorded.framed before.bounds on inside
  dirty := .inl rfl

theorem add_draws {written : surface.Buffer} {rect : DamageRect}
    (confined : Confined (surface.width * 4) rect.bytes surface.pixels.items written.items)
    (on : surface.bounds.contains rect) :
    (do let damage ← surface.damage.add rect
        return { surface with pixels := written, damage, dirty := true } :
      Outcome Empty DisplaySurface).Ensures surface.Draws := by
  refine (surface.damage.add_ensures rect).bind fun damage recorded => ?_
  have repaints : surface.Repaints rect { surface with pixels := written } :=
    ⟨⟨rfl, rfl, rfl⟩, ⟨rfl, rfl⟩, confined⟩
  exact repaints.draws on recorded

theorem drawPart_draws (draw : DisplaySurface → DamageRect → Outcome Empty DisplaySurface)
    {part : DamageRect} (on : surface.bounds.contains part)
    (painted : (draw surface part).Ensures (surface.Repaints part)) :
    (drawPart draw surface part).Ensures surface.Draws := by
  refine painted.bind fun drawn repaints => ?_
  refine (drawn.damage.add_ensures part).bind fun damage recorded => ?_
  rw [repaints.record.damage] at recorded
  exact repaints.draws on recorded

theorem Draws.bounds {after : DisplaySurface} (draws : before.Draws after) :
    after.bounds = before.bounds := by
  simp only [DisplaySurface.bounds, draws.frame.width, draws.frame.height]

variable {draw : DisplaySurface → DamageRect → Outcome Empty DisplaySurface}

theorem clipToBounds_on {rect target : DamageRect}
    (clipped : clipToBounds surface.width surface.height rect = some target) :
    surface.bounds.contains target := by
  obtain ⟨-, ⟨⟩⟩ := Option.ite_none_left_eq_some.mp clipped
  simp only [contains_iff, bounds]
  omega

theorem drawClipped_draws
    (painted : ∀ (surface : DisplaySurface) (part : DamageRect), surface.bounds.contains part →
      (draw surface part).Ensures (surface.Repaints part))
    (surface : DisplaySurface) (rect : DamageRect) (clip : List DamageRect) :
    (surface.drawClipped draw rect clip).Ensures surface.Draws := by
  unfold drawClipped
  cases clipped : clipToBounds surface.width surface.height rect with
  | none => exact .refl surface
  | some target =>
    have on := clipToBounds_on clipped
    dsimp only
    split
    · exact drawPart_draws draw on (painted surface target on)
    · refine foldlM_ensures surface.Draws (fun drawn rect _ draws => ?_) (.refl surface)
      simp only [drawClip]
      split
      · exact draws
      have part_on : drawn.bounds.contains ⟨max target.left rect.left, max target.top rect.top,
          min target.right rect.right, min target.bottom rect.bottom⟩ := by
        rw [draws.bounds, contains_iff] at *
        dsimp only
        omega
      exact (drawPart_draws draw part_on (painted drawn _ part_on)).mono fun _ => draws.trans

theorem fillRect_draws (surface : DisplaySurface) (rect : DamageRect) (colour : Rgba)
    (clip : List DamageRect) : (surface.fillRect rect colour clip).Ensures surface.Draws := by
  refine drawClipped_draws (fun surface part on => ?_) surface rect clip
  rw [contains_iff] at on
  exact paintSubrect_repaints (fun small inside pixels =>
    (setPixel_ok small inside colour pixels).ensures_local inside) on.2.2.1 on.2.2.2

theorem invertRect_draws (surface : DisplaySurface) (rect : DamageRect)
    (clip : List DamageRect) : (surface.invertRect rect clip).Ensures surface.Draws := by
  refine drawClipped_draws (fun surface part on => ?_) surface rect clip
  rw [contains_iff] at on
  exact paintSubrect_repaints (fun small inside => invertPixel_local small inside) on.2.2.1
    on.2.2.2

theorem copyPart_draws {sx sy : Nat} {part : DamageRect} (fits : surface.Copyable sx sy part) :
    (surface.copyPart sx sy part).Ensures surface.Draws := by
  have on : surface.bounds.contains part := by
    simp only [contains_iff, bounds]
    exact ⟨Nat.zero_le _, Nat.zero_le _, fits.right_le, fits.bottom_le⟩
  refine drawPart_draws (fun surface part => surface.copySubrect sx sy part) on ?_
  refine (copySubrect_bytes fits).mono fun copied ⟨frame, record, bytes⟩ => ⟨frame, record, ?_⟩
  intro row column inside outside
  refine (bytes row column inside).trans (if_neg fun within => outside ?_)
  rw [DamageRect.bytes, DamageRect.covers_iff]
  dsimp only at within ⊢
  omega

theorem copyBits_draws (surface : DisplaySurface) (srcX srcY : Nat) (dest : DamageRect)
    (clip : List DamageRect) : (surface.copyBits srcX srcY dest clip).Ensures surface.Draws := by
  rw [copyBits, clipCopy_ok, ok_bind]
  by_cases empty : (surface.reach srcX srcY dest).isEmpty
  · rw [if_pos empty]
    exact .refl surface
  rw [if_neg empty]
  have fits := reach_copyable empty
  dsimp only
  split
  · exact copyPart_draws fits
  · refine foldlM_ensures surface.Draws (fun drawn rect _ draws => ?_) (.refl surface)
    obtain ⟨part, -, ⟨-, same⟩ | ⟨-, -, part_fits, same⟩⟩ :=
      copyClip_cases (fits.frame draws.frame) rect
    · rw [same]
      exact draws
    · rw [same]
      exact (copyPart_draws part_fits).mono fun _ => draws.trans

theorem blit_draws (surface : DisplaySurface) {left width height : Nat}
    (width_small : width < 2 ^ 32) (height_small : height < 2 ^ 32) (pixels : Bytes) :
    (surface.blit left top width height pixels).Ensures surface.Draws := by
  obtain ⟨width_le, height_le⟩ := surface.bounded
  unfold blit
  by_cases off : left ≥ surface.width ∨ top ≥ surface.height
  · rw [if_pos off]
    exact .refl surface
  rw [if_neg off]
  simp (disch := omega) only [mulUsize_ok, ok_bind]
  let copyWidth := min (width * 4) (surface.width * 4 - left * 4)
  let rect : DamageRect :=
    ⟨left, top, left + copyWidth / 4, min (min (top + height) (2 ^ 32 - 1)) surface.height⟩
  let kept (pixels : surface.Buffer) : Prop :=
    Confined (surface.width * 4) rect.bytes surface.pixels.items pixels.items
  refine Outcome.Ensures.bind
    (forIndexWhile_ensures kept (fun y written _ listed before => ?_) (.refl _ _ _)) ?_
  · rw [addUsize_ok (by omega), ok_bind]
    split
    · exact before
    next on =>
    have source_le : y * (width * 4) ≤ 16384 * (2 ^ 32 * 4) :=
      Nat.mul_le_mul (by omega) (by omega)
    have dest_le : (top + y) * (surface.width * 4) ≤ 16384 * (16384 * 4) :=
      Nat.mul_le_mul (by omega) (by omega)
    simp (disch := omega) only [mulUsize_ok, addUsize_ok, ok_bind]
    split
    · next fits =>
      obtain ⟨copied, returned, items⟩ := copyRow_ok (ε := Empty) written
        (by omega) (by omega) fits.1 (written.sized ▸ fits.2)
      rw [returned, ok_bind]
      refine before.trans ?_
      rw [items]
      have taken : ((pixels.drop (y * (width * 4))).take copyWidth).length = copyWidth := by
        rw [List.length_take, List.length_drop]
        omega
      refine Confined.splice (fun column lower upper => ?_) ?_ ?_
      · rw [taken] at upper
        rw [bytes, covers_iff]
        dsimp only [rect]
        omega
      · rw [taken]
        omega
      · rw [taken]
        exact fits.2
    · exact before
  · intro written confined
    rw [addChecked_ok (by omega), ok_bind]
    refine add_draws confined ?_
    simp only [contains_iff, bounds]
    omega

theorem paintRows_ensures {σ : Type} {paint : (sp dstRow x : Nat) → σ → Outcome Empty σ}
    (invariant : σ → Prop) {left width clipW clipH : Nat}
    {source : Bytes} (width_small : width < 2 ^ 32) (clipW_le : clipW ≤ width)
    (right_le : left + clipW ≤ surface.width) (bottom_le : top + clipH ≤ surface.height)
    (round : ∀ sp x y state, x < clipW → y < clipH → sp + 4 ≤ source.length → sp + 4 < 2 ^ 64 →
      invariant state →
      (paint sp (cellOffset (surface.width * 4) (top + y) (left * 4)) x state).Ensures invariant)
    {state : σ} (initial : invariant state) :
    (paintRows paint (width * 4) (surface.width * 4) left top clipW clipH source.length
      state).Ensures invariant := by
  obtain ⟨width_le, height_le⟩ := surface.bounded
  refine forIndex_ensures (fun _ => invariant) (fun y state _ listed before => ?_) initial
  have source_le : y * (width * 4) ≤ 16384 * (2 ^ 32 * 4) := Nat.mul_le_mul (by omega) (by omega)
  rw [mulUsize_ok (by omega), ok_bind, segmentStart_ok (by omega) (by omega) (by omega), ok_bind]
  refine forIndexWhile_ensures invariant (fun x state _ listed' before => ?_) before
  simp (disch := omega) only [mulUsize_ok, addUsize_ok, ok_bind]
  split
  · exact before
  · next enough =>
    refine (round _ x y state (by omega) (by omega) (Nat.le_of_not_lt enough) (by omega)
      before).bind fun painted after => ?_
    exact after

def target (surface : DisplaySurface) (left top width height : Nat) : DamageRect :=
  ⟨left, top, left + min width (surface.width - left), top + min height (surface.height - top)⟩

theorem pixel_position {left x y : Nat} (on_x : left + x < surface.width)
    (on_y : top + y < surface.height) :
    (addUsize (cellOffset (surface.width * 4) (top + y) (left * 4)) (x * 4) : Outcome Empty Nat) =
      .ok (cellOffset (surface.width * 4) (top + y) ((left + x) * 4)) := by
  have placed := surface.pixel_inside on_x on_y
  have small := surface.pixels_small
  have position : cellOffset (surface.width * 4) (top + y) (left * 4) + x * 4 =
      cellOffset (surface.width * 4) (top + y) ((left + x) * 4) := by
    simp only [cellOffset]
    omega
  rw [addUsize_ok (by omega), position]

theorem paint_confined {left width height x y : Nat} (on_x : left < surface.width)
    (on_y : top < surface.height) (x_lt : x < min width (surface.width - left))
    (y_lt : y < min height (surface.height - top)) {before after : Bytes}
    (painted : Local (cellOffset (surface.width * 4) (top + y) ((left + x) * 4)) before after) :
    Confined (surface.width * 4) (surface.target left top width height).bytes before after := by
  refine painted.confined ?_ (by omega)
  simp only [covers_iff, target]
  omega

theorem blitAlpha_draws (surface : DisplaySurface) {left width : Nat} (height : Nat)
    (width_small : width < 2 ^ 32) (pixels : Bytes) (alpha : UInt8) :
    (surface.blitAlpha left top width height pixels alpha).Ensures surface.Draws := by
  obtain ⟨width_le, height_le⟩ := surface.bounded
  unfold blitAlpha
  split
  · exact .refl surface
  next on =>
  split
  · exact .refl surface
  next some_pixels =>
  rw [subChecked_ok (by omega), ok_bind, subChecked_ok (by omega), ok_bind]
  rw [if_neg (by omega)]
  simp (disch := omega) only [mulUsize_ok, ok_bind]
  let kept (pixels : surface.Buffer) : Prop :=
    Confined (surface.width * 4) (surface.target left top width height).bytes
      surface.pixels.items pixels.items
  refine Outcome.Ensures.bind (paintRows_ensures kept width_small (Nat.min_le_left _ _)
    (by omega) (by omega) (fun sp x y written x_lt y_lt inside small before => ?_)
    (.refl _ _ _)) fun written confined => ?_
  · have on_x : left + x < surface.width := by omega
    have on_y : top + y < surface.height := by omega
    obtain ⟨source, read⟩ := colourAt_isSome inside
    rw [readPixel_eq small read, ok_bind, mulUsize_ok (by omega), ok_bind,
      pixel_position on_x on_y, ok_bind]
    refine (blendPixel_local surface.pixels_small (surface.pixel_inside on_x on_y) source alpha
      written).mono fun painted near => ?_
    exact before.trans (paint_confined (by omega) (by omega) x_lt y_lt near)
  · rw [addChecked_ok (by omega), ok_bind, addChecked_ok (by omega), ok_bind]
    refine add_draws confined ?_
    simp only [contains_iff, bounds]
    omega

theorem blitChroma_draws (surface : DisplaySurface) {left width : Nat} (height : Nat)
    (width_small : width < 2 ^ 32) (pixels : Bytes) (chroma : Rgba) :
    (surface.blitChroma left top width height pixels chroma).Ensures surface.Draws := by
  obtain ⟨width_le, height_le⟩ := surface.bounded
  unfold blitChroma
  split
  · exact .refl surface
  next on =>
  split
  · exact .refl surface
  next some_pixels =>
  rw [subChecked_ok (by omega), ok_bind, subChecked_ok (by omega), ok_bind]
  rw [if_neg (by omega)]
  simp (disch := omega) only [mulUsize_ok, ok_bind]
  -- As long as nothing was written, the pixels are those of the surface.
  let kept (state : surface.Buffer × Bool) : Prop :=
    Confined (surface.width * 4) (surface.target left top width height).bytes
      surface.pixels.items state.1.items ∧ (state.2 = false → state.1 = surface.pixels)
  refine Outcome.Ensures.bind (paintRows_ensures kept width_small (Nat.min_le_left _ _)
    (by omega) (by omega) (fun sp x y state x_lt y_lt inside small before => ?_)
    ⟨.refl _ _ _, fun _ => rfl⟩) ?_
  · have on_x : left + x < surface.width := by omega
    have on_y : top + y < surface.height := by omega
    have placed := surface.pixel_inside on_x on_y
    obtain ⟨source, read⟩ := colourAt_isSome inside
    rw [readPixel_eq small read, ok_bind]
    split
    · exact before
    · rw [mulUsize_ok (by omega), ok_bind, pixel_position on_x on_y, ok_bind]
      refine ((setPixel_ok surface.pixels_small placed source state.1).ensures_local placed).bind
        fun painted near => ?_
      exact ⟨before.1.trans (paint_confined (by omega) (by omega) x_lt y_lt near), by rintro ⟨⟩⟩
  · rintro ⟨written, wrote⟩ ⟨confined, unwritten⟩
    cases wrote with
    | false =>
      obtain rfl := unwritten rfl
      exact .refl surface
    | true =>
      rw [if_pos rfl, addChecked_ok (by omega), ok_bind, addChecked_ok (by omega), ok_bind]
      refine add_draws confined ?_
      simp only [contains_iff, bounds]
      omega

end DisplaySurface

end Ryll
