import Ryll.Display.Draw

/-!
# A surface over whole runs

What every sequence of calls on a surface keeps: the pixels changed since the damage was last taken
lie in the recorded damage, the damage lies on the surface, and a change raises the dirty flag.
-/

namespace Ryll

open DisplaySurface

/-- An operation on a surface. -/
inductive SurfaceCall
  | blit (left top width height : UInt32) (pixels : Bytes)
  | fillRect (rect : DamageRect) (colour : Rgba) (clip : List DamageRect)
  | copyBits (srcX srcY : UInt32) (dest : DamageRect) (clip : List DamageRect)
  | invertRect (rect : DamageRect) (clip : List DamageRect)
  | blitChroma (left top width height : UInt32) (pixels : Bytes) (chroma : Rgba)
  | blitAlpha (left top width height : UInt32) (pixels : Bytes) (alpha : UInt8)
  | takeDamage
  | consumeDirty

namespace DisplaySurface

def call (surface : DisplaySurface) : SurfaceCall → Outcome Empty DisplaySurface
  | .blit left top width height pixels =>
    surface.blit left.toNat top.toNat width.toNat height.toNat pixels
  | .fillRect rect colour clip => surface.fillRect rect colour clip
  | .copyBits srcX srcY dest clip => surface.copyBits srcX.toNat srcY.toNat dest clip
  | .invertRect rect clip => surface.invertRect rect clip
  | .blitChroma left top width height pixels chroma =>
    surface.blitChroma left.toNat top.toNat width.toNat height.toNat pixels chroma
  | .blitAlpha left top width height pixels alpha =>
    surface.blitAlpha left.toNat top.toNat width.toNat height.toNat pixels alpha
  | .takeDamage => return surface.takeDamage.2
  | .consumeDirty => return surface.consumeDirty.2

def differs (before after : DisplaySurface) (point : Point) : Bool :=
  after.pixel point ≠ before.pixel point

end DisplaySurface

/-- A surface with the pixels that changed (history). -/
structure SurfaceWorld where
  surface : DisplaySurface
  undrawn : Point → Bool
  /-- The pixels whose value changed since the dirty flag was last consumed. -/
  unseen : Point → Bool

namespace SurfaceWorld

def create (id width height : UInt32) : Outcome Empty SurfaceWorld := do
  let surface ← new id.toNat width.toNat height.toNat
  return ⟨surface, fun _ => false, fun _ => false⟩

def step (world : SurfaceWorld) (call : SurfaceCall) : Outcome Empty SurfaceWorld := do
  let surface ← world.surface.call call
  let changed := world.surface.differs surface
  return {
    surface
    undrawn := if call matches .takeDamage then fun _ => false
      else fun point => world.undrawn point || changed point
    unseen := if call matches .consumeDirty then fun _ => false
      else fun point => world.unseen point || changed point }

def run (world : SurfaceWorld) (calls : List SurfaceCall) : Outcome Empty SurfaceWorld :=
  calls.foldlM step world

/-- What holds along every run. -/
structure Faithful (world : SurfaceWorld) : Prop where
  sound : world.surface.Sound
  undrawn : ∀ point, world.undrawn point → world.surface.damage.covers point
  unseen : ∀ point, world.unseen point → world.surface.dirty = true

variable {world : SurfaceWorld}

theorem Faithful.draws (faithful : world.Faithful) {surface : DisplaySurface}
    (draws : world.surface.Draws surface) :
    Faithful ⟨surface, fun point => world.undrawn point || world.surface.differs surface point,
      fun point => world.unseen point || world.surface.differs surface point⟩ where
  sound := draws.sound faithful.sound
  undrawn point changed := by
    rcases Bool.or_eq_true_iff.mp changed with earlier | now
    · exact draws.kept point (faithful.undrawn point earlier)
    · exact draws.damaged point (of_decide_eq_true now)
  unseen point changed := by
    rcases draws.dirty with raised | ⟨flag, pixels⟩
    · exact raised
    · rcases Bool.or_eq_true_iff.mp changed with earlier | now
      · exact flag.trans (faithful.unseen point earlier)
      · exact absurd (congrFun pixels point) (of_decide_eq_true now)

theorem call_draws (surface : DisplaySurface) {call : SurfaceCall} (take : call ≠ .takeDamage)
    (consume : call ≠ .consumeDirty) : (surface.call call).Ensures surface.Draws := by
  cases call with
  | blit left top width height pixels =>
    exact surface.blit_draws width.toNat_lt height.toNat_lt pixels
  | fillRect rect colour clip => exact surface.fillRect_draws rect colour clip
  | copyBits srcX srcY dest clip => exact surface.copyBits_draws _ _ dest clip
  | invertRect rect clip => exact surface.invertRect_draws rect clip
  | blitChroma left top width height pixels chroma =>
    exact surface.blitChroma_draws _ width.toNat_lt pixels chroma
  | blitAlpha left top width height pixels alpha =>
    exact surface.blitAlpha_draws _ width.toNat_lt pixels alpha
  | takeDamage => exact absurd rfl take
  | consumeDirty => exact absurd rfl consume

theorem Faithful.step (faithful : world.Faithful) (call : SurfaceCall) :
    (world.step call).Ensures fun world' =>
      DisplaySurface.SameFrame world.surface world'.surface ∧ world'.Faithful := by
  have unchanged (point : Point) : world.surface.differs world.surface point = false := by
    simp [differs]
  by_cases take : call = .takeDamage
  · subst take
    refine ⟨⟨rfl, rfl, rfl⟩, nofun, nofun, fun point changed => ?_⟩
    refine faithful.unseen point ((Bool.or_eq_true_iff.mp changed).resolve_right ?_)
    exact Bool.eq_false_iff.mp (unchanged point)
  by_cases consume : call = .consumeDirty
  · subst consume
    refine ⟨⟨rfl, rfl, rfl⟩, faithful.sound, fun point changed => ?_, nofun⟩
    refine faithful.undrawn point ((Bool.or_eq_true_iff.mp changed).resolve_right ?_)
    exact Bool.eq_false_iff.mp (unchanged point)
  refine (call_draws world.surface take consume).bind fun surface draws => ?_
  refine ⟨draws.frame, ?_⟩
  have next := faithful.draws draws
  cases call with
  | takeDamage => exact absurd rfl take
  | consumeDirty => exact absurd rfl consume
  | _ => exact next

theorem create_faithful (id width height : UInt32) : (create id width height).Ensures fun world =>
      world.surface.width = min width.toNat maxSurfaceDimension ∧
      world.surface.height = min height.toNat maxSurfaceDimension ∧ world.Faithful := by
  simp only [create, new, bind_assoc]
  refine (DamageRegion.add_ensures _ _).bind fun damage recorded => ?_
  refine ⟨rfl, rfl, ?_, by rintro _ ⟨⟩, by rintro _ ⟨⟩⟩
  exact recorded.framed _ (DamageRect.contains_refl _) (by rintro _ ⟨⟩)

/-- No call faults, the buffer keeps its size, the pixels changed since the last take are damaged,
the damage lies on the surface, and the dirty flag is raised if a pixel changed. -/
theorem run_faithful (id width height : UInt32) (calls : List SurfaceCall) :
    ∃ world, (do (← create id width height).run calls) = .ok world ∧
      world.surface.width = min width.toNat maxSurfaceDimension ∧
      world.surface.height = min height.toNat maxSurfaceDimension ∧
      world.surface.pixels.items.length = world.surface.width * world.surface.height * 4 ∧
      (∀ point, world.undrawn point → world.surface.damage.covers point) ∧
      (∀ rect ∈ world.surface.damage.rects,
        rect.right ≤ world.surface.width ∧ rect.bottom ≤ world.surface.height) ∧
      ((∃ point, world.unseen point) → world.surface.dirty = true) := by
  have ran : (do (← create id width height).run calls).Ensures fun world =>
      world.surface.width = min width.toNat maxSurfaceDimension ∧
      world.surface.height = min height.toNat maxSurfaceDimension ∧ world.Faithful := by
    refine (create_faithful id width height).bind fun world initial => ?_
    refine foldlM_ensures _ (fun world call _ ⟨wide, high, faithful⟩ => ?_) initial
    refine (faithful.step call).mono fun world' ⟨frame, faithful'⟩ => ?_
    exact ⟨frame.width.trans wide, frame.height.trans high, faithful'⟩
  obtain ⟨world, returned, wide, high, faithful⟩ := ran.returns
  refine ⟨world, returned, wide, high, world.surface.pixels.sized, faithful.undrawn, ?_, ?_⟩
  · intro rect listed
    have inside := faithful.sound rect listed
    rw [DamageRect.contains_iff] at inside
    exact inside.2.2
  · rintro ⟨point, changed⟩
    exact faithful.unseen point changed

/-- A sub-rectangle that was not clipped before faults, and is not recorded as damaged. -/
theorem copySubrect_unclipped :
    (do (← new 0 1 1).copySubrect 0 0 ⟨1, 0, 0, 1⟩) = .fault .overflow ∧
    (do
      let blank ← new 0 2 1
      let surface ← blank.takeDamage.2.fillRect ⟨0, 0, 1, 1⟩ ⟨255, 255, 255, 255⟩ []
      let shown := surface.takeDamage.2
      let copied ← shown.copySubrect 0 0 ⟨1, 0, 2, 1⟩
      return (shown.differs copied ⟨1, 0⟩, copied.damage.covers ⟨1, 0⟩)) =
        (.ok (true, false) : Outcome Empty _) :=
  ⟨rfl, by decide +kernel⟩

end SurfaceWorld

end Ryll
