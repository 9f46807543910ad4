import Ryll.Display.Draw

/-!
# The surfaces a client mirrors

The display channels emit events, and a mirror applies them to the surfaces it keeps, by channel
and surface.
-/

namespace Ryll

/-- The name of a surface. -/
structure SurfaceKey where
  displayChannelId : UInt8
  surfaceId : UInt32
  deriving DecidableEq

/-- The events of a display channel that concern surfaces.  Rectangles may have any edges. -/
inductive DrawEvent
  | surfaceCreated (key : SurfaceKey) (width height : UInt32)
  | surfaceDestroyed (key : SurfaceKey)
  | imageReady (key : SurfaceKey) (left top width height : UInt32) (pixels : Bytes)
  | imageReadyChroma (key : SurfaceKey) (left top width height : UInt32) (pixels : Bytes)
      (chroma : Rgba)
  | imageReadyAlpha (key : SurfaceKey) (left top width height : UInt32) (pixels : Bytes)
      (alpha : UInt8)
  | fillRect (key : SurfaceKey) (rect : DamageRect) (colour : Rgba) (clip : List DamageRect)
  | copyBits (key : SurfaceKey) (srcX srcY : UInt32) (dest : DamageRect) (clip : List DamageRect)
  | invert (key : SurfaceKey) (rect : DamageRect) (clip : List DamageRect)
  | other

/-- What an event did. -/
inductive DrawOutcome
  | created (key : SurfaceKey) (width height : UInt32)
  | destroyed (key : SurfaceKey)
  | unknownSurface (key : SurfaceKey)
  | drawn (key : SurfaceKey)
  | autoCreated (key : SurfaceKey) (width height : Nat)
  | notDisplay

namespace DisplaySurface

def markAllDamaged (surface : DisplaySurface) : Outcome Empty DisplaySurface := do
  let damage ← DamageRegion.full surface.width surface.height
  return { surface with damage, dirty := true }

end DisplaySurface

/-- The surfaces by their names. -/
structure SurfaceMirror where
  surfaces : AList fun _ : SurfaceKey => DisplaySurface

namespace SurfaceMirror

def new : SurfaceMirror := ⟨∅⟩

variable (mirror : SurfaceMirror)

def draw (key : SurfaceKey) (call : DisplaySurface → Outcome Empty DisplaySurface) :
    Outcome Empty (DrawOutcome × SurfaceMirror) :=
  match mirror.surfaces.lookup key with
  | some surface => do
    let drawn ← call surface
    return (.drawn key, ⟨mirror.surfaces.insert key drawn⟩)
  | none => return (.unknownSurface key, mirror)

/-- Apply an event.  A plain image creates an unknown surface, as some servers draw first. -/
def applyEvent : DrawEvent → Outcome Empty (DrawOutcome × SurfaceMirror)
  | .surfaceCreated key width height => do
    let surface ← DisplaySurface.new key.surfaceId.toNat width.toNat height.toNat
    return (.created key width height, ⟨mirror.surfaces.insert key surface⟩)
  | .surfaceDestroyed key =>
    if key ∈ mirror.surfaces then
      return (.destroyed key, ⟨mirror.surfaces.erase key⟩)
    else
      return (.unknownSurface key, mirror)
  | .imageReady key left top width height pixels => do
    let blit (surface : DisplaySurface) :=
      surface.blit left.toNat top.toNat width.toNat height.toNat pixels
    if key ∈ mirror.surfaces then
      mirror.draw key blit
    else
      let surfW := min (left.toNat + width.toNat) (2 ^ 32 - 1)
      let surfH := min (top.toNat + height.toNat) (2 ^ 32 - 1)
      let drawn ← blit (← DisplaySurface.new key.surfaceId.toNat surfW surfH)
      return (.autoCreated key surfW surfH, ⟨mirror.surfaces.insert key drawn⟩)
  | .imageReadyChroma key left top width height pixels chroma =>
    mirror.draw key fun surface =>
      surface.blitChroma left.toNat top.toNat width.toNat height.toNat pixels chroma
  | .imageReadyAlpha key left top width height pixels alpha =>
    mirror.draw key fun surface =>
      surface.blitAlpha left.toNat top.toNat width.toNat height.toNat pixels alpha
  | .fillRect key rect colour clip =>
    mirror.draw key fun surface => surface.fillRect rect colour clip
  | .copyBits key srcX srcY dest clip =>
    mirror.draw key fun surface => surface.copyBits srcX.toNat srcY.toNat dest clip
  | .invert key rect clip => mirror.draw key fun surface => surface.invertRect rect clip
  | .other => return (.notDisplay, mirror)

def applyAll (events : List DrawEvent) : Outcome Empty SurfaceMirror :=
  events.foldlM (fun mirror event => do return (← mirror.applyEvent event).2) mirror

def primaryKey : Option SurfaceKey :=
  if ⟨0, 0⟩ ∈ mirror.surfaces then some ⟨0, 0⟩ else mirror.surfaces.keys.head?

def primarySurface : Option DisplaySurface :=
  mirror.primaryKey.bind fun key => mirror.surfaces.lookup key

def primaryKeyFrom (first : Nat) : Option SurfaceKey :=
  if ⟨0, 0⟩ ∈ mirror.surfaces then some ⟨0, 0⟩
  else mirror.surfaces.keys[first % mirror.surfaces.keys.length]?

def primaryEntry (first : Nat) : Option (SurfaceKey × DisplaySurface) :=
  (mirror.primaryKeyFrom first).bind fun key =>
    (mirror.surfaces.lookup key).map fun surface => (key, surface)

def markAllDamaged : Outcome Empty SurfaceMirror :=
  mirror.surfaces.keys.foldlM (fun mirror key => do
    return (← mirror.draw key DisplaySurface.markAllDamaged).2) mirror

variable {mirror : SurfaceMirror} {surface : DisplaySurface}

theorem primaryEntry_lookup {first : Nat} {key : SurfaceKey}
    (entry : mirror.primaryEntry first = some (key, surface)) :
    mirror.surfaces.lookup key = some surface := by
  obtain ⟨key', -, found⟩ := Option.bind_eq_some_iff.mp entry
  obtain ⟨surface', known, same⟩ := Option.map_eq_some_iff.mp found
  obtain ⟨rfl, rfl⟩ := Prod.mk.inj same
  exact known

theorem draw_ensures {key : SurfaceKey} {call : DisplaySurface → Outcome Empty DisplaySurface}
    {post : DisplaySurface → Prop} (known : mirror.surfaces.lookup key = some surface)
    (called : (call surface).Ensures post) :
    (mirror.draw key call).Ensures fun result => ∃ drawn, post drawn ∧
      result.2.surfaces.lookup key = some drawn ∧
      ∀ other, other ≠ key → result.2.surfaces.lookup other = mirror.surfaces.lookup other := by
  rw [draw, known]
  refine called.bind fun drawn holds => ⟨drawn, holds, AList.lookup_insert _, fun other apart => ?_⟩
  exact AList.lookup_insert_ne apart

end SurfaceMirror

/-! ## What the dirty flag tells -/

namespace DisplaySurface

/-- The surfaces are of one size and hold the same bytes. -/
structure SamePicture (before after : DisplaySurface) : Prop where
  width : after.width = before.width
  height : after.height = before.height
  pixels : after.pixels.items = before.pixels.items

theorem SamePicture.refl (surface : DisplaySurface) : surface.SamePicture surface :=
  ⟨rfl, rfl, rfl⟩

/-- A surface that is clean was clean before, and shows what it showed. -/
def Marks (before after : DisplaySurface) : Prop :=
  after.dirty = false → before.dirty = false ∧ before.SamePicture after

variable {before : DisplaySurface} {after : DisplaySurface}

theorem items_eq_of_pixel_eq (frame : SameFrame before after)
    (same : after.pixel = before.pixel) : after.pixels.items = before.pixels.items := by
  have lengths : after.pixels.items.length = before.pixels.items.length := by
    rw [after.pixels_length, before.pixels_length, frame.width, frame.height]
  refine List.ext_getElem? fun index => ?_
  rcases Nat.lt_or_ge index before.pixels.items.length with inside | beyond
  · rw [before.pixels_length] at inside
    have stride_pos : 0 < before.width * 4 :=
      Nat.pos_of_ne_zero fun none => by simp [none] at inside
    -- The byte is one of the four of the pixel in its row and column.
    let point : Point := ⟨index % (before.width * 4) / 4, index / (before.width * 4)⟩
    have column := Nat.mod_lt index stride_pos
    have row : point.y < before.height := Nat.div_lt_of_lt_mul (by rwa [Nat.mul_comm])
    have on : before.holds point := holds_iff.mpr ⟨by dsimp only [point]; omega, row⟩
    have on' : after.holds point := by
      rw [holds_iff, frame.width, frame.height]
      exact holds_iff.mp on
    have pixels := congrFun same point
    rw [pixel_of_holds frame.width on', pixel_of_holds rfl on] at pixels
    have byte := congrArg (fun bytes => bytes[index % 4]?) (Option.some.inj pixels)
    have place : cellOffset (before.width * 4) point.y (point.x * 4) + index % 4 = index := by
      have whole := Nat.div_add_mod' index (before.width * 4)
      have part : index % (before.width * 4) % 4 = index % 4 := Nat.mod_mul_left_mod _ _ _
      simp only [cellOffset, point]
      omega
    have channel : index % 4 < 4 := Nat.mod_lt _ (by omega)
    simpa only [List.getElem?_take, channel, if_true, List.getElem?_drop, place] using byte
  · rw [List.getElem?_eq_none beyond, List.getElem?_eq_none (lengths ▸ beyond)]

theorem Draws.marks (draws : before.Draws after) : before.Marks after := by
  intro clean
  rcases draws.dirty with raised | ⟨flag, same⟩
  · rw [clean] at raised
    nomatch raised
  · have picture := items_eq_of_pixel_eq draws.frame same
    exact ⟨flag.symm.trans clean, draws.frame.width, draws.frame.height, picture⟩

theorem markAllDamaged_marks (surface : DisplaySurface) :
    surface.markAllDamaged.Ensures surface.Marks :=
  (DamageRegion.add_ensures _ _).bind fun _ _ => nofun

theorem new_dirty (id width height : Nat) :
    (DisplaySurface.new id width height).Ensures fun surface => surface.dirty = true :=
  (DamageRegion.add_ensures _ _).bind fun _ _ => rfl

end DisplaySurface

namespace SurfaceMirror

/-- A surface that is clean was there and clean before, and shows what it showed. -/
def Marks (before after : SurfaceMirror) : Prop :=
  ∀ key surface, after.surfaces.lookup key = some surface → surface.dirty = false →
    ∃ earlier, before.surfaces.lookup key = some earlier ∧ earlier.dirty = false ∧
      earlier.SamePicture surface

theorem Marks.refl (mirror : SurfaceMirror) : mirror.Marks mirror :=
  fun _ surface known clean => ⟨surface, known, clean, .refl surface⟩

variable {mirror : SurfaceMirror} {drawn : DisplaySurface}

theorem insert_marks {key : SurfaceKey}
    (marks : drawn.dirty = false → ∃ surface, mirror.surfaces.lookup key = some surface ∧
      surface.dirty = false ∧ surface.SamePicture drawn) :
    mirror.Marks ⟨mirror.surfaces.insert key drawn⟩ := by
  intro other surface known clean
  by_cases same : other = key
  · subst same
    rw [AList.lookup_insert] at known
    cases known
    exact marks clean
  · rw [AList.lookup_insert_ne same] at known
    exact ⟨surface, known, clean, .refl surface⟩

variable (mirror : SurfaceMirror)

theorem draw_marks (key : SurfaceKey) {call : DisplaySurface → Outcome Empty DisplaySurface}
    (called : ∀ surface, (call surface).Ensures surface.Marks) :
    (mirror.draw key call).Ensures fun result => mirror.Marks result.2 := by
  unfold draw
  split
  · rename_i surface known
    refine (called surface).bind fun drawn marks => ?_
    exact insert_marks fun clean => ⟨surface, known, marks clean⟩
  · exact .refl mirror

theorem applyEvent_marks (event : DrawEvent) :
    (mirror.applyEvent event).Ensures fun result => mirror.Marks result.2 := by
  cases event with
  | surfaceCreated key width height =>
    refine (DisplaySurface.new_dirty _ _ _).bind fun surface dirty => ?_
    exact insert_marks fun clean => by rw [dirty] at clean; nomatch clean
  | surfaceDestroyed key =>
    rw [applyEvent]
    split
    · intro other surface known clean
      by_cases same : other = key
      · subst same
        simp at known
      · rw [AList.lookup_erase_ne same] at known
        exact ⟨surface, known, clean, .refl surface⟩
    · exact .refl mirror
  | imageReady key left top width height pixels =>
    have drawn (surface : DisplaySurface) :
        (surface.blit left.toNat top.toNat width.toNat height.toNat pixels).Ensures
          surface.Marks :=
      (surface.blit_draws width.toNat_lt height.toNat_lt pixels).mono fun _ draws => draws.marks
    simp only [applyEvent]
    split
    · exact mirror.draw_marks key drawn
    · refine (DisplaySurface.new_dirty _ _ _).bind fun surface dirty => ?_
      refine (drawn surface).bind fun painted marks => insert_marks fun clean => ?_
      rw [(marks clean).1] at dirty
      nomatch dirty
  | imageReadyChroma key left top width height pixels chroma =>
    refine mirror.draw_marks key fun surface => ?_
    exact (surface.blitChroma_draws _ width.toNat_lt pixels chroma).mono
      fun _ draws => draws.marks
  | imageReadyAlpha key left top width height pixels alpha =>
    refine mirror.draw_marks key fun surface => ?_
    exact (surface.blitAlpha_draws _ width.toNat_lt pixels alpha).mono fun _ draws => draws.marks
  | fillRect key rect colour clip =>
    refine mirror.draw_marks key fun surface => ?_
    exact (surface.fillRect_draws rect colour clip).mono fun _ draws => draws.marks
  | copyBits key srcX srcY dest clip =>
    refine mirror.draw_marks key fun surface => ?_
    exact (surface.copyBits_draws _ _ dest clip).mono fun _ draws => draws.marks
  | invert key rect clip =>
    refine mirror.draw_marks key fun surface => ?_
    exact (surface.invertRect_draws rect clip).mono fun _ draws => draws.marks
  | other => exact .refl mirror

theorem markAllDamaged_marks : mirror.markAllDamaged.Ensures mirror.Marks := by
  refine foldlM_ensures mirror.Marks (fun mirror' key _ marks => ?_) (.refl mirror)
  refine (mirror'.draw_marks key DisplaySurface.markAllDamaged_marks).bind fun result later => ?_
  intro key surface known clean
  obtain ⟨between, known', clean', picture⟩ := later key surface known clean
  obtain ⟨earlier, known'', clean'', picture'⟩ := marks key between known' clean'
  exact ⟨earlier, known'', clean'', (⟨picture.width.trans picture'.width, picture.height.trans
    picture'.height, picture.pixels.trans picture'.pixels⟩)⟩

end SurfaceMirror

end Ryll
