import Ryll.Display.Mirror
import Ryll.Foundation.Runs
import Ryll.Rdp.Bitmaps

/-!
# The updates an RDP client is sent

A stream of updates sends a client the whole surface first and after every resize, the damaged
rectangles otherwise, and the surface at half brightness while the session is down.  Damage is gone
once it was taken, so the flags of the stream have to say whether it was shown.
-/

namespace Ryll

open List DisplaySurface Option

variable {κ ρ : Type}

/-- A value that a receiver watches. -/
structure Watch (α : Type) where
  value : α
  /-- The value was sent after the receiver last looked. -/
  changed : Bool

def Watch.send {α : Type} (watch : Watch α) (value : α) : Watch α :=
  { watch with value, changed := true }

def Watch.borrowAndUpdate {α : Type} (watch : Watch α) : α × Watch α :=
  (watch.value, { watch with changed := false })

/-- The cursor of a session. -/
structure CursorState (κ : Type) where
  shape : Option κ
  visible : Bool

/-- An update for the client. -/
inductive DisplayUpdate (ρ : Type)
  | resize (size : DesktopSize)
  | bitmap (bitmap : BitmapUpdate)
  | hidePointer
  | defaultPointer
  | rgbaPointer (pointer : ρ)

def pointerUpdate (rdpPointer : κ → Option ρ) (state : CursorState κ) : Option (DisplayUpdate ρ) :=
  if ¬state.visible then
    some .hidePointer
  else
    match state.shape with
    | none => some .defaultPointer
    | some shape => (rdpPointer shape).map .rgbaPointer

/-- The watches of a session, as a stream that takes them finds them. -/
structure SessionWatches (κ : Type) where
  cursor : Watch (CursorState κ)
  spiceUp : Watch Bool

/-- The stream of a client. -/
structure MirrorUpdates (ρ : Type) where
  /-- Updates that are yet to be handed to the server. -/
  pending : List (DisplayUpdate ρ)
  sentSize : DesktopSize
  resizeHeldUntil : Bool
  /-- The client was sent the whole surface at that size. -/
  seeded : Bool
  /-- The session was up at the last poll. -/
  spiceUp : Bool
  /-- The client was sent the darkened frame of the outage. -/
  darkened : Bool
  watches : Bool

namespace MirrorUpdates

def new (announced : DesktopSize) (held : Bool) : MirrorUpdates ρ where
  pending := []
  sentSize := announced
  resizeHeldUntil := held
  seeded := false
  spiceUp := true
  darkened := false
  watches := false

variable (stream : MirrorUpdates ρ)

def push (updates : List (DisplayUpdate ρ)) : MirrorUpdates ρ :=
  { stream with pending := stream.pending ++ updates }

def readWatch {α : Type} (taken : Bool) (watch : Watch α) : Option α × Watch α :=
  if watch.changed || taken then
    let (value, watch) := watch.borrowAndUpdate
    (some value, watch)
  else
    (none, watch)

def noteLiveness (up : Option Bool) (changed : Bool) : MirrorUpdates ρ :=
  let stream := match up with
    | some false => if stream.spiceUp then { stream with darkened := false } else stream
    | some true => if changed || !stream.spiceUp then { stream with seeded := false } else stream
    | none => stream
  { stream with spiceUp := up.getD stream.spiceUp }

def pollSession (rdpPointer : κ → Option ρ) (stream : MirrorUpdates ρ)
    (session : SessionWatches κ) : MirrorUpdates ρ × SessionWatches κ :=
  let taken := !stream.watches
  let upChanged := session.spiceUp.changed
  let (cursor, cursorWatch) := readWatch taken session.cursor
  let (up, upWatch) := readWatch taken session.spiceUp
  let stream := { stream with watches := true }
  let stream := stream.push (cursor.bind (pointerUpdate rdpPointer)).toList
  (stream.noteLiveness up upChanged, ⟨cursorWatch, upWatch⟩)

def resizeHeld (graceOver : Bool) : Bool × MirrorUpdates ρ :=
  if stream.resizeHeldUntil && !graceOver then
    (true, stream)
  else
    (false, { stream with resizeHeldUntil := false })

def resize (stream : MirrorUpdates ρ) (size : DesktopSize) : MirrorUpdates ρ :=
  { stream.push [.resize size] with sentSize := size }

variable (sub : SubBitmap)

def pushSurface (stream : MirrorUpdates ρ) (surface : DisplaySurface)
    (size : DesktopSize) : Outcome Empty (MirrorUpdates ρ × DisplaySurface) := do
  let (damage, surface) := surface.takeDamage
  if !stream.seeded then
    match ← fullBitmap surface size with
    | some bitmap => return ({ stream.push [.bitmap bitmap] with seeded := true }, surface)
    | none => return (stream, surface)
  else
    let bitmaps ← damageBitmaps sub surface size damage.rects
    return (stream.push (bitmaps.map .bitmap), surface)

def refresh (mirror : SurfaceMirror) (key : SurfaceKey)
    (surface : DisplaySurface) (size : DesktopSize) (stream : MirrorUpdates ρ) :
    Outcome Empty (MirrorUpdates ρ × SurfaceMirror) := do
  let (stream, surface) ← stream.pushSurface sub surface size
  return (stream, ⟨mirror.surfaces.insert key surface⟩)

/-- Poll while the session is up. -/
def pollMirror (graceOver : Bool) (stream : MirrorUpdates ρ)
    (mirror : SurfaceMirror) : Outcome Empty (MirrorUpdates ρ × SurfaceMirror) := do
  let unseeded := ({ stream with seeded := false }, mirror)
  let some key := mirror.primaryKey | return unseeded
  let some surface := mirror.surfaces.lookup key | return unseeded
  let some size := surfaceDesktopSize surface | return unseeded
  if size ≠ stream.sentSize then
    let (held, stream) := stream.resizeHeld graceOver
    if held then
      return ({ stream with seeded := false }, mirror)
    else
      refresh sub mirror key surface size { stream.resize size with seeded := false }
  else
    refresh sub mirror key surface size stream

def pushDarkened (surface : DisplaySurface) (size : DesktopSize) :
    Outcome Empty (MirrorUpdates ρ) := do
  match ← darkenedBitmap surface size with
  | some bitmap => return { stream.push [.bitmap bitmap] with darkened := true }
  | none => return stream

/-- Poll during an outage. -/
def pollOutage (graceOver : Bool) (stream : MirrorUpdates ρ) (mirror : SurfaceMirror) :
    Outcome Empty (MirrorUpdates ρ) := do
  if stream.darkened then
    return stream
  else
    let some surface := mirror.primarySurface | return stream
    let some size := surfaceDesktopSize surface | return stream
    if size ≠ stream.sentSize then
      let (held, stream) := stream.resizeHeld graceOver
      if held then return stream else (stream.resize size).pushDarkened surface size
    else
      stream.pushDarkened surface size

end MirrorUpdates

/-! ## A connection -/

def DrawEvent.key : DrawEvent → Option SurfaceKey
  | .surfaceCreated key _ _ | .surfaceDestroyed key | .imageReady key _ _ _ _ _
  | .imageReadyChroma key _ _ _ _ _ _ | .imageReadyAlpha key _ _ _ _ _ _ | .fillRect key _ _ _
  | .copyBits key _ _ _ _ | .invert key _ _ => some key
  | .other => none

/-- A connection with what it watches. -/
structure RdpView (κ ρ : Type) where
  mirror : SurfaceMirror
  session : SessionWatches κ
  /-- The time until which resizes are held has passed. -/
  graceOver : Bool
  slotFilled : Bool
  stream : MirrorUpdates ρ
  /-- The call for the next update has looked at the session and waits for the mirror. -/
  locking : Bool
  handedOut : List (DisplayUpdate ρ)
  /-- The darkened frame that was queued last (history). -/
  outageFrame : Option (Point → Option Rgba)

/-- What can happen. -/
inductive RdpViewStep (κ : Type)
  | event (event : DrawEvent)
  | liveness (up : Bool)
  | cursor (state : CursorState κ)
  | graceEnds
  | slot (filled : Bool)
  | handOut
  /-- A call with nothing pending looks at the slot and the session after a tick. -/
  | look
  | poll
  | drop

namespace RdpView

def opened (announced : DesktopSize) (held : Bool) (mirror : SurfaceMirror)
    (session : SessionWatches κ) (graceOver slotFilled : Bool) : RdpView κ ρ where
  mirror
  session
  graceOver
  slotFilled
  stream := .new announced held
  locking := false
  handedOut := []
  outageFrame := none

def halfBright (surface : DisplaySurface) (point : Point) : Option Rgba :=
  (surface.colour point).map Rgba.darkened

def pollLocked (sub : SubBitmap) (view : RdpView κ ρ) : Outcome Empty (RdpView κ ρ) := do
  if view.stream.spiceUp then
    let (stream, mirror) ← view.stream.pollMirror sub view.graceOver view.mirror
    return { view with stream, mirror, locking := false }
  else
    let stream ← view.stream.pollOutage view.graceOver view.mirror
    let outageFrame := if stream.darkened && !view.stream.darkened then
        view.mirror.primarySurface.map halfBright
      else
        view.outageFrame
    return { view with stream, outageFrame, locking := false }

def step (sub : SubBitmap) (rdpPointer : κ → Option ρ) (view : RdpView κ ρ) :
    RdpViewStep κ → Option (RdpView κ ρ)
  | .event event =>
    if event.key = none ∨ event.key = some ⟨0, 0⟩ then
      (view.mirror.applyEvent event).toOption.map fun result => { view with mirror := result.2 }
    else
      none
  | .liveness up =>
    some { view with session := { view.session with spiceUp := view.session.spiceUp.send up } }
  | .cursor state =>
    some { view with session := { view.session with cursor := view.session.cursor.send state } }
  | .graceEnds => some { view with graceOver := true }
  | .slot slotFilled => some { view with slotFilled }
  | .handOut =>
    match view.locking, view.stream.pending with
    | false, update :: pending => some { view with
        stream := { view.stream with pending }
        handedOut := view.handedOut ++ [update] }
    | _, _ => none
  | .look =>
    if view.locking = true ∨ view.stream.pending ≠ [] then
      none
    else if view.slotFilled then
      let (stream, session) := view.stream.pollSession rdpPointer view.session
      some { view with stream, session, locking := true }
    else
      some { view with stream := { view.stream with seeded := false } }
  | .poll => if view.locking then (view.pollLocked sub).toOption else none
  | .drop => some { view with locking := false }

end RdpView

/-! ## What the client shows -/

/-- What the client shows. -/
structure Desktop where
  size : DesktopSize
  cells : Point → Option Rgba
  /-- No bitmap was shown at this size. -/
  fresh : Bool

namespace Desktop

def blank (size : DesktopSize) : Desktop := ⟨size, fun _ => none, true⟩

variable (desktop : Desktop)

def bounds : DamageRect := ⟨0, 0, desktop.size.width, desktop.size.height⟩

def apply : DisplayUpdate ρ → Desktop
  | .resize size => blank size
  | .bitmap bitmap => { desktop with
      cells := fun point =>
        if bitmap.rect.covers point then bitmap.colour point else desktop.cells point
      fresh := false }
  | .hidePointer | .defaultPointer | .rgbaPointer _ => desktop

def applyAll (updates : List (DisplayUpdate ρ)) : Desktop :=
  updates.foldl apply desktop

/-- A bitmap lies inside the desktop and covers it if it is the first. -/
def Accepts : DisplayUpdate ρ → Prop
  | .bitmap bitmap =>
    desktop.bounds.contains bitmap.rect ∧ (desktop.fresh = true → bitmap.rect = desktop.bounds)
  | .resize _ | .hidePointer | .defaultPointer | .rgbaPointer _ => True

/-- Each update is accepted where it comes. -/
def AcceptsAll : Desktop → List (DisplayUpdate ρ) → Prop
  | _, [] => True
  | desktop, update :: updates => desktop.Accepts update ∧ (desktop.apply update).AcceptsAll updates

end Desktop

namespace RdpView

def updates (view : RdpView κ ρ) : List (DisplayUpdate ρ) := view.handedOut ++ view.stream.pending

/-- What the client will show. -/
def picture (announced : DesktopSize) (view : RdpView κ ρ) : Desktop :=
  (Desktop.blank announced).applyAll view.updates

/-- After a poll the client shows the surface, if it has its size and the session was up, and the
surface at half brightness, as it was when queued, if the session was down. -/
structure Polled (announced : DesktopSize) (view : RdpView κ ρ) : Prop where
  up : view.stream.spiceUp = true → ∀ surface, view.mirror.primarySurface = some surface →
    surfaceDesktopSize surface = some (view.picture announced).size →
    (view.picture announced).cells = surface.colour
  down : view.stream.spiceUp = false → view.stream.darkened = true →
    view.outageFrame = some (view.picture announced).cells

end RdpView

/-! ## Updates and the desktop -/

open Desktop

namespace Desktop

variable {desktop : Desktop} {bitmaps : List BitmapUpdate} {field : Point → Option Rgba}

theorem acceptsAll_append {first second : List (DisplayUpdate ρ)} :
    desktop.AcceptsAll (first ++ second) ↔
      desktop.AcceptsAll first ∧ (desktop.applyAll first).AcceptsAll second := by
  induction first generalizing desktop with
  | nil => exact (and_iff_right trivial).symm
  | cons update updates ih =>
    rw [cons_append, AcceptsAll, ih, AcceptsAll, and_assoc]
    rfl

theorem acceptsAll_bitmaps (shown : desktop.fresh = false)
    (inside : ∀ bitmap ∈ bitmaps, desktop.bounds.contains bitmap.rect) :
    desktop.AcceptsAll (bitmaps.map (DisplayUpdate.bitmap (ρ := ρ))) := by
  induction bitmaps generalizing desktop with
  | nil => trivial
  | cons bitmap bitmaps ih =>
    obtain ⟨first, rest⟩ := forall_mem_cons.mp inside
    refine ⟨⟨first, fun fresh => ?_⟩, ih rfl rest⟩
    rw [shown] at fresh
    cases fresh

theorem applyAll_bitmaps (shown : desktop.fresh = false)
    (shows_field : ∀ bitmap ∈ bitmaps, bitmap.Shows field)
    (covered : ∀ point, desktop.cells point ≠ field point →
      ∃ bitmap ∈ bitmaps, bitmap.rect.covers point) :
    desktop.applyAll (bitmaps.map (DisplayUpdate.bitmap (ρ := ρ))) =
      ⟨desktop.size, field, false⟩ := by
  induction bitmaps generalizing desktop with
  | nil =>
    have same : desktop.cells = field := by
      funext point
      by_contra differs
      obtain ⟨bitmap, listed, -⟩ := covered point differs
      cases listed
    rw [← same, ← shown]
    rfl
  | cons bitmap bitmaps ih =>
    obtain ⟨first, rest⟩ := forall_mem_cons.mp shows_field
    refine @ih (desktop.apply (.bitmap bitmap : DisplayUpdate ρ)) rfl rest
      fun point differs => ?_
    dsimp only [apply] at differs
    split at differs
    · next inside => exact absurd (first point inside) differs
    · next outside =>
      obtain ⟨other, listed, inside⟩ := covered point differs
      obtain rfl | listed := mem_cons.mp listed
      · exact absurd inside outside
      · exact ⟨other, listed, inside⟩

theorem apply_whole {bitmap : BitmapUpdate}
    (whole : bitmap.rect = desktop.bounds) (shows_field : bitmap.Shows field)
    (inside : ∀ point, ¬desktop.bounds.covers point →
      desktop.cells point = none ∧ field point = none) :
    desktop.AcceptsAll [DisplayUpdate.bitmap (ρ := ρ) bitmap] ∧
      desktop.applyAll [DisplayUpdate.bitmap (ρ := ρ) bitmap] = ⟨desktop.size, field, false⟩ := by
  refine ⟨⟨⟨?_, fun _ => whole⟩, trivial⟩, ?_⟩
  · rw [whole]
    exact DamageRect.contains_refl _
  · have cells : (fun point => if bitmap.rect.covers point then bitmap.colour point
        else desktop.cells point) = field := by
      funext point
      by_cases covered : bitmap.rect.covers point
      · rw [if_pos covered]
        exact shows_field point covered
      · rw [if_neg covered]
        rw [whole] at covered
        rw [(inside point covered).1, (inside point covered).2]
    change mk _ _ _ = _
    rw [cells]

end Desktop

/-! ## Events on the primary surface -/

namespace SurfaceMirror

/-- There is no surface but the primary one. -/
def OnlyPrimary (mirror : SurfaceMirror) : Prop :=
  ∀ key, key ≠ ⟨0, 0⟩ → mirror.surfaces.lookup key = none

variable {mirror : SurfaceMirror}

theorem OnlyPrimary.primaryKey (only : mirror.OnlyPrimary) :
    mirror.primaryKey = (mirror.surfaces.lookup ⟨0, 0⟩).map fun _ => ⟨0, 0⟩ := by
  rw [SurfaceMirror.primaryKey]
  by_cases known : (⟨0, 0⟩ : SurfaceKey) ∈ mirror.surfaces
  · obtain ⟨surface, found⟩ := isSome_iff_exists.mp (AList.lookup_isSome.mpr known)
    rw [if_pos known, found]
    rfl
  rw [if_neg known, AList.lookup_eq_none.mpr known]
  have empty : mirror.surfaces.keys = [] := by
    refine eq_nil_iff_forall_not_mem.mpr fun key listed => ?_
    have present : key ∈ mirror.surfaces := AList.mem_keys.mpr listed
    by_cases primary : key = ⟨0, 0⟩
    · exact known (primary ▸ present)
    · exact AList.lookup_eq_none.mp (only key primary) present
  rw [empty]
  rfl

theorem OnlyPrimary.primarySurface (only : mirror.OnlyPrimary) :
    mirror.primarySurface = mirror.surfaces.lookup ⟨0, 0⟩ := by
  rw [SurfaceMirror.primarySurface, only.primaryKey]
  cases known : mirror.surfaces.lookup ⟨0, 0⟩ with
  | none => rfl
  | some surface => exact known

/-- After an event the primary surface was drawn on, or is damaged all over, or is gone. -/
def Evolves (before after : SurfaceMirror) : Prop :=
  after.OnlyPrimary ∧ ∀ surface', after.surfaces.lookup ⟨0, 0⟩ = some surface' →
    (∃ surface, before.surfaces.lookup ⟨0, 0⟩ = some surface ∧ surface.Draws surface') ∨
      ∀ point, surface'.holds point → surface'.damage.covers point

section

variable (only : mirror.OnlyPrimary)
include only

theorem Evolves.refl : mirror.Evolves mirror :=
  ⟨only, fun surface known => .inl ⟨surface, known, .refl surface⟩⟩

theorem OnlyPrimary.insert (surface : DisplaySurface) :
    OnlyPrimary ⟨mirror.surfaces.insert ⟨0, 0⟩ surface⟩ := by
  intro key other
  rw [AList.lookup_insert_ne other]
  exact only key other

theorem OnlyPrimary.evolves {surface' : DisplaySurface}
    (drawn : (∃ surface, mirror.surfaces.lookup ⟨0, 0⟩ = some surface ∧ surface.Draws surface') ∨
      ∀ point, surface'.holds point → surface'.damage.covers point) :
    mirror.Evolves ⟨mirror.surfaces.insert ⟨0, 0⟩ surface'⟩ := by
  refine ⟨only.insert surface', fun other known => ?_⟩
  cases known
  exact drawn

theorem draw_evolves {call : DisplaySurface → Outcome Empty DisplaySurface}
    (draws : ∀ surface, (call surface).Ensures surface.Draws) :
    (mirror.draw ⟨0, 0⟩ call).Ensures fun result => mirror.Evolves result.2 := by
  rw [draw]
  cases known : mirror.surfaces.lookup ⟨0, 0⟩ with
  | none => exact .refl only
  | some surface =>
    refine (draws surface).bind fun drawn holds => ?_
    exact only.evolves (.inl ⟨surface, known, holds⟩)

end

theorem new_damaged (id width height : Nat) :
    (DisplaySurface.new id width height).Ensures fun surface =>
      ∀ point, surface.holds point → surface.damage.covers point := by
  refine (DamageRegion.add_ensures _ _).bind fun damage recorded point on => ?_
  refine recorded.covered point (.inr (DamageRect.covers_iff.mpr ?_))
  obtain ⟨on_x, on_y⟩ := DisplaySurface.holds_iff.mp on
  exact ⟨Nat.zero_le _, on_x, Nat.zero_le _, on_y⟩

theorem applyEvent_evolves (only : mirror.OnlyPrimary) {event : DrawEvent}
    (primary : event.key = none ∨ event.key = some ⟨0, 0⟩) :
    (mirror.applyEvent event).Ensures fun result => mirror.Evolves result.2 := by
  have own {key : SurfaceKey} (named : event.key = some key) : key = ⟨0, 0⟩ :=
    some.inj (named.symm.trans (primary.resolve_left (by rw [named]; exact nofun)))
  cases event with
  | surfaceCreated key width height =>
    obtain rfl := own rfl
    refine (new_damaged _ _ _).bind fun surface damaged => ?_
    exact only.evolves (.inr damaged)
  | surfaceDestroyed key =>
    obtain rfl := own rfl
    rw [applyEvent]
    split
    · refine ⟨fun key other => ?_, fun surface known => ?_⟩
      · rw [AList.lookup_erase_ne other]
        exact only key other
      · rw [AList.lookup_erase] at known
        cases known
    · exact .refl only
  | imageReady key left top width height pixels =>
    obtain rfl := own rfl
    rw [applyEvent]
    split
    · exact draw_evolves only fun surface =>
        surface.blit_draws width.toNat_lt height.toNat_lt pixels
    refine (new_damaged _ _ _).bind fun surface damaged => ?_
    refine (surface.blit_draws width.toNat_lt height.toNat_lt pixels).bind fun drawn draws => ?_
    refine only.evolves (.inr fun point on => draws.kept point (damaged point ?_))
    rw [DisplaySurface.holds_iff] at on ⊢
    rw [← draws.frame.width, ← draws.frame.height]
    exact on
  | imageReadyChroma key left top width height pixels chroma =>
    obtain rfl := own rfl
    exact draw_evolves only fun surface =>
      surface.blitChroma_draws _ width.toNat_lt pixels chroma
  | imageReadyAlpha key left top width height pixels alpha =>
    obtain rfl := own rfl
    exact draw_evolves only fun surface =>
      surface.blitAlpha_draws _ width.toNat_lt pixels alpha
  | fillRect key rect colour clip =>
    obtain rfl := own rfl
    exact draw_evolves only fun surface => surface.fillRect_draws rect colour clip
  | copyBits key srcX srcY dest clip =>
    obtain rfl := own rfl
    exact draw_evolves only fun surface => surface.copyBits_draws _ _ dest clip
  | invert key rect clip =>
    obtain rfl := own rfl
    exact draw_evolves only fun surface => surface.invertRect_draws rect clip
  | other => exact .refl only

end SurfaceMirror

/-! ## The flags of the stream -/

/-- The flags are right: a seeded client shows the surface outside the recorded damage, and the
darkened frame during an outage. -/
structure Tracks (desktop : Desktop) (stream : MirrorUpdates ρ) (mirror : SurfaceMirror)
    (outageFrame : Option (Point → Option Rgba)) : Prop where
  only : mirror.OnlyPrimary
  size : desktop.size = stream.sentSize
  inside : ∀ point, ¬desktop.bounds.covers point → desktop.cells point = none
  shown : stream.seeded = true → stream.spiceUp = true → desktop.fresh = false
  damaged : stream.seeded = true → stream.spiceUp = true →
    ∀ surface, mirror.surfaces.lookup ⟨0, 0⟩ = some surface →
      surfaceDesktopSize surface = some stream.sentSize →
      ∀ point, desktop.cells point ≠ surface.colour point → surface.damage.covers point
  dark : stream.spiceUp = false → stream.darkened = true → outageFrame = some desktop.cells

open MirrorUpdates

section Streams

variable {desktop : Desktop} {stream stream' : MirrorUpdates ρ} {mirror mirror' : SurfaceMirror}
  {outageFrame : Option (Point → Option Rgba)}

theorem Tracks.lower (tracks : Tracks desktop stream mirror outageFrame)
    (size : stream'.sentSize = stream.sentSize)
    (seeded : stream'.seeded = true → stream'.spiceUp = true →
      stream.seeded = true ∧ stream.spiceUp = true)
    (darkened : stream'.spiceUp = false → stream'.darkened = true →
      stream.spiceUp = false ∧ stream.darkened = true) :
    Tracks desktop stream' mirror outageFrame where
  only := tracks.only
  size := tracks.size.trans size.symm
  inside := tracks.inside
  shown now up := tracks.shown (seeded now up).1 (seeded now up).2
  damaged now up := by
    rw [size]
    exact tracks.damaged (seeded now up).1 (seeded now up).2
  dark down now := tracks.dark (darkened down now).1 (darkened down now).2

variable {surface : DisplaySurface} {sub : SubBitmap} {pending : List (DisplayUpdate ρ)}

theorem holds_of_bounds_covers (sized : surfaceDesktopSize surface = some desktop.size)
    {point : Point} : desktop.bounds.covers point ↔ surface.holds point := by
  obtain ⟨same, -, -⟩ := surfaceDesktopSize_eq sized
  rw [DamageRect.covers_iff, DisplaySurface.holds_iff, Desktop.bounds, same]
  simp

theorem Tracks.evolves (tracks : Tracks desktop stream mirror outageFrame)
    (evolved : mirror.Evolves mirror') : Tracks desktop stream mirror' outageFrame where
  only := evolved.1
  size := tracks.size
  inside := tracks.inside
  shown := tracks.shown
  damaged now up surface' known sized point differs := by
    obtain ⟨surface, before, draws⟩ | damaged := evolved.2 surface' known
    · have sized' : surfaceDesktopSize surface = some stream.sentSize := by
        rw [← sized, surfaceDesktopSize, surfaceDesktopSize, draws.frame.width, draws.frame.height]
      by_cases changed : surface'.colour point = surface.colour point
      · rw [changed] at differs
        exact draws.kept point (tracks.damaged now up surface before sized' point differs)
      · refine draws.damaged point fun same => changed ?_
        rw [pixel_eq, pixel_eq] at same
        exact map_injective (fun _ _ => Rgba.bytes_injective) same
    · refine damaged point (by_contra fun off => differs ?_)
      rw [colour_of_not_holds off]
      refine tracks.inside point fun covered => off ?_
      rw [← tracks.size] at sized
      exact (holds_of_bounds_covers sized).mp covered
  dark := tracks.dark

variable {size : DesktopSize}

theorem pushSurface_ensures (cuts : CutsOut sub)
    (sized : surfaceDesktopSize surface = some desktop.size)
    (inside : ∀ point, ¬desktop.bounds.covers point → desktop.cells point = none)
    (shown : stream.seeded = true → desktop.fresh = false) (damaged : stream.seeded = true →
      ∀ point, desktop.cells point ≠ surface.colour point → surface.damage.covers point) :
    (stream.pushSurface sub surface desktop.size).Ensures fun result =>
      result.2 = surface.takeDamage.2 ∧ ∃ updates : List (DisplayUpdate ρ),
        result.1 = { stream.push updates with seeded := true } ∧ desktop.AcceptsAll updates ∧
        desktop.applyAll updates = ⟨desktop.size, surface.colour, false⟩ := by
  have bounds : desktop.bounds = surface.bounds := by
    obtain ⟨same, -, -⟩ := surfaceDesktopSize_eq sized
    rw [Desktop.bounds, same]
    rfl
  have sized' : surfaceDesktopSize surface.takeDamage.2 = some desktop.size := sized
  rw [pushSurface]
  dsimp only
  by_cases seeded : stream.seeded = true
  · rw [seeded, if_neg (by decide)]
    refine (damageBitmaps_show cuts sized' surface.takeDamage.1.rects).bind
      fun bitmaps ⟨placed, covering⟩ => ?_
    refine ⟨rfl, bitmaps.map .bitmap, ?_, ?_, ?_⟩
    · rw [← seeded]
      rfl
    · refine acceptsAll_bitmaps (shown seeded) fun bitmap listed => ?_
      rw [bounds]
      exact (placed bitmap listed).1
    · refine applyAll_bitmaps (shown seeded) (fun bitmap listed => (placed bitmap listed).2)
        fun point differs => ?_
      refine covering point (by_contra fun off => differs ?_) (damaged seeded point differs)
      have outside : ¬desktop.bounds.covers point := fun covered =>
        off ((holds_of_bounds_covers sized').mp covered)
      exact (inside point outside).trans (colour_of_not_holds off).symm
  · rw [Bool.eq_false_iff.mpr seeded, Bool.not_false, if_pos rfl]
    obtain ⟨bitmap, made, whole, shows_surface⟩ := fullBitmap_shows sized'
    rw [made, ok_bind]
    refine ⟨rfl, [.bitmap bitmap], rfl, apply_whole whole shows_surface
      fun point outside => ⟨inside point outside, ?_⟩⟩
    exact colour_of_not_holds fun on =>
      outside ((holds_of_bounds_covers sized').mpr on)

/-- A poll while the session is up queues accepted updates, and the client shows the surface. -/
def PollsUp (desktop : Desktop) (pending : List (DisplayUpdate ρ))
    (outageFrame : Option (Point → Option Rgba)) (stream : MirrorUpdates ρ)
    (mirror : SurfaceMirror) : Prop :=
  stream.spiceUp = true ∧ ∃ updates : List (DisplayUpdate ρ),
    stream.pending = pending ++ updates ∧ desktop.AcceptsAll updates ∧
    Tracks (desktop.applyAll updates) stream mirror outageFrame ∧
    ∀ surface, mirror.surfaces.lookup ⟨0, 0⟩ = some surface →
      surfaceDesktopSize surface = some (desktop.applyAll updates).size →
      (desktop.applyAll updates).cells = surface.colour

theorem refresh_ensures (desktop : Desktop) (stream : MirrorUpdates ρ)
    (cuts : CutsOut sub) (only : mirror.OnlyPrimary)
    (sized : surfaceDesktopSize surface = some desktop.size)
    (inside : ∀ point, ¬desktop.bounds.covers point → desktop.cells point = none)
    (sent : stream.sentSize = desktop.size) (up : stream.spiceUp = true)
    (shown : stream.seeded = true → desktop.fresh = false) (damaged : stream.seeded = true →
      ∀ point, desktop.cells point ≠ surface.colour point → surface.damage.covers point) :
    (refresh sub mirror ⟨0, 0⟩ surface desktop.size stream).Ensures fun result =>
      PollsUp desktop stream.pending outageFrame result.1 result.2 := by
  refine (pushSurface_ensures cuts sized inside shown damaged).bind fun result pushes => ?_
  obtain ⟨stream', surface'⟩ := result
  obtain ⟨taken, updates, pushed, accepted, replaced⟩ := pushes
  subst taken pushed
  refine ⟨up, updates, rfl, accepted, ?_, fun other known _ => ?_⟩
  · rw [replaced]
    exact {
      only := only.insert _
      size := sent.symm
      inside := by
        intro point outside
        refine colour_of_not_holds fun on => outside ?_
        exact (holds_of_bounds_covers sized).mpr on
      shown := fun _ _ => rfl
      damaged := by
        intro _ _ surface' known _ point differs
        cases known
        exact absurd rfl differs
      dark := fun down => nomatch up.symm.trans down }
  · rw [AList.lookup_insert] at known
    cases known
    rw [replaced]
    rfl

theorem pollsUp_nothing (tracks : Tracks desktop stream mirror outageFrame)
    (up : stream.spiceUp = true) (unfit : ∀ surface, mirror.surfaces.lookup ⟨0, 0⟩ = some surface →
      surfaceDesktopSize surface ≠ some desktop.size) :
    PollsUp desktop stream.pending outageFrame { stream with seeded := false } mirror := by
  refine ⟨up, [], (append_nil _).symm, trivial, tracks.lower rfl nofun fun down => ?_,
    fun surface known sized => absurd sized (unfit surface known)⟩
  exact absurd (up.symm.trans down) nofun

theorem resizeHeld_eq (stream : MirrorUpdates ρ) (graceOver : Bool) :
    ∃ held, (stream.resizeHeld graceOver).2 = { stream with resizeHeldUntil := held } := by
  rw [resizeHeld]
  split
  · exact ⟨stream.resizeHeldUntil, rfl⟩
  · exact ⟨false, rfl⟩

theorem pollMirror_ensures (cuts : CutsOut sub) (graceOver : Bool)
    (tracks : Tracks desktop stream mirror outageFrame) (up : stream.spiceUp = true) :
    (stream.pollMirror sub graceOver mirror).Ensures fun result =>
      PollsUp desktop stream.pending outageFrame result.1 result.2 := by
  rw [pollMirror, tracks.only.primaryKey]
  cases known : mirror.surfaces.lookup ⟨0, 0⟩ with
  | none =>
    refine pollsUp_nothing tracks up fun surface known' => ?_
    rw [known] at known'
    cases known'
  | some surface =>
    have unique (other : DisplaySurface) (known' : mirror.surfaces.lookup ⟨0, 0⟩ = some other) :
        surface = other := some.inj (known.symm.trans known')
    dsimp only [map_some]
    rw [known]
    dsimp only
    cases sized : surfaceDesktopSize surface with
    | none =>
      refine pollsUp_nothing tracks up fun other known' => ?_
      rw [← unique other known', sized]
      nofun
    | some size =>
      dsimp only
      by_cases fits : size = stream.sentSize
      · rw [if_neg (not_not_intro fits)]
        rw [fits, ← tracks.size] at sized ⊢
        refine refresh_ensures desktop stream cuts tracks.only sized tracks.inside
          tracks.size.symm up
          (fun now => tracks.shown now up) fun now => ?_
        exact tracks.damaged now up surface known (tracks.size ▸ sized)
      · rw [if_pos fits]
        obtain ⟨held, after⟩ := resizeHeld_eq stream graceOver
        rw [after]
        split
        · refine pollsUp_nothing { tracks with } up fun other known' sized' => fits ?_
          rw [← unique other known', sized, tracks.size] at sized'
          exact some.inj sized'
        · refine (refresh_ensures (.blank size)
            { resize { stream with resizeHeldUntil := held } size with seeded := false }
            cuts tracks.only sized (fun _ _ => rfl) rfl up nofun nofun).mono
            fun result (polls : PollsUp _ _ outageFrame _ _) => ?_
          obtain ⟨up, updates, queued, accepted, tracks, shown⟩ := polls
          refine ⟨up, .resize size :: updates, ?_, ⟨trivial, accepted⟩, tracks, shown⟩
          rw [queued]
          exact append_assoc _ _ _

/-- A poll while the session is down queues accepted updates; a darkened frame is the surface. -/
def PollsDown (desktop : Desktop) (pending : List (DisplayUpdate ρ)) (mirror : SurfaceMirror)
    (outageFrame : Option (Point → Option Rgba)) (darkened : Bool) (stream : MirrorUpdates ρ) :
    Prop :=
  stream.spiceUp = false ∧ ∃ updates : List (DisplayUpdate ρ),
    stream.pending = pending ++ updates ∧ desktop.AcceptsAll updates ∧
    Tracks (desktop.applyAll updates) stream mirror
      (if stream.darkened && !darkened then mirror.primarySurface.map RdpView.halfBright
        else outageFrame)

theorem pushDarkened_ensures (desktop : Desktop) (stream : MirrorUpdates ρ)
    (only : mirror.OnlyPrimary) (known : mirror.surfaces.lookup ⟨0, 0⟩ = some surface)
    (sized : surfaceDesktopSize surface = some desktop.size)
    (inside : ∀ point, ¬desktop.bounds.covers point → desktop.cells point = none)
    (sent : stream.sentSize = desktop.size) (down : stream.spiceUp = false) :
    (stream.pushDarkened surface desktop.size).Ensures
      (PollsDown desktop stream.pending mirror outageFrame false) := by
  obtain ⟨bitmap, made, whole, shows_surface⟩ := darkenedBitmap_shows sized
  have off (point : Point) (outside : ¬desktop.bounds.covers point) :
      (surface.colour point).map Rgba.darkened = none := by
    rw [colour_of_not_holds fun on =>
      outside ((holds_of_bounds_covers sized).mpr on)]
    rfl
  obtain ⟨accepted, replaced⟩ := apply_whole (ρ := ρ) whole shows_surface
    fun point outside => ⟨inside point outside, off point outside⟩
  rw [pushDarkened, made, ok_bind]
  refine ⟨down, [.bitmap bitmap], rfl, accepted, ?_⟩
  rw [replaced, only.primarySurface, known]
  exact {
    only
    size := sent.symm
    inside := off
    shown := fun _ up => absurd (down.symm.trans up) nofun
    damaged := fun _ up => absurd (down.symm.trans up) nofun
    dark := fun _ _ => rfl }

theorem pollsDown_nothing (tracks : Tracks desktop stream mirror outageFrame)
    (down : stream.spiceUp = false) (light : stream.darkened = false) (held : Bool) :
    PollsDown desktop stream.pending mirror outageFrame false
      { stream with resizeHeldUntil := held } := by
  refine ⟨down, [], (append_nil _).symm, trivial, ?_⟩
  have same : Tracks desktop { stream with resizeHeldUntil := held } mirror outageFrame :=
    { tracks with }
  rw [light] at same ⊢
  exact same

theorem pollOutage_ensures (graceOver : Bool) (tracks : Tracks desktop stream mirror outageFrame)
    (down : stream.spiceUp = false) : (stream.pollOutage graceOver mirror).Ensures
      (PollsDown desktop stream.pending mirror outageFrame stream.darkened) := by
  rw [pollOutage, tracks.only.primarySurface]
  cases light : stream.darkened with
  | true =>
    refine ⟨down, [], (append_nil _).symm, trivial, ?_⟩
    rw [light]
    exact tracks
  | false =>
    rw [if_neg Bool.false_ne_true]
    cases known : mirror.surfaces.lookup ⟨0, 0⟩ with
    | none => exact pollsDown_nothing tracks down light stream.resizeHeldUntil
    | some surface =>
      dsimp only
      cases sized : surfaceDesktopSize surface with
      | none => exact pollsDown_nothing tracks down light stream.resizeHeldUntil
      | some size =>
        dsimp only
        by_cases fits : size = stream.sentSize
        · rw [if_neg (not_not_intro fits)]
          rw [fits, ← tracks.size] at sized ⊢
          exact pushDarkened_ensures desktop stream tracks.only known sized tracks.inside
            tracks.size.symm down
        · rw [if_pos fits]
          obtain ⟨held, after⟩ := resizeHeld_eq stream graceOver
          rw [after]
          split
          · exact pollsDown_nothing tracks down light held
          · refine (pushDarkened_ensures (.blank size)
              (resize { stream with resizeHeldUntil := held } size) tracks.only known
              sized (fun _ _ => rfl) rfl down).mono
              fun result (polls : PollsDown _ _ _ outageFrame _ _) => ?_
            obtain ⟨down, updates, queued, accepted, tracks⟩ := polls
            refine ⟨down, .resize size :: updates, ?_, ⟨trivial, accepted⟩, tracks⟩
            rw [queued]
            exact append_assoc _ _ _

end Streams

/-! ## Whole connections -/

theorem noteLiveness_frame (stream : MirrorUpdates ρ) (up : Option Bool) (changed : Bool) :
    (stream.noteLiveness up changed).pending = stream.pending ∧
      (stream.noteLiveness up changed).sentSize = stream.sentSize := by
  unfold noteLiveness
  match up with
  | none => exact ⟨rfl, rfl⟩
  | some false | some true =>
    dsimp only
    split <;> exact ⟨rfl, rfl⟩

theorem noteLiveness_tracks {desktop : Desktop} {stream : MirrorUpdates ρ}
    {mirror : SurfaceMirror} {outageFrame : Option (Point → Option Rgba)}
    (tracks : Tracks desktop stream mirror outageFrame) (up : Option Bool) (changed : Bool) :
    Tracks desktop (stream.noteLiveness up changed) mirror outageFrame := by
  refine tracks.lower (noteLiveness_frame stream up changed).2 ?_ ?_
  · -- seeded and up afterwards: it was up before, as coming up calls for the whole surface
    intro seeded now
    unfold noteLiveness at seeded now
    match up with
    | none => exact ⟨seeded, now⟩
    | some false => cases now
    | some true =>
      dsimp only at seeded
      split at seeded
      · cases seeded
      · next steady =>
        rw [Bool.or_eq_true, not_or, Bool.not_eq_true', Bool.not_eq_false] at steady
        exact ⟨seeded, steady.2⟩
  · -- down and darkened afterwards: it was down before, as going down calls for a new frame
    intro now darkened
    unfold noteLiveness at darkened now
    match up with
    | none => exact ⟨now, darkened⟩
    | some true => cases now
    | some false =>
      dsimp only at darkened
      split at darkened
      · cases darkened
      · next down => exact ⟨Bool.eq_false_iff.mpr down, darkened⟩

theorem applyAll_pointer (rdpPointer : κ → Option ρ) (desktop : Desktop)
    (cursor : Option (CursorState κ)) :
    desktop.AcceptsAll (cursor.bind (pointerUpdate rdpPointer)).toList ∧
      desktop.applyAll (cursor.bind (pointerUpdate rdpPointer)).toList = desktop := by
  cases cursor with
  | none => exact ⟨trivial, rfl⟩
  | some state =>
    rw [bind_some, pointerUpdate]
    split
    · exact ⟨⟨trivial, trivial⟩, rfl⟩
    cases state.shape with
    | none => exact ⟨⟨trivial, trivial⟩, rfl⟩
    | some shape =>
      dsimp only
      cases rdpPointer shape with
      | none => exact ⟨trivial, rfl⟩
      | some pointer => exact ⟨⟨trivial, trivial⟩, rfl⟩

namespace RdpView

/-- What holds throughout a connection. -/
structure Sound (announced : DesktopSize) (view : RdpView κ ρ) : Prop where
  accepted : (Desktop.blank announced).AcceptsAll view.updates
  tracks : Tracks (view.picture announced) view.stream view.mirror view.outageFrame

section Steps

variable {announced : DesktopSize} {view view' : RdpView κ ρ} {sub : SubBitmap}
  {rdpPointer : κ → Option ρ}

section

variable (sound : Sound announced view)
include sound

omit sound in
theorem picture_push {updates : List (DisplayUpdate ρ)}
    (queued : view'.updates = view.updates ++ updates) :
    view'.picture announced = (view.picture announced).applyAll updates := by
  rw [picture, queued, applyAll, foldl_append]
  rfl

theorem Sound.push {updates : List (DisplayUpdate ρ)}
    (queued : view'.updates = view.updates ++ updates)
    (accepted : (view.picture announced).AcceptsAll updates)
    (tracks : Tracks ((view.picture announced).applyAll updates) view'.stream view'.mirror
      view'.outageFrame) : Sound announced view' where
  accepted := by
    rw [queued]
    exact acceptsAll_append.mpr ⟨sound.accepted, accepted⟩
  tracks := by
    rw [picture_push queued]
    exact tracks

theorem Sound.same (queued : view'.updates = view.updates)
    (tracks : Tracks (view.picture announced) view'.stream view'.mirror view'.outageFrame) :
    Sound announced view' := by
  have queued' : view'.updates = view.updates ++ [] := by rw [queued, append_nil]
  exact sound.push queued' trivial tracks

theorem Sound.look (session : SessionWatches κ) (locking : Bool) : Sound announced { view with
      stream := (view.stream.pollSession rdpPointer session).1
      session := (view.stream.pollSession rdpPointer session).2
      locking } := by
  have quiet := applyAll_pointer rdpPointer (view.picture announced)
    (readWatch (!view.stream.watches) session.cursor).1
  refine sound.push ?_ quiet.1 ?_
  · rw [updates, updates, append_assoc]
    exact congrArg _ (noteLiveness_frame _ _ _).1
  · rw [quiet.2]
    refine noteLiveness_tracks ?_ _ _
    exact { sound.tracks with }

theorem Sound.poll (cuts : CutsOut sub) :
    (view.pollLocked sub).Ensures fun view' => Sound announced view' ∧ Polled announced view' := by
  rw [pollLocked]
  cases up : view.stream.spiceUp with
  | true =>
    refine (pollMirror_ensures cuts view.graceOver sound.tracks up).bind fun result polls => ?_
    obtain ⟨stream, mirror⟩ := result
    obtain ⟨up', more, queued, accepted, tracks, shown⟩ := polls
    have queued' : ({ view with stream, mirror, locking := false } : RdpView κ ρ).updates =
        view.updates ++ more := by
      rw [updates, queued, updates, append_assoc]
    refine ⟨sound.push queued' accepted tracks, fun _ surface known sized => ?_, fun down => ?_⟩
    · rw [tracks.only.primarySurface] at known
      rw [picture_push queued'] at sized ⊢
      exact shown surface known sized
    · exact absurd (up'.symm.trans down) nofun
  | false =>
    refine (pollOutage_ensures view.graceOver sound.tracks up).bind fun stream polls => ?_
    obtain ⟨down, more, queued, accepted, tracks⟩ := polls
    let outageFrame := if stream.darkened && !view.stream.darkened then
        view.mirror.primarySurface.map halfBright
      else
        view.outageFrame
    have queued' : ({ view with stream, outageFrame, locking := false } : RdpView κ ρ).updates =
        view.updates ++ more := by
      rw [updates, queued, updates, append_assoc]
    refine ⟨sound.push queued' accepted tracks, fun up' => ?_, fun _ darkened => ?_⟩
    · exact absurd (down.symm.trans up') nofun
    · rw [picture_push queued']
      exact tracks.dark down darkened

theorem Sound.step (cuts : CutsOut sub) {label : RdpViewStep κ}
    (stepped : view.step sub rdpPointer label = some view') : Sound announced view' := by
  cases label with
  | event event =>
    obtain ⟨primary, stepped⟩ := ite_none_right_eq_some.mp stepped
    obtain ⟨result, applied, rfl⟩ := map_eq_some_iff.mp stepped
    have evolved := (SurfaceMirror.applyEvent_evolves sound.tracks.only primary).of_eq_ok
      (toOption_eq_some.mp applied)
    exact sound.same rfl (sound.tracks.evolves evolved)
  | liveness up | cursor state | graceEnds | slot slotFilled =>
    cases stepped
    exact sound.same rfl sound.tracks
  | handOut =>
    simp only [RdpView.step] at stepped
    split at stepped
    · next update pending free queue =>
      cases stepped
      refine sound.same ?_ { sound.tracks with }
      rw [updates, updates, queue, append_assoc]
      rfl
    · cases stepped
  | look =>
    obtain ⟨-, stepped⟩ := ite_none_left_eq_some.mp stepped
    split at stepped
    · cases stepped
      exact sound.look view.session true
    · cases stepped
      exact sound.same rfl (sound.tracks.lower rfl nofun fun down now => ⟨down, now⟩)
  | poll =>
    obtain ⟨-, stepped⟩ := ite_none_right_eq_some.mp stepped
    exact ((sound.poll cuts).of_eq_ok (toOption_eq_some.mp stepped)).1
  | drop =>
    cases stepped
    exact sound.same rfl sound.tracks

end

/-- A client shows the surface after every poll of a session that is up, if that has its size, and
the darkened surface during an outage.  Every bitmap lies inside the desktop, and the first covers
it. -/
theorem picture_converges (cuts : CutsOut sub) (rdpPointer : κ → Option ρ)
    (announced : DesktopSize) (held : Bool) {mirror : SurfaceMirror} (only : mirror.OnlyPrimary)
    (session : SessionWatches κ) (graceOver slotFilled : Bool) {labels : List (RdpViewStep κ)}
    {final : RdpView κ ρ} (reached : run (step sub rdpPointer)
      (opened announced held mirror session graceOver slotFilled) labels = some final) :
    (blank announced).AcceptsAll final.updates ∧
    (final.locking = true → ∃ polled, final.step sub rdpPointer .poll = some polled ∧
      Polled announced polled) ∧ ∀ event : DrawEvent, event.key = none ∨ event.key = some ⟨0, 0⟩ →
      (final.step sub rdpPointer (.event event)).isSome := by
  have sound : Sound announced final := by
    refine run_keeps (fun _ _ _ sound stepped => sound.step cuts stepped) ?_ reached
    exact ⟨trivial, only, rfl, fun _ _ => rfl, nofun, nofun, nofun⟩
  refine ⟨sound.accepted, fun locking => ?_, fun event primary => ?_⟩
  · obtain ⟨polled, returned, -, shown⟩ := (sound.poll cuts).returns
    refine ⟨polled, ?_, shown⟩
    simp only [step, locking, if_true, returned, Outcome.toOption]
  · obtain ⟨result, applied, -⟩ :=
      (SurfaceMirror.applyEvent_evolves sound.tracks.only primary).returns
    simp only [step, primary, if_true, applied, Outcome.toOption, map_some,
      isSome_some]

end Steps

/-- The whole surface is sent, and one of its pixels is painted before the next poll. -/
def pixelRun : List (RdpViewStep Unit) :=
  [.event (.surfaceCreated ⟨0, 0⟩ 3 2), .look, .poll, .handOut, .handOut, .look,
    .event (.fillRect ⟨0, 0⟩ ⟨0, 0, 1, 1⟩ ⟨255, 0, 0, 255⟩ [])]

def liveSession : SessionWatches Unit := ⟨⟨⟨none, true⟩, false⟩, ⟨true, false⟩⟩

theorem pixelRun_converges : ∃ final polled : RdpView Unit Unit,
    run (step viewBitmap some) (opened ⟨3, 2⟩ true .new liveSession false true) pixelRun =
      some final ∧ final.step viewBitmap some .poll = some polled ∧ Polled ⟨3, 2⟩ polled := by
  have reached : run (step viewBitmap some)
      (opened ⟨3, 2⟩ true .new liveSession false true : RdpView Unit Unit) pixelRun = some _ := rfl
  obtain ⟨-, polls, -⟩ := picture_converges viewBitmap_cutsOut some ⟨3, 2⟩ true
    (fun _ _ => rfl) liveSession false true reached
  obtain ⟨polled, stepped, shown⟩ := polls rfl
  exact ⟨_, polled, reached, stepped, shown⟩

end RdpView

end Ryll
