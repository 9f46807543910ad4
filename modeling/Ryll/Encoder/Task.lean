import Ryll.Display.Mirror
import Ryll.Encoder.H264
import Ryll.Foundation.Runs

/-!
# The encoder task of a web viewer

A task polls the primary surface of the mirror.  When that is dirty it copies the pixels and clears
the flag, and then encodes the copy and sends what openh264 made of it.  Draw events are applied to
the mirror at any time, and the flag is cleared before it is known whether the frame can be encoded.
-/

namespace Ryll

open Option

/-- A copy of a surface. -/
structure FrameRef where
  width : Nat
  height : Nat
  rgba : Bytes
  timestampUs : Nat
  sized : rgba.length = width * height * 4

/-- A frame has the pixels of a surface. -/
structure FrameRef.Shows (frame : FrameRef) (surface : DisplaySurface) : Prop where
  width : frame.width = surface.width
  height : frame.height = surface.height
  rgba : frame.rgba = surface.pixels.items

/-- The source of the frames, with the buffer it copies pixels to. -/
structure RealFrameSource where
  rgbaBuf : Bytes
  lastDimensions : Option (Nat × Nat)
  /-- The buffer is resized when the dimensions change. -/
  sized : ∀ width height, lastDimensions = some (width, height) →
    rgbaBuf.length = width * height * 4

/-- What a poll meets: whether the lock is free, where iterating begins, and the time. -/
structure Poll where
  free : Bool
  first : Nat
  elapsed : Nat

namespace RealFrameSource

def new : RealFrameSource := ⟨[], none, nofun⟩

def resizedBuf (source : RealFrameSource) (width height : Nat) : Bytes :=
  if source.lastDimensions ≠ some (width, height) then
    let neededLen := width * height * 4
    source.rgbaBuf.take neededLen ++ List.replicate (neededLen - source.rgbaBuf.length) 0
  else
    source.rgbaBuf

def nextFrame (source : RealFrameSource) (mirror : SurfaceMirror) (poll : Poll) :
    Outcome Empty (Option FrameRef × RealFrameSource × SurfaceMirror) :=
  if poll.free then
    match mirror.primaryEntry poll.first with
    | none => return (none, source, mirror)
    | some (key, surface) =>
      let (dirty, seen) := surface.consumeDirty
      let mirror : SurfaceMirror := ⟨mirror.surfaces.insert key seen⟩
      if ¬dirty then
        return (none, source, mirror)
      else
        let width := seen.width
        let height := seen.height
        let neededLen := width * height * 4
        let pixels := seen.pixels.items
        if matching : pixels.length = neededLen then
          -- The copy is of one whole slice to another, which have to be of one length.
          if (source.resizedBuf width height).length = pixels.length then
            return (some ⟨width, height, pixels, poll.elapsed, matching⟩,
              ⟨pixels, some (width, height), fun _ _ same => by
                obtain ⟨rfl, rfl⟩ := Prod.mk.inj (some.inj same)
                exact matching⟩, mirror)
          else
            .fault .bounds
        else
          return (none, source, mirror)
  else
    return (none, source, mirror)

end RealFrameSource

/-- A control message to the task. -/
inductive EncoderControl
  | requestKeyframe
  | stop

def maxConsecutiveErrors : Nat := 30

/-- The state of the task. -/
structure EncoderTask where
  encoder : H264Encoder
  source : RealFrameSource
  fpsCap : Nat
  keyframePending : Bool
  consecutiveErrors : Nat
  taken : Option FrameRef
  ended : Option (Except EncoderError Unit)
  /-- The task does not start at a rate of zero. -/
  fps_pos : fpsCap ≠ 0

/-- What a tick meets: a receiver that is gone, control messages, lost senders, and the mirror. -/
structure Tick where
  closed : Bool
  control : List EncoderControl
  disconnected : Bool
  poll : Poll

/-- What encoding meets: whether an encoder can be built, its answer, and whether it is taken. -/
structure Encoding where
  opened : Bool
  openh264 : H264Encoder.Answer
  delivered : Bool

namespace EncoderTask

def drain (disconnected : Bool) : List EncoderControl → Bool → Option Bool
  | [], keyframePending => if disconnected then none else some keyframePending
  | .requestKeyframe :: rest, _ => drain disconnected rest true
  | .stop :: _, _ => none

def skip (task : EncoderTask) (reason : EncoderError) : EncoderTask :=
  let consecutiveErrors := task.consecutiveErrors + 1
  { task with
    consecutiveErrors
    taken := none
    ended := if consecutiveErrors ≥ maxConsecutiveErrors then some (.error reason) else none }

def fit (task : EncoderTask) (frame : FrameRef) (opened : Bool) : Except EncoderError EncoderTask :=
  if evenDimensions frame.width frame.height ≠ (task.encoder.width, task.encoder.height) then
    match H264Encoder.new frame.width frame.height task.fpsCap opened with
    | .ok encoder => .ok { task with encoder, keyframePending := true, consecutiveErrors := 0 }
    | .error reason => .error reason
  else
    .ok task

end EncoderTask

/-- The task, the mirror and what was sent. -/
structure EncoderWorld where
  mirror : SurfaceMirror
  task : EncoderTask
  sent : List (FrameRef × EncodedFrame)
  /-- The surface a frame was last taken from (history). -/
  looked : Option SurfaceKey

/-- What can happen. -/
inductive EncoderStep
  | draw (event : DrawEvent)
  | lagged
  | tick (tick : Tick)
  | encode (encoding : Encoding)

open EncoderWorld

namespace EncoderWorld

/-- The task waits for a tick. -/
def Idle (world : EncoderWorld) : Prop := world.task.ended = none ∧ world.task.taken = none

instance (world : EncoderWorld) : Decidable world.Idle :=
  decidable_of_iff (world.task.ended.isNone ∧ world.task.taken.isNone)
    (and_congr isNone_iff_eq_none isNone_iff_eq_none)

variable (world : EncoderWorld)

def tick (tick : Tick) : Outcome Empty EncoderWorld :=
  if tick.closed then
    return { world with task := { world.task with ended := some (.ok ()) } }
  else
    match EncoderTask.drain tick.disconnected tick.control world.task.keyframePending with
    | none => return { world with task := { world.task with ended := some (.ok ()) } }
    | some keyframePending => do
      let (taken, source, mirror) ← world.task.source.nextFrame world.mirror tick.poll
      return { world with
        mirror
        task := { world.task with keyframePending, source, taken }
        looked := if taken.isSome then (world.mirror.primaryEntry tick.poll.first).map Prod.fst
          else world.looked }

def encode (frame : FrameRef) (encoding : Encoding) : Outcome Empty EncoderWorld :=
  match world.task.fit frame encoding.opened with
  | .error reason => return { world with task := world.task.skip reason }
  | .ok task =>
    match task.encoder.encodeCropped frame.rgba frame.width frame.height task.keyframePending
      encoding.openh264 with
    | .fault cause => .fault cause
    | .error reason => return { world with task := task.skip reason }
    | .ok encoded =>
      let keyframePending := if task.keyframePending then false else task.keyframePending
      let task := { task with consecutiveErrors := 0, keyframePending, taken := none }
      if encoding.delivered then
        return { world with
          task
          sent := world.sent ++ [(frame, { encoded with timestampUs := frame.timestampUs })] }
      else
        return { world with task := { task with ended := some (.ok ()) } }

def step : EncoderStep → Option EncoderWorld
  | .draw event => do
    let (_, mirror) ← (world.mirror.applyEvent event).toOption
    return { world with mirror }
  | .lagged => do
    let mirror ← world.mirror.markAllDamaged.toOption
    return { world with mirror }
  | .tick tick => if world.Idle then (world.tick tick).toOption else none
  | .encode encoding =>
    match world.task.ended, world.task.taken with
    | none, some frame => (world.encode frame encoding).toOption
    | _, _ => none

def lastShown : Option FrameRef :=
  ((world.sent.filter fun entry => entry.2.nalUnits ≠ []).getLast?).map Prod.fst

def start (mirror : SurfaceMirror) (encoder : H264Encoder) (fpsCap : Nat) (fps_pos : fpsCap ≠ 0) :
    EncoderWorld where
  mirror
  task := {
    encoder
    source := .new
    fpsCap
    keyframePending := false
    consecutiveErrors := 0
    taken := none
    ended := none
    fps_pos }
  sent := []
  looked := none

/-- A tick that finds nothing dirty on a primary surface finds its picture at the viewer. -/
def Current : EncoderStep → Prop
  | .tick tick => world.Idle → tick.poll.free = true → ∀ key surface,
      world.mirror.primaryEntry tick.poll.first = some (key, surface) → surface.dirty = false →
      ∃ frame, world.lastShown = some frame ∧ frame.Shows surface
  | _ => True

/-- A frame taken is encoded to a NAL unit, and a tick looks at the surface last taken, or a dirty
one. -/
def Conveyed : EncoderStep → Prop
  | .tick tick =>
    match world.mirror.primaryEntry tick.poll.first with
    | some (key, surface) =>
      tick.poll.free = true → surface.dirty = true ∨ world.looked = some key
    | none => True
  | .encode encoding =>
    match world.task.taken with
    | some frame =>
      (evenDimensions frame.width frame.height ≠
          (world.task.encoder.width, world.task.encoder.height) →
        EncodableSize frame.width frame.height ∧ encoding.opened = true) ∧
      ∀ force, ∃ encoded, encoding.openh264 force = .ok (some encoded) ∧ HoldsNal encoded.data
    | none => True
  | _ => True

/-! ## Looking for a frame -/

theorem length_resizedBuf (source : RealFrameSource) (width height : Nat) :
    (source.resizedBuf width height).length = width * height * 4 := by
  unfold RealFrameSource.resizedBuf
  split
  · simp only [List.length_append, List.length_take, List.length_replicate]
    omega
  · rename_i kept
    exact source.sized _ _ (not_not.mp kept)

/-- A frame of the dirty primary surface, which is clean then, or no frame and the same picture. -/
inductive Looked (mirror : SurfaceMirror) (poll : Poll) :
    Option FrameRef × RealFrameSource × SurfaceMirror → Prop
  | nothing (source : RealFrameSource) (mirror' : SurfaceMirror) (marks : mirror.Marks mirror') :
      Looked mirror poll (none, source, mirror')
  | taken (frame : FrameRef) (source : RealFrameSource) (mirror' : SurfaceMirror)
      (key : SurfaceKey) (surface : DisplaySurface)
      (entry : mirror.primaryEntry poll.first = some (key, surface))
      (shows : ∀ surface', mirror'.surfaces.lookup key = some surface' → frame.Shows surface') :
      Looked mirror poll (some frame, source, mirror')

theorem nextFrame_looked (source : RealFrameSource) (mirror : SurfaceMirror) (poll : Poll) :
    (source.nextFrame mirror poll).Ensures (Looked mirror poll) := by
  unfold RealFrameSource.nextFrame
  split
  swap
  · exact .nothing source mirror (.refl mirror)
  split
  · exact .nothing source mirror (.refl mirror)
  rename_i key surface entry
  have known := SurfaceMirror.primaryEntry_lookup entry
  dsimp only [DisplaySurface.consumeDirty]
  split
  · rename_i clean
    refine .nothing source _ (SurfaceMirror.insert_marks fun _ => ?_)
    exact ⟨surface, known, Bool.eq_false_iff.mpr clean, rfl, rfl, rfl⟩
  split
  · rename_i matching
    rw [if_pos ((length_resizedBuf source _ _).trans matching.symm)]
    refine .taken _ _ _ key surface entry fun surface' known' => ?_
    rw [AList.lookup_insert] at known'
    cases known'
    exact ⟨rfl, rfl, rfl⟩
  · rename_i mismatch
    exact absurd surface.pixels.sized mismatch

/-! ## The picture of a viewer -/

def latest : Option FrameRef := world.task.taken.or world.lastShown

/-- While the task runs, the surface last taken is dirty or shown by the newest frame. -/
def Synced : Prop :=
  world.task.ended = none → ∀ key surface, world.looked = some key →
    world.mirror.surfaces.lookup key = some surface → surface.dirty = false →
    ∃ frame, world.latest = some frame ∧ frame.Shows surface

variable {world : EncoderWorld}

theorem Synced.marks (synced : world.Synced) {mirror : SurfaceMirror}
    (marks : world.mirror.Marks mirror) : Synced { world with mirror } := by
  intro running key surface looked known clean
  obtain ⟨earlier, known', clean', picture⟩ := marks key surface known clean
  obtain ⟨frame, newest, shows⟩ := synced running key earlier looked known' clean'
  refine ⟨frame, newest, ?_, ?_, ?_⟩
  · exact shows.width.trans picture.width.symm
  · exact shows.height.trans picture.height.symm
  · exact shows.rgba.trans picture.pixels.symm

theorem Synced.tick (synced : world.Synced) (idle : world.Idle) (tick : Tick) :
    (world.tick tick).Ensures Synced := by
  unfold EncoderWorld.tick
  split
  · exact nofun
  split
  · exact nofun
  refine (nextFrame_looked _ world.mirror tick.poll).bind ?_
  rintro _ (⟨source, mirror, marks⟩ | ⟨frame, source, mirror, key, surface, entry, shows⟩)
  · intro running key surface looked known clean
    obtain ⟨frame, newest, shows⟩ := synced.marks marks running key surface looked known clean
    refine ⟨frame, ?_, shows⟩
    rw [latest, idle.2] at newest
    exact newest
  · intro running key' surface' looked known clean
    obtain rfl : key = key' := by
      simpa [entry] using looked
    exact ⟨frame, rfl, shows surface' known⟩

variable {frame : FrameRef}

theorem lastShown_append {encoded : EncodedFrame}
    (filled : encoded.nalUnits ≠ []) :
    lastShown { world with sent := world.sent ++ [(frame, encoded)] } = some frame := by
  simp [lastShown, List.filter_append, filled]

theorem fit_ok {task : EncoderTask} {opened : Bool}
    (buildable : evenDimensions frame.width frame.height ≠
        (task.encoder.width, task.encoder.height) →
      EncodableSize frame.width frame.height ∧ opened = true) :
    ∃ task', task.fit frame opened = .ok task' ∧
      evenDimensions frame.width frame.height = (task'.encoder.width, task'.encoder.height) := by
  unfold EncoderTask.fit
  split
  · rename_i resized
    obtain ⟨size, rfl⟩ := buildable resized
    obtain ⟨encoder, built, rounds⟩ := H264Encoder.new_eq_ok size task.fps_pos
    rw [built]
    exact ⟨_, rfl, rounds⟩
  · rename_i same
    exact ⟨task, rfl, not_not.mp same⟩

theorem Synced.encode (synced : world.Synced) (running : world.task.ended = none)
    (taken : world.task.taken = some frame) {encoding : Encoding}
    (conveyed : world.Conveyed (.encode encoding)) :
    (world.encode frame encoding).Ensures Synced := by
  rw [Conveyed, taken] at conveyed
  obtain ⟨buildable, answers⟩ := conveyed
  obtain ⟨task, fitted, rounds⟩ := fit_ok buildable
  obtain ⟨encoded, answered, holds⟩ := answers task.keyframePending
  obtain ⟨result, emitted, filled⟩ :=
    H264Encoder.encodeCropped_emits rounds frame.sized answered holds
  simp only [EncoderWorld.encode, fitted, emitted]
  split
  · intro _ key surface looked known clean
    obtain ⟨newest, latest, shows⟩ := synced running key surface looked known clean
    rw [EncoderWorld.latest, taken] at latest
    cases latest
    exact ⟨frame, lastShown_append filled, shows⟩
  · exact nofun

theorem Synced.step {world' : EncoderWorld} (synced : world.Synced) {label : EncoderStep}
    (conveyed : world.Conveyed label) (stepped : world.step label = some world') :
    world'.Synced := by
  cases label with
  | draw event =>
    obtain ⟨⟨outcome, mirror⟩, applied, same⟩ := bind_eq_some_iff.mp stepped
    cases same
    have marks := (world.mirror.applyEvent_marks event).of_eq_ok
      (toOption_eq_some.mp applied)
    exact synced.marks marks
  | lagged =>
    obtain ⟨mirror, marked, same⟩ := bind_eq_some_iff.mp stepped
    cases same
    have marks := world.mirror.markAllDamaged_marks.of_eq_ok (toOption_eq_some.mp marked)
    exact synced.marks marks
  | tick tick =>
    obtain ⟨idle, stepped⟩ := ite_none_right_eq_some.mp stepped
    exact (synced.tick idle tick).of_eq_ok (toOption_eq_some.mp stepped)
  | encode encoding =>
    rw [EncoderWorld.step] at stepped
    split at stepped
    · rename_i frame running taken
      exact (synced.encode running taken conveyed).of_eq_ok (toOption_eq_some.mp stepped)
    · nomatch stepped

theorem Synced.current (synced : world.Synced) {label : EncoderStep}
    (conveyed : world.Conveyed label) : world.Current label := by
  cases label with
  | tick tick =>
    intro idle free key surface entry clean
    rw [Conveyed, entry] at conveyed
    have looked : world.looked = some key := by
      refine (conveyed free).resolve_left fun dirty => ?_
      rw [clean] at dirty
      nomatch dirty
    have known := SurfaceMirror.primaryEntry_lookup entry
    obtain ⟨frame, newest, shows⟩ := synced idle.1 key surface looked known clean
    rw [latest, idle.2] at newest
    exact ⟨frame, newest, shows⟩
  | _ => trivial

/-- If every frame taken is encoded, and the task never turns to a clean surface, a tick that finds
nothing dirty finds a viewer that was last sent a picture of the surface. -/
theorem viewer_current (mirror : SurfaceMirror) (encoder : H264Encoder) (fpsCap : Nat)
    (fps_pos : fpsCap ≠ 0) (steps : List EncoderStep)
    (conveyed : Meets step Conveyed (start mirror encoder fpsCap fps_pos) steps) :
    Meets step Current (start mirror encoder fpsCap fps_pos) steps := by
  refine conveyed.of_invariant Synced ?_ ?_ ?_
  · intro world label synced allowed
    exact synced.current allowed
  · intro world label world' synced allowed stepped
    exact synced.step allowed stepped
  · exact nofun

def smallEncoder : H264Encoder := ⟨2, 2, by decide, by decide, by decide, by decide⟩

def early : EncoderWorld := start .new smallEncoder 30 (by decide)

def freeTick : EncoderStep := .tick ⟨false, [], false, ⟨true, 0, 0⟩⟩

def oneNal : H264Encoder.Answer := fun _ => .ok (some ⟨[0, 0, 0, 1, 101], true⟩)

def whitened (answer : H264Encoder.Answer) : List EncoderStep :=
  [.draw (.surfaceCreated ⟨0, 0⟩ 2 2), freeTick, .encode ⟨true, oneNal, true⟩,
    .draw (.fillRect ⟨0, 0⟩ ⟨0, 0, 2, 2⟩ ⟨255, 255, 255, 255⟩ []), freeTick,
    .encode ⟨true, answer, true⟩]

/-- When openh264 encodes the white frame, the next tick finds the viewer up to date. -/
theorem whitened_current : Meets step Current early (whitened oneNal ++ [freeTick]) := by
  have encodes : ∀ force, ∃ encoded, oneNal force = .ok (some encoded) ∧ HoldsNal encoded.data :=
    fun _ => ⟨_, rfl, [[101]], rfl, [101], by simp⟩
  refine viewer_current .new smallEncoder 30 (by decide) _ ?_
  refine .cons trivial rfl (.cons ?_ rfl (.cons ?_ rfl (.cons trivial rfl (.cons ?_ rfl
    (.cons ?_ rfl (.cons ?_ rfl trivial))))))
  · exact fun _ => .inl rfl
  · exact ⟨fun resized => absurd rfl resized, encodes⟩
  · exact fun _ => .inl rfl
  · exact ⟨fun resized => absurd rfl resized, encodes⟩
  · exact fun _ => .inr rfl

/-- The task is idle, nothing is dirty, and the viewer was last sent another picture. -/
def Stalled (world : EncoderWorld) : Prop :=
  world.Idle ∧ ∃ key surface, world.mirror.primaryEntry 0 = some (key, surface) ∧
    surface.dirty = false ∧ ∃ frame, world.lastShown = some frame ∧ ¬frame.Shows surface

/-- When openh264 fails on the white frame, or skips it, the viewer keeps the black one. -/
theorem failed_frame_stalls :
    (∃ world, run step early (whitened fun _ => .error ()) = some world ∧ world.Stalled) ∧
    (∃ world, run step early (whitened fun _ => .ok none) = some world ∧ world.Stalled) := by
  constructor
  · refine ⟨_, rfl, ⟨rfl, rfl⟩, _, _, rfl, rfl, _, rfl, fun shows => ?_⟩
    exact absurd shows.rgba (by decide)
  · refine ⟨_, rfl, ⟨rfl, rfl⟩, _, _, rfl, rfl, _, rfl, fun shows => ?_⟩
    exact absurd shows.rgba (by decide)

end EncoderWorld

end Ryll
