import Ryll.Foundation.Bytes

/-!
# The mux protocol of the WebDAV channel

Several HTTP connections share one byte stream.  Each chunk of a connection travels in a frame with
the number of its client and its own size; an empty frame closes the connection.
-/

namespace Ryll

open List

def muxHeaderSize : Nat := 10

def maxMuxSize : Nat := 2 ^ 16 - 1

/-- A frame of a connection. -/
structure MuxFrame where
  clientId : Int64
  /-- Its data; none closes the connection. -/
  data : Bytes

namespace MuxFrame

def bytes (frame : MuxFrame) : Bytes :=
  toLittleEndian 8 frame.clientId.toUInt64.toNat ++ toLittleEndian 2 frame.data.length ++ frame.data

/-- The size field can hold the length. -/
def Fits (frame : MuxFrame) : Prop := frame.data.length ≤ maxMuxSize

instance (frame : MuxFrame) : Decidable frame.Fits := inferInstanceAs (Decidable (_ ≤ _))

end MuxFrame

def encodeMuxFrame {ε : Type} (clientId : Int64) (data : Bytes) : Outcome ε Bytes :=
  if data.length ≤ maxMuxSize then .ok (MuxFrame.bytes ⟨clientId, data⟩) else .fault .assertion

/-! ## Taking frames apart -/

/-- Bytes received and not yet recognised as frames. -/
structure MuxDemuxer where
  buf : Bytes

namespace MuxDemuxer

def new : MuxDemuxer := ⟨[]⟩

def feed (demuxer : MuxDemuxer) (data : Bytes) : MuxDemuxer := ⟨demuxer.buf ++ data⟩

def nextFrame (demuxer : MuxDemuxer) : Option (MuxFrame × MuxDemuxer) :=
  if demuxer.buf.length < muxHeaderSize then none
  else
    let clientId := (UInt64.ofNat (littleEndian (demuxer.buf.take 8))).toInt64
    let dataSize := littleEndian ((demuxer.buf.drop 8).take 2)
    let totalSize := muxHeaderSize + dataSize
    if demuxer.buf.length < totalSize then none
    else
      some (⟨clientId, (demuxer.buf.drop muxHeaderSize).take dataSize⟩,
        ⟨demuxer.buf.drop totalSize⟩)

def takeFrames : Nat → MuxDemuxer → List MuxFrame × MuxDemuxer
  | 0, demuxer => ([], demuxer)
  | rounds + 1, demuxer =>
    match demuxer.nextFrame with
    | none => ([], demuxer)
    | some (frame, demuxer) =>
      let (frames, demuxer) := takeFrames rounds demuxer
      (frame :: frames, demuxer)

def frames (demuxer : MuxDemuxer) : List MuxFrame × MuxDemuxer :=
  takeFrames demuxer.buf.length demuxer

end MuxDemuxer

/-! ## Round trip -/

theorem MuxFrame.length_bytes (frame : MuxFrame) :
    frame.bytes.length = muxHeaderSize + frame.data.length := by
  simp only [bytes, muxHeaderSize, length_append, length_toLittleEndian]

open MuxFrame

namespace MuxDemuxer

theorem nextFrame_bytes {frame : MuxFrame} (fits : frame.Fits) (rest : Bytes) :
    nextFrame ⟨frame.bytes ++ rest⟩ = some (frame, ⟨rest⟩) := by
  obtain ⟨clientId, data⟩ := frame
  have long := length_bytes ⟨clientId, data⟩
  have id_front : (bytes ⟨clientId, data⟩ ++ rest).take 8 =
      toLittleEndian 8 clientId.toUInt64.toNat := by
    simp [bytes]
  have size_front : ((bytes ⟨clientId, data⟩ ++ rest).drop 8).take 2 =
      toLittleEndian 2 data.length := by
    simp [bytes]
  have behind : (bytes ⟨clientId, data⟩ ++ rest).drop muxHeaderSize = data ++ rest := by
    simp [bytes, muxHeaderSize, drop_append, drop_of_length_le]
  have id_read :
      littleEndian (toLittleEndian 8 clientId.toUInt64.toNat) = clientId.toUInt64.toNat :=
    littleEndian_toLittleEndian clientId.toUInt64.toNat_lt
  have size_read : littleEndian (toLittleEndian 2 data.length) = data.length :=
    littleEndian_toLittleEndian (Nat.lt_succ_of_le fits)
  have whole : muxHeaderSize + data.length ≤ (bytes ⟨clientId, data⟩ ++ rest).length := by
    rw [length_append, long]
    exact Nat.le_add_right _ _
  have end_of_frame : (bytes ⟨clientId, data⟩ ++ rest).drop (muxHeaderSize + data.length) =
      rest := by
    rw [← drop_drop, behind, drop_left]
  unfold nextFrame
  simp only [id_front, size_front, id_read, size_read, behind, end_of_frame]
  rw [if_neg (by omega), if_neg (by omega), take_left, UInt64.ofNat_toNat]
  rfl

variable {frames : List MuxFrame}

theorem takeFrames_flatMap (fit : ∀ frame ∈ frames, frame.Fits)
    {rounds : Nat} (enough : frames.length ≤ rounds) :
    takeFrames rounds ⟨frames.flatMap bytes⟩ = (frames, new) := by
  induction frames generalizing rounds with
  | nil => cases rounds <;> rfl
  | cons frame frames ih =>
    obtain ⟨rounds, rfl⟩ := Nat.exists_eq_add_of_le' (Nat.le_trans (Nat.le_add_left 1 _) enough)
    obtain ⟨fits, others⟩ := forall_mem_cons.mp fit
    rw [flatMap_cons, takeFrames, nextFrame_bytes fits]
    simp only
    rw [ih others (by simpa using enough)]

theorem frames_flatMap (fit : ∀ frame ∈ frames, frame.Fits) :
    (new.feed (frames.flatMap bytes)).frames = (frames, new) := by
  apply takeFrames_flatMap fit
  rw [feed, new, nil_append, length_flatMap]
  have long : ∀ size ∈ frames.map fun frame => frame.bytes.length, 1 ≤ size := by
    intro size listed
    obtain ⟨frame, -, rfl⟩ := mem_map.mp listed
    rw [length_bytes, muxHeaderSize]
    omega
  simpa using length_le_sum_of_one_le _ long

end MuxDemuxer

/-! ## Feeding and reading in any order -/

/-- A call of the demuxer. -/
inductive MuxCall
  | feed (data : Bytes)
  | nextFrame

def MuxCall.data : MuxCall → Bytes
  | feed data => data
  | nextFrame => []

namespace MuxDemuxer

/-- The frames that calls return, and the demultiplexer after them. -/
def serve (demuxer : MuxDemuxer) : List MuxCall → List MuxFrame × MuxDemuxer
  | [] => ([], demuxer)
  | .feed data :: calls => serve (demuxer.feed data) calls
  | .nextFrame :: calls =>
    match demuxer.nextFrame with
    | none => serve demuxer calls
    | some (frame, demuxer) =>
      let (frames, demuxer) := serve demuxer calls
      (frame :: frames, demuxer)

variable {demuxer demuxer' : MuxDemuxer} {frame : MuxFrame} {frames : List MuxFrame}

/-- Bytes behind a complete frame do not change it. -/
theorem nextFrame_feed (found : demuxer.nextFrame = some (frame, demuxer')) (more : Bytes) :
    (demuxer.feed more).nextFrame = some (frame, demuxer'.feed more) := by
  obtain ⟨header, found⟩ := Option.ite_none_left_eq_some.mp found
  obtain ⟨whole, found⟩ := Option.ite_none_left_eq_some.mp found
  rw [muxHeaderSize] at header whole
  cases found
  have id_front : (demuxer.buf ++ more).take 8 = demuxer.buf.take 8 :=
    take_append_of_le_length (by omega)
  have size_front : ((demuxer.buf ++ more).drop 8).take 2 = (demuxer.buf.drop 8).take 2 := by
    rw [drop_append_of_le_length (by omega), take_append_of_le_length (by rw [length_drop]; omega)]
  simp only [nextFrame, feed, id_front, size_front, muxHeaderSize]
  rw [if_neg (by rw [length_append]; omega), if_neg (by rw [length_append]; omega),
    drop_append_of_le_length (by omega), drop_append_of_le_length (by omega),
    take_append_of_le_length (by rw [length_drop]; omega)]

theorem nextFrame_iff (fit : ∀ frame ∈ frames, frame.Fits)
    (front : demuxer.buf <+: frames.flatMap bytes) :
    demuxer.nextFrame = some (frame, demuxer') ↔
      frames.head? = some frame ∧ demuxer.buf = frame.bytes ++ demuxer'.buf := by
  obtain ⟨buf⟩ := demuxer
  cases frames with
  | nil =>
    obtain rfl := prefix_nil.mp front
    exact iff_of_false nofun nofun
  | cons first frames =>
    have fits := fit first mem_cons_self
    rw [head?_cons, Option.some_inj]
    constructor
    · intro found
      obtain ⟨more, stream⟩ := front
      have returned := nextFrame_feed found more
      rw [feed, stream, flatMap_cons, nextFrame_bytes fits] at returned
      injection returned with returned
      injection returned with same behind
      have behind : frames.flatMap bytes = demuxer'.buf ++ more :=
        congrArg MuxDemuxer.buf behind
      rw [flatMap_cons, same, behind, ← append_assoc] at stream
      exact ⟨same, append_cancel_right stream⟩
    · rintro ⟨rfl, rfl⟩
      exact nextFrame_bytes fits _

theorem serve_split (calls : List MuxCall) (fit : ∀ frame ∈ frames, frame.Fits)
    (fed : demuxer.buf ++ calls.flatMap MuxCall.data <+: frames.flatMap bytes) :
    ∃ rest, frames = (demuxer.serve calls).1 ++ rest ∧ demuxer.buf ++ calls.flatMap MuxCall.data =
      (demuxer.serve calls).1.flatMap bytes ++ (demuxer.serve calls).2.buf := by
  induction calls generalizing demuxer frames with
  | nil => exact ⟨frames, rfl, append_nil _⟩
  | cons call calls ih =>
    cases call with
    | feed data =>
      rw [flatMap_cons, ← append_assoc] at fed ⊢
      exact ih fit fed
    | nextFrame =>
      change demuxer.buf ++ calls.flatMap MuxCall.data <+: _ at fed
      rw [serve]
      cases taken : demuxer.nextFrame with
      | none => exact ih fit fed
      | some result =>
        obtain ⟨frame, demuxer'⟩ := result
        obtain ⟨head, split⟩ :=
          (nextFrame_iff fit ((prefix_append _ _).trans fed)).mp taken
        obtain ⟨frames, rfl⟩ := head?_eq_some_iff.mp head
        rw [split, append_assoc, flatMap_cons, prefix_append_right_inj] at fed
        obtain ⟨rest, returned, same⟩ := ih (forall_mem_cons.mp fit).2 fed
        refine ⟨rest, congrArg _ returned, ?_⟩
        change demuxer.buf ++ calls.flatMap MuxCall.data = (frame :: _).flatMap _ ++ _
        rw [split, append_assoc, same, flatMap_cons, append_assoc]

/-- However frames are cut when they are fed, exactly those fed in full are returned, in order. -/
theorem frames_returned_when_fed (calls : List MuxCall) (fit : ∀ frame ∈ frames, frame.Fits)
    (fed : calls.flatMap MuxCall.data <+: frames.flatMap bytes) :
    (∀ frame ∈ frames, encodeMuxFrame frame.clientId frame.data =
      (.ok frame.bytes : Outcome Empty _)) ∧
    ∃ rest, frames = (new.serve calls).1 ++ rest ∧ calls.flatMap MuxCall.data =
        (new.serve calls).1.flatMap bytes ++ (new.serve calls).2.buf ∧
      ∀ frame, (∃ demuxer, (new.serve calls).2.nextFrame = some (frame, demuxer)) ↔
        rest.head? = some frame ∧
          ((new.serve calls).1 ++ [frame]).flatMap bytes <+: calls.flatMap MuxCall.data := by
  refine ⟨fun frame listed => if_pos (fit frame listed), ?_⟩
  obtain ⟨rest, returned, same⟩ := serve_split calls fit
    (show new.buf ++ calls.flatMap MuxCall.data <+: _ from fed)
  change calls.flatMap MuxCall.data = _ at same
  refine ⟨rest, returned, same, fun frame => ?_⟩
  have front : (new.serve calls).2.buf <+: rest.flatMap bytes := by
    rw [same, returned, flatMap_append, prefix_append_right_inj] at fed
    exact fed
  have fit_rest : ∀ frame ∈ rest, frame.Fits := fun frame listed =>
    fit frame (by rw [returned]; exact mem_append_right _ listed)
  rw [same, flatMap_append, flatMap_singleton, prefix_append_right_inj]
  simp only [nextFrame_iff fit_rest front, exists_and_left]
  refine and_congr_right fun _ => ⟨fun ⟨demuxer, split⟩ => ⟨demuxer.buf, split.symm⟩, ?_⟩
  exact fun ⟨later, split⟩ => ⟨⟨later⟩, split.symm⟩

/-- A frame cut inside its header, and the empty frame that closes its connection. -/
def cutFrames : List MuxCall :=
  [.feed [5, 0, 0], .nextFrame, .feed [0, 0, 0, 0, 0, 1, 0, 7, 5, 0, 0, 0, 0, 0, 0, 0], .nextFrame,
    .feed [0, 0], .nextFrame]

theorem cut_frame_returned : (new.serve cutFrames).1 = [⟨5, [7]⟩, ⟨5, []⟩] := by
  obtain ⟨-, rest, returned, -⟩ :=
    @frames_returned_when_fed [⟨5, [7]⟩, ⟨5, []⟩] cutFrames (by decide) (by decide)
  have none_left : rest = [] := by
    have count := congrArg length returned
    rw [length_append, (by decide : (new.serve cutFrames).1.length = 2)] at count
    exact length_eq_zero_iff.mp (Nat.left_eq_add.mp count)
  rw [returned, none_left, append_nil]

end MuxDemuxer

end Ryll
