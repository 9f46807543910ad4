import Ryll.Compression.LzBlocks

/-!
# Compressed streams as sequences of segments

A compressed stream is a sequence of segments: literal pixels, references into the image being
drawn, and references into earlier images.  `drawSegments` gives a segment sequence its meaning
on the list of pixels drawn so far, and `loop_refines_drawSegments` carries that meaning to any
byte-level decoder whose rounds follow it.
-/

namespace Ryll

open List

variable {ε : Type}

/-- A part of a compressed stream. -/
inductive Segment
  /-- Pixels given in the stream itself. -/
  | literal (pixels : List Rgba)
  | selfMatch (length distance : Nat)
  | crossMatch (length imageDist pixelOffset : Nat)
  /-- A run length that leaves the range of the decoder's counter. -/
  | overlong

namespace Segment

def references : Segment → Nat
  | .crossMatch .. => 1
  | _ => 0

end Segment

/-- Where a decoder finds the pixels of other images. -/
structure Window where
  imageId : Nat
  /-- The pixels found by the given lookup of the decoder for the given image. -/
  resolve : Nat → Nat → Option (List Rgba)

namespace Window

/-- No other images, for streams without references to them. -/
def alone : Window := ⟨0, fun _ _ => none⟩

/-- The pixels that lookup `reference` finds for a match `imageDist` ids back. -/
def source (window : Window) (reference imageDist : Nat) : Option (List Rgba) :=
  window.resolve reference (wrappingSub 64 window.imageId imageDist)

end Window

def drawSegment (window : Window) (total reference : Nat) (pixels : List Rgba) :
    Segment → Outcome ε (List Rgba)
  | .literal drawn => .ok (pixels ++ drawn.take (total - pixels.length))
  | .selfMatch length distance => selfCopy total pixels distance length
  | .crossMatch length imageDist pixelOffset =>
    match window.source reference imageDist with
    | some found =>
      .ok (pixels ++ ((found.drop pixelOffset).take length).take (total - pixels.length))
    | none =>
      if 4 * pixels.length + 4 * length < 2 ^ 64 then
        .ok (pixels ++ List.replicate (min length (total - pixels.length)) Rgba.zero)
      else
        .fault .overflow
  | .overlong => .fault .overflow

def drawSegments (window : Window) (total : Nat) :
    List Segment → Nat → List Rgba → Outcome ε (List Rgba)
  | [], _, pixels => .ok pixels
  | segment :: segments, reference, pixels =>
    if pixels.length < total then
      drawSegment window total reference pixels segment >>=
        drawSegments window total segments (reference + segment.references)
    else
      .ok pixels

def segmentsOf (next : Bytes → Option (Segment × Bytes)) : Nat → Bytes → List Segment
  | 0, _ => []
  | fuel + 1, bytes =>
    match next bytes with
    | none => []
    | some (segment, rest) => segment :: segmentsOf next fuel rest

/-- The first segment of a stream and the rest, for a format that reads a reference this way. -/
def nextSegment (reference : UInt8 → Nat → Bytes → Option (Segment × Bytes)) :
    Bytes → Option (Segment × Bytes)
  | [] => none
  | ctrl :: rest =>
    if ctrl < lzMaxCopy then
      some (.literal (takeLiterals (ctrl.toNat + 1) rest).1, (takeLiterals (ctrl.toNat + 1) rest).2)
    else if (takeLength ctrl rest).1 < 2 ^ 64 then
      reference ctrl (takeLength ctrl rest).1 (takeLength ctrl rest).2
    else
      some (.overlong, (takeLength ctrl rest).2)

/-! ## Streams that are drawn without a fault -/

def drawnAfter (window : Window) (total reference drawn : Nat) : Segment → Nat
  | .literal pixels => drawn + min pixels.length (total - drawn)
  | .selfMatch length distance =>
    if distance ≤ drawn then drawn + min length (total - drawn) else drawn
  | .crossMatch length imageDist pixelOffset =>
    match window.source reference imageDist with
    | some found => drawn + min (min length (found.length - pixelOffset)) (total - drawn)
    | none => drawn + min length (total - drawn)
  | .overlong => drawn

/-- The condition under which a segment is drawn behind `drawn` pixels without a fault. -/
def SegmentSafe (window : Window) (reference drawn : Nat) : Segment → Prop
  | .literal _ => True
  | .selfMatch _ distance => distance = 1 ∨ distance ≠ drawn + 1
  | .crossMatch length imageDist _ =>
    (window.source reference imageDist).isSome ∨ 4 * drawn + 4 * length < 2 ^ 64
  | .overlong => False

/-- Every segment that is reached before the image is full is safe where it stands. -/
def SegmentsSafe (window : Window) (total : Nat) : List Segment → Nat → Nat → Prop
  | [], _, _ => True
  | segment :: segments, reference, drawn =>
    drawn < total → SegmentSafe window reference drawn segment ∧
      SegmentsSafe window total segments (reference + segment.references)
        (drawnAfter window total reference drawn segment)

variable {total reference : Nat} {pixels : List Rgba} {segments : List Segment}

theorem selfCopy_of_safe {distance : Nat} (positive : 0 < distance)
    (safe : distance = 1 ∨ distance ≠ pixels.length + 1) (length : Nat) :
    ∃ copied, (selfCopy total pixels distance length : Outcome ε (List Rgba)) = .ok copied ∧
      copied.length = if distance ≤ pixels.length then
        pixels.length + min length (total - pixels.length) else pixels.length := by
  rw [selfCopy]
  by_cases inside : distance ≤ pixels.length
  · rw [if_pos inside, if_pos inside]
    exact ⟨_, rfl, length_copyBack positive inside _⟩
  · rw [if_neg inside, if_neg inside, if_neg (by omega)]
    exact ⟨pixels, rfl, rfl⟩

theorem selfCopy_of_not_safe {distance : Nat}
    (notSafe : ¬ (distance = 1 ∨ distance ≠ pixels.length + 1)) (length : Nat) :
    (selfCopy total pixels distance length : Outcome ε (List Rgba)) = .fault .overflow := by
  rw [selfCopy, if_neg (by omega), if_pos (by omega)]

namespace Segment

/-- A reference that a format can carry. -/
def WellFormed : Segment → Prop
  | .selfMatch length distance => 0 < length ∧ 0 < distance ∧ distance ≤ 2 ^ 32
  | _ => True

end Segment

theorem segmentsOf_wellFormed {next : Bytes → Option (Segment × Bytes)}
    (wellFormed : ∀ bytes segment rest, next bytes = some (segment, rest) → segment.WellFormed)
    (fuel : Nat) (bytes : Bytes) :
    ∀ segment ∈ segmentsOf next fuel bytes, segment.WellFormed := by
  induction fuel generalizing bytes with
  | zero => simp [segmentsOf]
  | succ fuel ih =>
    intro segment member
    rw [segmentsOf] at member
    split at member
    · simp at member
    · rename_i first rest read
      rcases mem_cons.mp member with rfl | later
      · exact wellFormed _ _ _ read
      · exact ih rest segment later

variable {segment : Segment} {window : Window}

theorem nextSegment_spec {reference : UInt8 → Nat → Bytes → Option (Segment × Bytes)}
    (sound : ∀ ctrl length bytes segment rest, 0 < length →
      reference ctrl length bytes = some (segment, rest) → rest <:+ bytes ∧ segment.WellFormed)
    {bytes rest : Bytes} (read : nextSegment reference bytes = some (segment, rest)) :
    rest.length < bytes.length ∧ segment.WellFormed := by
  cases bytes with
  | nil => simp [nextSegment] at read
  | cons ctrl bytes =>
    rw [nextSegment] at read
    rw [length_cons, Nat.lt_succ_iff]
    split at read
    · simp only [Option.some.injEq, Prod.mk.injEq] at read
      obtain ⟨rfl, rfl⟩ := read
      exact ⟨(takeLiterals_suffix (ctrl.toNat + 1) bytes).length_le, trivial⟩
    rename_i notLiteral
    have shorter := takeLength_suffix ctrl bytes
    split at read
    · obtain ⟨suffix, wellFormed⟩ := sound _ _ _ _ _ (takeLength_pos notLiteral bytes) read
      exact ⟨(suffix.trans shorter).length_le, wellFormed⟩
    · simp only [Option.some.injEq, Prod.mk.injEq] at read
      obtain ⟨rfl, rfl⟩ := read
      exact ⟨shorter.length_le, trivial⟩

theorem drawSegment_of_safe (total : Nat)
    (wellFormed : segment.WellFormed) (safe : SegmentSafe window reference pixels.length segment) :
    ∃ drawn, (drawSegment window total reference pixels segment : Outcome ε (List Rgba)) =
        .ok drawn ∧ drawn.length = drawnAfter window total reference pixels.length segment := by
  cases segment with
  | literal drawn =>
    refine ⟨_, rfl, ?_⟩
    simp [drawnAfter, Nat.min_comm]
  | selfMatch length distance => exact selfCopy_of_safe wellFormed.2.1 safe length
  | crossMatch length imageDist pixelOffset =>
    rw [drawSegment, drawnAfter]
    cases found : window.source reference imageDist with
    | some source =>
      refine ⟨_, rfl, ?_⟩
      simp only [length_append, length_take, length_drop]
      omega
    | none =>
      simp only [SegmentSafe, found, Option.isSome_none, Bool.false_eq_true, false_or] at safe
      exact ⟨_, if_pos safe, by simp⟩
  | overlong => exact safe.elim

theorem drawSegment_of_not_safe (notSafe : ¬ SegmentSafe window reference pixels.length segment) :
    (drawSegment window total reference pixels segment : Outcome ε (List Rgba)) =
      .fault .overflow := by
  cases segment with
  | literal drawn => exact (notSafe trivial).elim
  | selfMatch length distance => exact selfCopy_of_not_safe notSafe length
  | crossMatch length imageDist pixelOffset =>
    rw [SegmentSafe, not_or] at notSafe
    rw [drawSegment, Option.not_isSome_iff_eq_none.mp notSafe.1]
    exact if_neg notSafe.2
  | overlong => rfl

section

variable (wellFormed : ∀ segment ∈ segments, segment.WellFormed)
include wellFormed

variable {window : Window}

theorem drawSegments_of_safe (fits : pixels.length ≤ total)
    (safe : SegmentsSafe window total segments reference pixels.length) :
    ∃ drawn, (drawSegments window total segments reference pixels : Outcome ε (List Rgba)) =
      .ok drawn ∧ drawn.length ≤ total := by
  induction segments generalizing reference pixels with
  | nil => exact ⟨pixels, rfl, fits⟩
  | cons segment segments ih =>
    rw [drawSegments]
    by_cases room : pixels.length < total
    · obtain ⟨drawn, equation, length⟩ := drawSegment_of_safe total
        (wellFormed segment mem_cons_self) (safe room).1
      rw [if_pos room, equation, ok_bind]
      apply ih fun segment member => wellFormed segment (mem_cons_of_mem _ member)
      · rw [length]
        cases segment with
        | literal run =>
          rw [drawnAfter]
          omega
        | selfMatch length distance | crossMatch length imageDist pixelOffset =>
          rw [drawnAfter]
          split <;> omega
        | overlong => exact fits
      · rw [length]
        exact (safe room).2
    · rw [if_neg room]
      exact ⟨pixels, rfl, fits⟩

theorem drawSegments_of_not_safe
    (notSafe : ¬ SegmentsSafe window total segments reference pixels.length) :
    (drawSegments window total segments reference pixels : Outcome ε (List Rgba)) =
      .fault .overflow := by
  induction segments generalizing reference pixels with
  | nil => exact (notSafe trivial).elim
  | cons segment segments ih =>
    rw [SegmentsSafe, Classical.not_imp, not_and] at notSafe
    obtain ⟨room, rest⟩ := notSafe
    rw [drawSegments, if_pos room]
    by_cases safe : SegmentSafe window reference pixels.length segment
    · obtain ⟨drawn, equation, length⟩ := drawSegment_of_safe total
        (wellFormed segment mem_cons_self) safe
      rw [equation, ok_bind]
      apply ih fun segment member => wellFormed segment (mem_cons_of_mem _ member)
      rw [length]
      exact rest safe
    · rw [drawSegment_of_not_safe safe, fault_bind]

/-- A stream is drawn without a fault exactly when it is safe. -/
theorem drawSegments_returns_iff (fits : pixels.length ≤ total) :
    (drawSegments window total segments reference pixels : Outcome ε (List Rgba)).Ensures
        (fun _ => True) ↔ SegmentsSafe window total segments reference pixels.length := by
  constructor
  · intro ensured
    by_contra notSafe
    rw [drawSegments_of_not_safe wellFormed notSafe] at ensured
    exact ensured
  · intro safe
    obtain ⟨drawn, equation, -⟩ := drawSegments_of_safe (ε := ε) wellFormed fits safe
    rw [equation]
    trivial

end

/-! ## Decoders that follow their segments -/

/-- The state of a decoder stands for the pixels drawn and the bytes left to read. -/
structure Represents (data : Bytes) (total : Nat) (state : LzState) (rest : Bytes)
    (pixels : List Rgba) : Prop where
  /-- The unread bytes end the data. -/
  suffix : rest <:+ data
  output : state.output = canvas total pixels
  fits : pixels.length ≤ total
  outIdx : pixels.length < total → state.outIdx = 4 * pixels.length
  /-- The read offset of an unfinished image stands before the unread bytes. -/
  dataOffset : pixels.length < total → state.dataOffset = offsetOf data rest
  /-- The write offset of a finished image is past its end. -/
  full : total ≤ pixels.length → 4 * total ≤ state.outIdx

variable {data rest : Bytes}

theorem Represents.eq {state : LzState}
    (represents : Represents data total state rest pixels) (room : pixels.length < total) :
    state = ⟨offsetOf data rest, 4 * pixels.length, canvas total pixels⟩ := by
  rw [← represents.dataOffset room, ← represents.outIdx room, ← represents.output]

theorem Represents.stopped {state : LzState}
    (represents : Represents data total state rest pixels)
    (stopped : total ≤ pixels.length ∨ rest = []) :
    ¬ (state.outIdx < 4 * total ∧ state.dataOffset < data.length) := by
  by_cases room : pixels.length < total
  · obtain rfl := stopped.resolve_left (Nat.not_le.mpr room)
    rw [represents.dataOffset room, offsetOf_nil]
    exact fun both => Nat.lt_irrefl _ both.2
  · have past := represents.full (Nat.not_lt.mp room)
    omega

theorem Represents.start (suffix : rest <:+ data) (total : Nat)
    (nonempty : 0 < total) :
    Represents data total ⟨offsetOf data rest, 0, List.replicate (4 * total) 0⟩ rest [] where
  suffix := suffix
  output := by simp [canvas]
  fits := Nat.zero_le _
  outIdx := fun _ => rfl
  dataOffset := fun _ => rfl
  full := fun full => by
    simp only [length_nil] at full
    omega

section Blocks

variable {data : Bytes} {total : Nat} (small : total ≤ maxImagePixels)
include small

theorem forRange_literalPixel_represents (bounded : data.length < 2 ^ 63) (count : Nat)
    {rest : Bytes} (suffix : rest <:+ data) (fits : pixels.length ≤ total) :
    (forRange (literalPixel data (4 * total)) count
        ⟨offsetOf data rest, 4 * pixels.length, canvas total pixels⟩ : Outcome ε LzState).Refines
      (fun state' pixels' => Represents data total state' (takeLiterals count rest).2 pixels')
      (.ok (pixels ++ (takeLiterals count rest).1.take (total - pixels.length))) := by
  obtain ⟨offset, inside, run, reached⟩ :=
    forRange_literalPixel (ε := ε) bounded small count suffix fits
  rw [run]
  refine ⟨(takeLiterals_suffix count rest).trans suffix, rfl, ?_, fun _ => rfl, ?_, ?_⟩
  · simp only [length_append, length_take]
    omega
  · intro room
    apply reached
    simp only [length_append, length_take] at room
    omega
  · intro full
    simp only
    omega

theorem copySelf_represents {rest : Bytes} (suffix : rest <:+ data)
    (room : pixels.length < total) {distance : Nat} (positive : 0 < distance)
    (near : distance ≤ 2 ^ 32) {length : Nat} (nonempty : 0 < length) :
    (copySelf (4 * total) length distance (4 * pixels.length) (canvas total pixels) :
        Outcome ε (Nat × Bytes)).Refines (fun copied pixels' =>
        Represents data total ⟨offsetOf data rest, copied.1, copied.2⟩ rest pixels')
      (selfCopy total pixels distance length) := by
  rw [copySelf_canvas small room positive near nonempty]
  by_cases safe : distance = 1 ∨ distance ≠ pixels.length + 1
  · obtain ⟨copied, equation, count⟩ := selfCopy_of_safe (ε := ε) positive safe length
    rw [equation, ok_bind]
    refine ⟨suffix, rfl, ?_, fun _ => rfl, fun _ => rfl, fun full => by simp only; omega⟩
    rw [count]
    split <;> omega
  · rw [selfCopy_of_not_safe safe]
    rfl

end Blocks

section Following

variable {σ : Type} (body : σ → Outcome ε (Flow σ σ))
  (next : Bytes → Option (Segment × Bytes)) (window : Window) (total : Nat)
  (stands : σ → Bytes → Nat → List Rgba → Prop)

/-- Each round of a decoder either stops with its stream or draws the next segment. -/
structure Follows : Prop where
  /-- The decoder leaves a full image, and one whose data is exhausted. -/
  stops : ∀ state rest reference pixels, stands state rest reference pixels →
    total ≤ pixels.length ∨ next rest = none → body state = .ok (.leave state)
  draws : ∀ state rest reference pixels segment rest', stands state rest reference pixels →
    pixels.length < total → next rest = some (segment, rest') →
    (body state).Refines
      (fun flow pixels' => ∃ state', flow = .next state' ∧
        stands state' rest' (reference + segment.references) pixels')
      (drawSegment window total reference pixels segment)
  /-- A segment occupies at least one byte. -/
  consumes : ∀ rest segment rest', next rest = some (segment, rest') → rest'.length < rest.length

variable {body next window total stands}

theorem loop_refines_drawSegments (follows : Follows body next window total stands)
    {fuel rounds : Nat} {state : σ} {rest : Bytes} (reference : Nat)
    (represents : stands state rest reference pixels) (fueled : rest.length ≤ fuel)
    (enough : rest.length < rounds) : (loop body rounds state).Refines
      (fun state' pixels' => ∃ rest' reference', stands state' rest' reference' pixels')
      (drawSegments window total (segmentsOf next fuel rest) reference pixels) := by
  induction rounds generalizing fuel state rest reference pixels with
  | zero => omega
  | succ rounds ih =>
    rw [loop]
    cases found : next rest with
    | none =>
      have none_drawn : segmentsOf next fuel rest = [] := by
        cases fuel <;> simp [segmentsOf, found]
      rw [follows.stops _ _ _ _ represents (.inr found), none_drawn]
      exact ⟨rest, reference, represents⟩
    | some read =>
      obtain ⟨segment, rest'⟩ := read
      have shorter := follows.consumes _ _ _ found
      obtain ⟨fuel, rfl⟩ : ∃ less, fuel = less + 1 := ⟨fuel - 1, by omega⟩
      have some_drawn : segmentsOf next (fuel + 1) rest =
          segment :: segmentsOf next fuel rest' := by
        simp [segmentsOf, found]
      rw [some_drawn, drawSegments]
      by_cases room : pixels.length < total
      · rw [if_pos room]
        refine (follows.draws _ _ _ _ _ _ represents room found).bind ?_
        rintro _ pixels' ⟨state', rfl, represents'⟩
        exact ih _ represents' (by omega) (by omega)
      · rw [if_neg room, follows.stops _ _ _ _ represents (.inl (Nat.not_lt.mp room))]
        exact ⟨rest, reference, represents⟩

/-- A round that reads a control byte and draws literal pixels or reacts to a reference. -/
def roundOf {γ : Type} (data : Bytes) (total : Nat) (view : σ → LzState)
    (put : σ → LzState → σ) (reference : UInt8 → Nat → Outcome ε (Option γ))
    (react : Nat → σ → Option γ → Outcome ε (Flow σ σ)) (state : σ) : Outcome ε (Flow σ σ) := do
  if (view state).outIdx < 4 * total ∧ (view state).dataOffset < data.length then
    let ctrl ← readAt data (view state).dataOffset
    let dataOffset ← addUsize (view state).dataOffset 1
    if ctrl < lzMaxCopy then
      let drawn ← forRange (literalPixel data (4 * total)) (ctrl.toNat + 1)
        { view state with dataOffset }
      return .next (put state drawn)
    else
      let (dataOffset, length) ← matchLength data ctrl dataOffset
      let found ← reference ctrl dataOffset
      react length state found
  else
    return .leave state

section Rounds

variable {β γ : Type} {view : σ → LzState} {put : σ → LzState → σ}
  {reference : UInt8 → Nat → Outcome ε (Option γ)}
  {react : Nat → σ → Option γ → Outcome ε (Flow σ σ)}
  {take : UInt8 → Bytes → Option β} {place : β → γ} {after : β → Bytes}
  {segmentOf : Nat → β → Segment} (bounded : data.length < 2 ^ 63)
  (finds : ∀ ctrl rest, rest <:+ data →
    reference ctrl (offsetOf data rest) = .ok ((take ctrl rest).map place))
include bounded finds

theorem roundOf_eq {state : σ} {ctrl : UInt8}
    (represents : Represents data total (view state) (ctrl :: rest) pixels)
    (room : pixels.length < total) : roundOf data total view put reference react state =
      if ctrl < lzMaxCopy then
        forRange (literalPixel data (4 * total)) (ctrl.toNat + 1)
            ⟨offsetOf data rest, 4 * pixels.length, canvas total pixels⟩ >>= fun drawn =>
          .ok (.next (put state drawn))
      else if (takeLength ctrl rest).1 < 2 ^ 64 then
        react (takeLength ctrl rest).1 state ((take ctrl (takeLength ctrl rest).2).map place)
      else
        .fault .overflow := by
  have inside := offsetOf_cons_lt represents.suffix
  have after := suffix_of_cons represents.suffix
  rw [roundOf, represents.eq room, if_pos ⟨by simp only; omega, inside⟩]
  simp only [readAt_offsetOf represents.suffix, addUsize_offsetOf bounded represents.suffix,
    ok_bind, pure_eq, matchLength_eq bounded after]
  split
  · rfl
  by_cases fits : (takeLength ctrl rest).1 < 2 ^ 64
  · simp only [if_pos fits, ok_bind, finds ctrl _ ((takeLength_suffix ctrl rest).trans after)]
  · simp only [if_neg fits, fault_bind]

theorem roundOf_follows (small : total ≤ maxImagePixels)
    (represents : ∀ {state rest reference pixels}, stands state rest reference pixels →
      Represents data total (view state) rest pixels)
    (drawn : ∀ {state rest reference pixels view' rest' pixels'},
      stands state rest reference pixels → Represents data total view' rest' pixels' →
      stands (put state view') rest' reference pixels')
    (leaves : ∀ length state, react length state none = .ok (.leave state))
    (copies : ∀ {state rest reference pixels length ctrl bytes found},
      stands state rest reference pixels → pixels.length < total → 0 < length → bytes <:+ data →
      take ctrl bytes = some found → (react length state (some (place found))).Refines
        (fun flow pixels' => ∃ state', flow = .next state' ∧
          stands state' (after found) (reference + (segmentOf length found).references) pixels')
        (drawSegment window total reference pixels (segmentOf length found)))
    (consumes : ∀ rest segment rest', nextSegment (fun ctrl length bytes =>
        (take ctrl bytes).map fun found => (segmentOf length found, after found)) rest =
      some (segment, rest') → rest'.length < rest.length) :
    Follows (roundOf data total view put reference react) (nextSegment fun ctrl length bytes =>
      (take ctrl bytes).map fun found => (segmentOf length found, after found)) window total
      stands where
  stops := by
    intro state rest _ pixels standing stopped
    have standing := represents standing
    by_cases ended : total ≤ pixels.length ∨ rest = []
    · rw [roundOf, if_neg (standing.stopped ended)]
      rfl
    rw [not_or, Nat.not_le] at ended
    obtain ⟨ctrl, rest, rfl⟩ := exists_cons_of_ne_nil ended.2
    have exhausted := stopped.resolve_left (Nat.not_le.mpr ended.1)
    rw [nextSegment] at exhausted
    split at exhausted
    · cases exhausted
    rename_i literal
    split at exhausted
    · rename_i fits
      rw [Option.map_eq_none_iff] at exhausted
      rw [roundOf_eq bounded finds standing ended.1, if_neg literal, if_pos fits, exhausted]
      exact leaves _ _
    · cases exhausted
  draws := by
    intro state rest _ pixels segment rest' standing room read
    rcases rest with _ | ⟨ctrl, rest⟩
    · cases read
    have suffix := suffix_of_cons (represents standing).suffix
    rw [roundOf_eq bounded finds (represents standing) room]
    rw [nextSegment] at read
    split at read
    · rename_i literal
      cases read
      rw [if_pos literal]
      exact (forRange_literalPixel_represents small bounded _ suffix room.le).map
        fun _ _ represents' => ⟨_, rfl, drawn standing represents'⟩
    · rename_i literal
      rw [if_neg literal]
      split at read
      · rename_i fits
        obtain ⟨found, taken, same⟩ := Option.map_eq_some_iff.mp read
        cases same
        rw [if_pos fits, taken]
        exact copies standing room (takeLength_pos literal rest)
          ((takeLength_suffix ctrl rest).trans suffix) taken
      · rename_i long
        cases read
        rw [if_neg long]
        rfl
  consumes := consumes

end Rounds

end Following

end Ryll
