import Ryll.Compression.Rows
import Ryll.Compression.Segments

/-!
# The LZ decoder

`decompressLz` is the decoder as its loop runs over the bytes, and it is shown to draw the segments
that `lzNext` reads.  It overflows exactly where a reference of two or more pixels reaches one pixel
before the first, or where a run length exceeds a machine word.
-/

namespace Ryll

/-- The header of an image. -/
structure LzHeader where
  width : Nat
  height : Nat
  topDown : Bool

def lzHeaderLen : Nat := 28

variable (data : Bytes)

def LzHeader.read : Outcome StreamError LzHeader := do
  let rest ← readPreamble lzHeaderLen data
  let (_padding, rest) ← readExact .endOfData 3 rest
  let (_imgType, rest) ← readExact .endOfData 1 rest
  let (width, rest) ← readBigEndian .endOfData 4 rest
  let (height, rest) ← readBigEndian .endOfData 4 rest
  let (_stride, rest) ← readBigEndian .endOfData 4 rest
  let (topDown, _) ← readBigEndian .endOfData 4 rest
  return { width, height, topDown := topDown ≠ 0 }

def lzDistance (ctrl : UInt8) (dataOffset : Nat) :
    Outcome StreamError (Option (Nat × Nat)) := do
  let pixelOffset := (ctrl &&& 0x1F).toNat <<< 8
  if dataOffset ≥ data.length then
    return none
  else
    let code := (← readAt data dataOffset).toNat
    let dataOffset ← addUsize dataOffset 1
    let pixelOffset ← addUsize pixelOffset code
    if code = 255 ∧ pixelOffset - code = 31 <<< 8 then
      if (← addUsize dataOffset 2) > data.length then
        return none
      else
        let high := (← readAt data dataOffset).toNat
        let low := (← readAt data (← addUsize dataOffset 1)).toNat
        let pixelOffset ← addUsize ((high <<< 8) ||| low) 8191
        return some (← addUsize dataOffset 2, ← addUsize pixelOffset 1)
    else
      return some (dataOffset, ← addUsize pixelOffset 1)

def lzRound (outputSize : Nat) (state : LzState) :
    Outcome StreamError (Flow LzState LzState) := do
  if state.outIdx < outputSize ∧ state.dataOffset < data.length then
    let ctrl ← readAt data state.dataOffset
    let dataOffset ← addUsize state.dataOffset 1
    if ctrl < lzMaxCopy then
      let state ← forRange (literalPixel data outputSize) (ctrl.toNat + 1)
        { state with dataOffset }
      return .next state
    else
      let (dataOffset, length) ← matchLength data ctrl dataOffset
      match ← lzDistance data ctrl dataOffset with
      | none => return .leave state
      | some (dataOffset, pixelOffset) =>
        let (outIdx, output) ← copySelf outputSize length pixelOffset state.outIdx state.output
        return .next { dataOffset, outIdx, output }
  else
    return .leave state

/-- Decode an LZ image. -/
def decompressLz (data : Slice) : Outcome StreamError DecompressedImage := do
  let header ← LzHeader.read data.bytes
  match rgbaLen header.width header.height with
  | none => .error (.dimensionsRefused header.width header.height)
  | some outputSize =>
    let state ← loop (lzRound data.bytes outputSize) (data.bytes.length + 1)
      { dataOffset := lzHeaderLen, outIdx := 0, output := List.replicate outputSize 0 }
    finishImage header.topDown header.width header.height 0 0 state.output

/-! ## The segments of an LZ stream -/

def takeFarDistance : Bytes → Option (Nat × Bytes)
  | high :: low :: rest => some (((high.toNat <<< 8) ||| low.toNat) + 8192, rest)
  | _ => none

def takeLzDistance (ctrl : UInt8) : Bytes → Option (Nat × Bytes)
  | [] => none
  | code :: rest =>
    if code = 255 ∧ ctrl &&& 0x1F = 31 then
      takeFarDistance rest
    else
      some (((ctrl &&& 0x1F).toNat <<< 8) + code.toNat + 1, rest)

def takeLzMatch (ctrl : UInt8) (length : Nat) (bytes : Bytes) :
    Option (Segment × Bytes) :=
  (takeLzDistance ctrl bytes).map fun (distance, rest) => (.selfMatch length distance, rest)

def lzNext : Bytes → Option (Segment × Bytes) := nextSegment takeLzMatch

def lzSegments (bytes : Bytes) : List Segment := segmentsOf lzNext bytes.length bytes

theorem pair_lt (high low : UInt8) : (high.toNat <<< 8) ||| low.toNat < 2 ^ 16 := by
  have high_lt := high.toNat_lt
  have low_lt := low.toNat_lt
  exact Nat.or_lt_two_pow (by rw [Nat.shiftLeft_eq]; omega) (by omega)

variable {rest : Bytes}

theorem takeLzDistance_spec {ctrl : UInt8} {bytes : Bytes} {distance : Nat}
    (taken : takeLzDistance ctrl bytes = some (distance, rest)) :
    0 < distance ∧ distance ≤ 2 ^ 32 ∧ rest <:+ bytes := by
  cases bytes with
  | nil => simp [takeLzDistance] at taken
  | cons code bytes =>
    rw [takeLzDistance] at taken
    split at taken
    · rcases bytes with _ | ⟨high, _ | ⟨low, bytes⟩⟩
      · simp [takeFarDistance] at taken
      · simp [takeFarDistance] at taken
      · simp only [takeFarDistance, Option.some.injEq, Prod.mk.injEq] at taken
        obtain ⟨rfl, rfl⟩ := taken
        have pair := pair_lt high low
        exact ⟨by omega, by omega, ⟨[code, high, low], rfl⟩⟩
    · simp only [Option.some.injEq, Prod.mk.injEq] at taken
      obtain ⟨rfl, rfl⟩ := taken
      have ctrl_lt := (ctrl &&& 0x1F).toNat_lt
      have code_lt := code.toNat_lt
      exact ⟨by omega, by omega, ⟨[code], rfl⟩⟩

theorem lzDistance_eq {data : Bytes} (bounded : data.length < 2 ^ 63) (ctrl : UInt8)
    (suffix : rest <:+ data) : lzDistance data ctrl (offsetOf data rest) =
      .ok ((takeLzDistance ctrl rest).map fun (distance, rest) =>
        (offsetOf data rest, distance)) := by
  cases rest with
  | nil => simp [lzDistance, takeLzDistance]
  | cons code rest =>
    have inside := offsetOf_cons_lt suffix
    have ctrl_lt := (ctrl &&& 0x1F).toNat_lt
    have code_lt := code.toNat_lt
    have far_iff : (code.toNat = 255 ∧ (ctrl &&& 0x1F).toNat <<< 8 + code.toNat - code.toNat =
        31 <<< 8) ↔ (code = 255 ∧ ctrl &&& 0x1F = 31) := by
      rw [Nat.add_sub_cancel, Nat.shiftLeft_eq, Nat.shiftLeft_eq, ← UInt8.toNat_inj,
        ← UInt8.toNat_inj]
      simp only [UInt8.reduceToNat]
      omega
    rw [takeLzDistance]
    simp (disch := omega) only [lzDistance, ge_iff_le, if_neg, readAt_offsetOf suffix,
      addUsize_offsetOf bounded suffix, ok_bind, addUsize_ok, far_iff, pure_eq]
    by_cases far : code = 255 ∧ ctrl &&& 0x1F = 31
    · rw [if_pos far, if_pos far]
      have after := suffix_of_cons suffix
      have after_le := offsetOf_le data rest
      rw [addUsize_ok (by omega), ok_bind]
      rcases rest with _ | ⟨high, _ | ⟨low, rest⟩⟩
      · rw [if_pos (by rw [offsetOf_nil]; omega)]
        rfl
      · have last := offsetOf_cons after
        rw [offsetOf_nil] at last
        rw [if_pos (by omega)]
        rfl
      · have second := suffix_of_cons after
        have moved := offsetOf_cons after
        have moved' := offsetOf_cons second
        have end_le := offsetOf_le data rest
        have pair := pair_lt high low
        rw [if_neg (by omega), readAt_offsetOf after, ok_bind, addUsize_offsetOf bounded after,
          ok_bind, readAt_offsetOf second, ok_bind, addUsize_ok (by omega), ok_bind,
          addUsize_ok (by omega), ok_bind]
        simp only [takeFarDistance, Option.map_some, ok_bind, ← moved', ← moved]
    · rw [if_neg far, if_neg far]
      rfl

theorem lzNext_spec {bytes : Bytes} {segment : Segment}
    (read : lzNext bytes = some (segment, rest)) :
    rest.length < bytes.length ∧ segment.WellFormed := by
  refine nextSegment_spec (fun ctrl length bytes segment rest nonempty taken => ?_) read
  obtain ⟨⟨distance, after⟩, found, result⟩ := Option.map_eq_some_iff.mp taken
  obtain ⟨positive, near, suffix⟩ := takeLzDistance_spec found
  cases result
  exact ⟨suffix, nonempty, positive, near⟩

theorem lzSegments_wellFormed (bytes : Bytes) :
    ∀ segment ∈ lzSegments bytes, segment.WellFormed :=
  segmentsOf_wellFormed (fun _ _ _ read => (lzNext_spec read).2) bytes.length bytes

/-! ## The decoder draws its segments -/

theorem lzRound_follows {data : Bytes} (bounded : data.length < 2 ^ 63) {total : Nat}
    (small : total ≤ maxImagePixels) : Follows (lzRound data (4 * total)) lzNext .alone total
      (fun state rest _ pixels => Represents data total state rest pixels) := by
  have same : lzRound data (4 * total) = roundOf data total id (fun _ drawn => drawn)
      (lzDistance data) fun length state found => do
        match found with
        | none => return .leave state
        | some (dataOffset, pixelOffset) =>
          let (outIdx, output) ← copySelf (4 * total) length pixelOffset state.outIdx state.output
          return .next { dataOffset, outIdx, output } := rfl
  rw [same]
  refine roundOf_follows bounded (fun ctrl _ => lzDistance_eq bounded ctrl) small id
    (fun _ drawn => drawn) (fun _ _ => rfl) ?_ fun _ _ _ read => (lzNext_spec read).1
  rintro state rest _ pixels length ctrl bytes ⟨distance, after⟩ represents room nonempty inside
    taken
  obtain ⟨positive, near, suffix⟩ := takeLzDistance_spec taken
  rw [represents.eq room]
  exact (copySelf_represents small (suffix.trans inside) room positive near nonempty).map
    fun _ _ drawn => ⟨_, rfl, drawn⟩

theorem LzHeader.read_ensures (data : Bytes) :
    (LzHeader.read data).Ensures fun _ => lzHeaderLen ≤ data.length :=
  (readPreamble_ensures _ data).bind fun rest long =>
    (readExact_ensures _ 3 rest).bind fun padding _ =>
    (readExact_ensures _ 1 padding.2).bind fun imgType _ =>
    (readBigEndian_ensures _ 4 imgType.2).bind fun width _ =>
    (readBigEndian_ensures _ 4 width.2).bind fun height _ =>
    (readBigEndian_ensures _ 4 height.2).bind fun stride _ =>
    (readBigEndian_ensures _ 4 stride.2).bind fun _ _ => long

theorem decompressLz_refines {data : Slice} {header : LzHeader}
    (read : LzHeader.read data.bytes = .ok header) {length : Nat}
    (accepted : rgbaLen header.width header.height = some length) : (decompressLz data).Refines
      (fun image pixels => image.width = header.width ∧ image.height = header.height ∧
        image.pixels = flat (displayOrder header.topDown header.width header.height
          (padded (header.width * header.height) pixels)))
      (drawSegments .alone (header.width * header.height)
        (lzSegments (data.bytes.drop lzHeaderLen)) 0 []) := by
  obtain ⟨width_pos, height_pos, -, -, small, length_eq⟩ := rgbaLen_eq_some.mp accepted
  have total_pos : 0 < header.width * header.height := Nat.mul_pos width_pos height_pos
  have long : lzHeaderLen ≤ data.bytes.length := by
    have ensured := LzHeader.read_ensures data.bytes
    rwa [read] at ensured
  have suffix := List.drop_suffix lzHeaderLen data.bytes
  have drawn := loop_refines_drawSegments (lzRound_follows data.bounded small) 0
    (Represents.start suffix _ total_pos) (Nat.le_refl _)
    (show (data.bytes.drop lzHeaderLen).length < data.bytes.length + 1 from
      Nat.lt_succ_of_le suffix.length_le)
  rw [offsetOf_drop long] at drawn
  rw [decompressLz, read, ok_bind, accepted, length_eq, Nat.mul_comm _ 4]
  refine drawn.bind_ok fun state pixels ⟨rest, _, represents⟩ => ?_
  obtain ⟨image, finished, same_width, same_height, -, -, same_pixels⟩ :=
    finishImage_canvas header.topDown accepted 0 0 represents.fits
  exact ⟨image, by rw [represents.output, finished], same_width, same_height, same_pixels⟩

/-! ## Safety -/

/-- No run length exceeds a machine word, and no reference of two or more pixels reaches exactly one
pixel before the first. -/
def LzSafe (data : Bytes) : Prop :=
  ∀ header, LzHeader.read data = .ok header → (rgbaLen header.width header.height).isSome →
    SegmentsSafe .alone (header.width * header.height) (lzSegments (data.drop lzHeaderLen)) 0 0

/-- The decoder returns exactly on the safe streams; on every other input it overflows. -/
theorem decompressLz_returns_iff (data : Slice) : (decompressLz data).Ensures
        (fun image => image.pixels.length = image.width * image.height * 4) ↔
      LzSafe data.bytes := by
  cases read : LzHeader.read data.bytes with
  | error reason => simp [decompressLz, LzSafe, read]
  | fault cause =>
    have ensured := LzHeader.read_ensures data.bytes
    rw [read] at ensured
    exact ensured.elim
  | ok header =>
    cases accepted : rgbaLen header.width header.height with
    | none => simp [decompressLz, LzSafe, read, accepted]
    | some length =>
      have safe_iff : LzSafe data.bytes ↔ SegmentsSafe .alone (header.width * header.height)
          (lzSegments (data.bytes.drop lzHeaderLen)) 0 ([] : List Rgba).length := by
        simp [LzSafe, read, accepted]
      rw [safe_iff, ← drawSegments_returns_iff (lzSegments_wellFormed _) (Nat.zero_le _)]
      exact (decompressLz_refines read accepted).ensures_iff DecompressedImage.length_pixels

def lzReachBefore : Slice where
  bytes := lzMagic ++ [0, 1, 0, 0, 0, 0, 0, 9, 0, 0, 0, 2, 0, 0, 0, 1, 0, 0, 0, 8, 0, 0, 0, 1] ++
    [0, 10, 20, 30] ++ [32, 1]
  bounded := by decide

/-- The copy of that image overflows, so the decoder returns neither an image nor an error. -/
theorem decompressLz_lzReachBefore_faults : ¬ (decompressLz lzReachBefore).Ensures
      (fun image => image.pixels.length = image.width * image.height * 4) := by
  exact Outcome.not_ensures_fault

end Ryll
