import Ryll.Compression.Image

/-!
# The H.264 encoder of the web frontend

An adapter around openh264: a frame of RGBA pixels goes in, and the NAL units of the access unit
come out, each behind a four-byte start code.  What openh264 makes of a frame is not known here; the
adapter's own checks are, and so is how it cuts the encoded bytes.
-/

namespace Ryll

open List

def evenDimensions (width height : Nat) : Nat × Nat := (width / 2 * 2, height / 2 * 2)

def scanStartCode : Bytes → Nat → Option (Nat × Nat)
  | [], _ => none
  | byte :: rest, position =>
    if [0, 0, 1].isPrefixOf (byte :: rest) then some (position, 3)
    else if [0, 0, 0, 1].isPrefixOf (byte :: rest) then some (position, 4)
    else scanStartCode rest (position + 1)

def findStartCode (buf : Bytes) (start : Nat) : Option (Nat × Nat) :=
  scanStartCode (buf.drop start) start

def splitAnnexB {ε : Type} (buf : Bytes) : Outcome ε (List Bytes) :=
  match findStartCode buf 0 with
  | none => return []
  | some (position, length) =>
    loop (fun (nals, nalStart) => do
      if nalStart < buf.length then
        match findStartCode buf nalStart with
        | some (position, length) =>
          let nal ← sliceOf buf nalStart position
          return .next (nals ++ [nal], position + length)
        | none =>
          let nal ← sliceOf buf nalStart buf.length
          return .leave (nals ++ [nal])
      else
        return .leave nals) (buf.length + 1) ([], position + length)

def appendAvccNal (out rawNal : Bytes) : Bytes :=
  out ++ toBigEndian 4 (rawNal.length % 2 ^ 32) ++ rawNal

def maxLongSide : Nat := 3840

def maxShortSide : Nat := 2160

/-- A frame of this size, rounded, has pixels and is not larger than openh264 encodes. -/
def EncodableSize (width height : Nat) : Prop :=
  0 < (evenDimensions width height).1 ∧ 0 < (evenDimensions width height).2 ∧
    max (evenDimensions width height).1 (evenDimensions width height).2 ≤ maxLongSide ∧
    min (evenDimensions width height).1 (evenDimensions width height).2 ≤ maxShortSide

/-- Why a frame is not encoded. -/
inductive EncoderError
  | tooSmall
  | zeroFps
  | tooLarge
  | notOpened
  | wrongLength
  | invalidImage
  | wrongSize
  | notEncoded
  deriving DecidableEq

/-- What openh264 returns. -/
structure H264Frame where
  data : Bytes
  keyframe : Bool

/-- An encoded frame as it is sent: its NAL units, none if openh264 skipped the frame. -/
structure EncodedFrame where
  nalUnits : List Bytes
  timestampUs : Nat
  keyframe : Bool

/-- An encoder for frames of a size. -/
structure H264Encoder where
  width : Nat
  height : Nat
  width_pos : 0 < width
  height_pos : 0 < height
  long : max width height ≤ maxLongSide
  short : min width height ≤ maxShortSide

namespace H264Encoder

def new (width height fps : Nat) (opened : Bool) : Except EncoderError H264Encoder :=
  let (evenWidth, evenHeight) := evenDimensions width height
  if empty : evenWidth = 0 ∨ evenHeight = 0 then
    .error .tooSmall
  else if fps = 0 then
    .error .zeroFps
  else if large : max evenWidth evenHeight > maxLongSide ∨
      min evenWidth evenHeight > maxShortSide then
    .error .tooLarge
  else if opened then
    .ok {
      width := evenWidth
      height := evenHeight
      width_pos := by omega
      height_pos := by omega
      long := by omega
      short := by omega }
  else
    .error .notOpened

/-- What openh264 makes of a frame that may have to be a keyframe; it may skip it. -/
abbrev Answer := Bool → Except Unit (Option H264Frame)

/-- Crop a frame and encode it. -/
def encodeCropped (encoder : H264Encoder) (rgba : Bytes) (srcWidth srcHeight : Nat)
    (forceKeyframe : Bool) (openh264 : Answer) : Outcome EncoderError EncodedFrame :=
  if rgba.length ≠ srcWidth * srcHeight * 4 then
    .error .wrongLength
  else
    match Bgrx.new rgba srcWidth srcHeight (srcWidth * 4) with
    | none => .error .invalidImage
    | some image =>
      if evenDimensions image.width image.height ≠ (encoder.width, encoder.height) then
        .error .wrongSize
      else
        match openh264 forceKeyframe with
        | .error _ => .error .notEncoded
        | .ok none => return ⟨[], 0, false⟩
        | .ok (some frame) => do
          let nals ← splitAnnexB frame.data
          return {
            nalUnits := (nals.filter (· ≠ [])).map ([0, 0, 0, 1] ++ ·)
            timestampUs := 0
            keyframe := frame.keyframe }

end H264Encoder

/-- The bytes split into units, one of them not empty. -/
def HoldsNal (data : Bytes) : Prop :=
  ∃ nals, splitAnnexB data = (.ok nals : Outcome EncoderError _) ∧ ∃ nal ∈ nals, nal ≠ []

/-! ## Reframing -/

/-- A NAL unit as it may be emitted: no start code in it, and none begun at its end. -/
structure NalBody (body : Bytes) : Prop where
  filled : body ≠ []
  ends : body.getLast? ≠ some 0
  noZeros : ¬[0, 0, 0] <:+: body
  noCode : ¬[0, 0, 1] <:+: body

def startCode (long : Bool) : Bytes := if long then [0, 0, 0, 1] else [0, 0, 1]

def annexB (units : List (Bool × Bytes)) : Bytes :=
  units.flatMap fun (long, body) => startCode long ++ body

/-- The bodies of a buffer in which each stands behind its length. -/
def parseAvcc (buf : Bytes) : Option (List Bytes) :=
  if buf = [] then
    some []
  else if short : buf.length < 4 + bigEndian (buf.take 4) then
    none
  else do
    let nals ← parseAvcc (buf.drop (4 + bigEndian (buf.take 4)))
    return (buf.drop 4).take (bigEndian (buf.take 4)) :: nals
termination_by buf.length
decreasing_by
  rw [length_drop]
  omega

theorem annexB_cons (long : Bool) (body : Bytes) (units : List (Bool × Bytes)) :
    annexB ((long, body) :: units) = startCode long ++ (body ++ annexB units) := by
  simp [annexB]

variable {body : Bytes} {units : List (Bool × Bytes)}

/-- The scan passes over a body: three bytes of it remain, or its last is among the next two. -/
theorem scanStartCode_append (ends : body.getLast? ≠ some 0) (noZeros : ¬[0, 0, 0] <:+: body)
    (noCode : ¬[0, 0, 1] <:+: body) (rest : Bytes) (start : Nat) :
    scanStartCode (body ++ rest) start = scanStartCode rest (start + body.length) := by
  induction body generalizing start with
  | nil => rfl
  | cons byte body ih =>
    have none_here : ¬[0, 0, 1] <+: byte :: (body ++ rest) ∧
        ¬[0, 0, 0, 1] <+: byte :: (body ++ rest) := by
      simp only [cons_prefix_cons]
      match body with
      | [] =>
        have last : 0 ≠ byte := by simpa [eq_comm] using ends
        exact ⟨fun code => last code.1, fun code => last code.1⟩
      | [second] =>
        have last : 0 ≠ second := by simpa [eq_comm] using ends
        simp [last]
      | second :: third :: body =>
        have front : [byte, second, third] <:+: byte :: second :: third :: body :=
          (prefix_append [byte, second, third] body).isInfix
        simp only [cons_append, cons_prefix_cons]
        constructor
        · rintro ⟨rfl, rfl, rfl, -⟩
          exact noCode front
        · rintro ⟨rfl, rfl, rfl, -⟩
          exact noZeros front
    rw [← isPrefixOf_iff_prefix, ← isPrefixOf_iff_prefix] at none_here
    have within : body <:+: byte :: body := (suffix_cons byte body).isInfix
    rw [cons_append, scanStartCode, if_neg none_here.1, if_neg none_here.2, ih ?_
      (fun inside => noZeros (inside.trans within)) (fun inside => noCode (inside.trans within)),
      length_cons, Nat.add_assoc, Nat.add_comm 1]
    intro last
    rw [getLast?_cons, last] at ends
    exact ends rfl

theorem scanStartCode_startCode (long : Bool) (rest : Bytes) (start : Nat) :
    scanStartCode (startCode long ++ rest) start = some (start, (startCode long).length) := by
  cases long <;> simp [startCode, scanStartCode]

theorem splitAnnexB_annexB {ε : Type} (bodies : ∀ unit ∈ units, NalBody unit.2) :
    (splitAnnexB (annexB units) : Outcome ε _).Ensures (· = units.map Prod.snd) := by
  match units with
  | [] => rfl
  | (long, first) :: units =>
    obtain ⟨nal, bodies⟩ := forall_mem_cons.mp bodies
    have whole := annexB_cons long first units
    generalize annexB ((long, first) :: units) = buf at whole
    have found : findStartCode buf 0 = some (0, (startCode long).length) := by
      rw [whole, findStartCode, drop_zero, scanStartCode_startCode]
    rw [splitAnnexB, found]
    -- A round starts at a body, with those before it collected.
    refine loop_ensures (fun state : List Bytes × Nat => ∃ done body rest,
      buf = done ++ (body ++ annexB rest) ∧ state.2 = done.length ∧ NalBody body ∧
        (∀ unit ∈ rest, NalBody unit.2) ∧
        state.1 ++ body :: rest.map Prod.snd = first :: units.map Prod.snd)
      (fun state => buf.length - state.2) ?_
      ⟨startCode long, first, units, whole, Nat.zero_add _, nal, bodies, rfl⟩
      (Nat.lt_succ_of_le (Nat.sub_le _ _))
    rintro ⟨nals, nalStart⟩ ⟨done, body, rest, rfl, rfl, nal, bodies, collected⟩
    have filled := length_pos_iff.mpr nal.filled
    have sized : (done ++ (body ++ annexB rest)).length =
        done.length + body.length + (annexB rest).length := by
      rw [length_append, length_append, Nat.add_assoc]
    have scanned : findStartCode (done ++ (body ++ annexB rest)) done.length =
        scanStartCode (annexB rest) (done.length + body.length) := by
      rw [findStartCode, drop_left, scanStartCode_append nal.ends nal.noZeros nal.noCode]
    have slice := @sliceOf_ok ε _ (done ++ (body ++ annexB rest)) done.length
      (done.length + body.length) (Nat.le_add_right _ _) (by omega)
    rw [drop_left, Nat.add_sub_cancel_left, take_left] at slice
    dsimp only
    rw [if_pos (by omega), scanned]
    match rest with
    | [] =>
      have last : scanStartCode (annexB []) (done.length + body.length) = none := rfl
      rw [last, show (done ++ (body ++ annexB [])).length = done.length + body.length from sized]
      dsimp only
      rw [slice]
      exact collected
    | (long, next) :: rest =>
      obtain ⟨next_nal, bodies⟩ := forall_mem_cons.mp bodies
      have code : scanStartCode (annexB ((long, next) :: rest)) (done.length + body.length) =
          some (done.length + body.length, (startCode long).length) := by
        rw [annexB_cons, scanStartCode_startCode]
      rw [code]
      dsimp only
      rw [slice]
      refine ⟨⟨done ++ (body ++ startCode long), next, rest, ?_, ?_, next_nal, bodies, ?_⟩, ?_⟩
      · simp [annexB_cons]
      · simp [Nat.add_assoc]
      · simpa using collected
      · dsimp only
        omega

theorem foldl_appendAvccNal (bodies : List Bytes) (out : Bytes) :
    bodies.foldl appendAvccNal out = out ++ bodies.flatMap (appendAvccNal []) := by
  induction bodies generalizing out with
  | nil => simp
  | cons body bodies ih => simp [ih, appendAvccNal]

theorem parseAvcc_flatMap {bodies : List Bytes}
    (short : ∀ body ∈ bodies, body.length < 2 ^ 32) :
    parseAvcc (bodies.flatMap (appendAvccNal [])) = some bodies := by
  induction bodies with
  | nil => simp [parseAvcc]
  | cons body bodies ih =>
    obtain ⟨small, rest⟩ := forall_mem_cons.mp short
    have whole : (body :: bodies).flatMap (appendAvccNal []) =
        toBigEndian 4 body.length ++ (body ++ bodies.flatMap (appendAvccNal [])) := by
      simp only [appendAvccNal, Nat.mod_eq_of_lt small, flatMap_cons, nil_append, append_assoc]
    have length : bigEndian (((body :: bodies).flatMap (appendAvccNal [])).take 4) =
        body.length := by
      rw [whole, take_left' (length_toBigEndian 4 _), bigEndian_toBigEndian small]
    rw [parseAvcc, length, whole, if_neg (by simp [toBigEndian]), dif_neg (by simp),
      ← drop_drop, drop_left' (length_toBigEndian 4 _), drop_left, take_left, ih rest]
    rfl

/-- Bodies come back from any start codes, and again from behind their lengths. -/
theorem nal_units_survive_reframing (bodies : ∀ unit ∈ units, NalBody unit.2) :
    splitAnnexB (annexB units) = (.ok (units.map Prod.snd) : Outcome Empty _) ∧
      ((∀ unit ∈ units, unit.2.length < 2 ^ 32) →
        parseAvcc ((units.map Prod.snd).foldl appendAvccNal []) = some (units.map Prod.snd)) := by
  constructor
  · obtain ⟨nals, returned, rfl⟩ := (splitAnnexB_annexB bodies).returns
    exact returned
  · intro short
    rw [foldl_appendAvccNal, nil_append, parseAvcc_flatMap (forall_mem_map.mpr short)]

theorem mixed_codes_reframed : splitAnnexB [0, 0, 0, 1, 103, 1, 0, 0, 1, 101] =
      (.ok [[103, 1], [101]] : Outcome Empty _) ∧
    parseAvcc [0, 0, 0, 2, 103, 1, 0, 0, 0, 1, 101] = some [[103, 1], [101]] := by
  have reframed := @nal_units_survive_reframing [(true, [103, 1]), (false, [101])] (by
    simp only [forall_mem_cons]
    exact ⟨⟨by decide, by decide, by decide, by decide⟩,
      ⟨by decide, by decide, by decide, by decide⟩, nofun⟩)
  exact ⟨reframed.1, reframed.2 (by decide)⟩

/-! ## What the encoder accepts -/

namespace H264Encoder

variable {width height : Nat}

theorem new_eq_ok {fps : Nat} (size : EncodableSize width height) (fps_pos : fps ≠ 0) :
    ∃ encoder, new width height fps true = .ok encoder ∧
      evenDimensions width height = (encoder.width, encoder.height) := by
  obtain ⟨wide, high, long, short⟩ := size
  have nonempty : ¬((evenDimensions width height).1 = 0 ∨ (evenDimensions width height).2 = 0) := by
    omega
  have allowed : ¬(max (evenDimensions width height).1 (evenDimensions width height).2 >
      maxLongSide ∨ min (evenDimensions width height).1 (evenDimensions width height).2 >
      maxShortSide) := by
    omega
  simp only [new, dif_neg nonempty, if_neg fps_pos, dif_neg allowed, if_true]
  exact ⟨_, rfl, rfl⟩

variable {encoder : H264Encoder}

theorem encodeCropped_emits {rgba : Bytes} {force : Bool}
    {openh264 : Answer} {frame : H264Frame}
    (rounds : evenDimensions width height = (encoder.width, encoder.height))
    (sized : rgba.length = width * height * 4) (encoded : openh264 force = .ok (some frame))
    (holds : HoldsNal frame.data) :
    ∃ result, encoder.encodeCropped rgba width height force openh264 = .ok result ∧
      result.nalUnits ≠ [] := by
  obtain ⟨nals, split, nal, listed, filled⟩ := holds
  have kept : nal ∈ nals.filter (· ≠ []) := mem_filter.mpr ⟨listed, decide_eq_true filled⟩
  have image : Bgrx.new rgba width height (width * 4) = some ⟨rgba, width, height, width * 4⟩ := by
    obtain ⟨wide, high⟩ := Prod.mk.inj rounds
    have width_pos := encoder.width_pos
    have height_pos := encoder.height_pos
    have long := encoder.long
    simp only [maxLongSide] at long
    have width_le : width ≤ 3841 := by omega
    have height_le : height ≤ 3841 := by omega
    have pixels : width * height ≤ 3841 * 3841 := Nat.mul_le_mul width_le height_le
    have accepted : rgbaLen width height = some (width * height * 4) := by
      refine rgbaLen_eq_some.mpr ⟨by omega, by omega, ?_, ?_, ?_, rfl⟩
      · exact Nat.le_trans width_le (by decide)
      · exact Nat.le_trans height_le (by decide)
      · exact Nat.le_trans pixels (by decide)
    have rows : width * 4 * (height - 1) + width * 4 = width * height * 4 := by
      obtain ⟨above, rfl⟩ := Nat.exists_eq_succ_of_ne_zero (show height ≠ 0 by omega)
      rw [Nat.succ_sub_one, ← Nat.mul_succ, Nat.mul_right_comm]
    have fits : ¬(2 ^ 64 ≤ width * height * 4 ∨ rgba.length < width * height * 4) := by omega
    rw [Bgrx.new, accepted]
    simp only [Option.bind_eq_bind, Option.bind_some, Nat.lt_irrefl, if_false, rows, fits]
  simp only [encodeCropped, sized, ne_eq, not_true_eq_false, if_false, image, rounds, encoded,
    split, ok_bind]
  refine ⟨_, rfl, fun none => ?_⟩
  rw [map_eq_nil_iff.mp none] at kept
  nomatch kept

end H264Encoder

end Ryll
