import Ryll.Compression.Image
import Ryll.Foundation.SlidingWindow

/-!
# Blocks shared by the LZ and GLZ decoders

Both decoders keep a read offset, a write offset and the output buffer, which always consists of the
pixels written so far and zeros: a `canvas`.  Every block is specified by what it does to one.
-/

namespace Ryll

open List Outcome

variable {ε : Type}

/-- Reasons for which the LZ and GLZ decoders refuse their data. -/
inductive StreamError
  | tooShort
  | endOfData
  | invalidMagic (magic : Bytes)
  | unsupportedVersion (major minor : Nat)
  | dimensionsRefused (width height : Nat)
  deriving DecidableEq

def lzMagic : Bytes := [32, 32, 90, 76]

def debugBytes (bytes : Bytes) : String :=
  "[" ++ ", ".intercalate (bytes.map fun byte => toString byte.toNat) ++ "]"

def StreamError.text (format : String) : StreamError → String
  | .tooShort => format ++ " data too short for header"
  | .endOfData => "failed to fill whole buffer"
  | .invalidMagic magic =>
    "Invalid " ++ format ++ " magic: " ++ debugBytes magic ++ " (expected " ++
      debugBytes lzMagic ++ ")"
  | .unsupportedVersion major minor =>
    "Unsupported " ++ format ++ " version: " ++ toString major ++ "." ++ toString minor
  | .dimensionsRefused width height =>
    format ++ " image dimensions refused: " ++ toString width ++ "x" ++ toString height

/-- Read the magic and the version that the headers of both formats start with. -/
def readPreamble (headerLen : Nat) (data : Bytes) : Outcome StreamError Bytes := do
  if data.length < headerLen then
    .error .tooShort
  else
    let (magic, rest) ← readExact .endOfData 4 data
    if magic ≠ lzMagic then
      .error (.invalidMagic magic)
    else
      let (versionMajor, rest) ← readBigEndian .endOfData 2 rest
      let (versionMinor, rest) ← readBigEndian .endOfData 2 rest
      if versionMajor ≠ 1 then
        .error (.unsupportedVersion versionMajor versionMinor)
      else
        return rest

theorem readPreamble_ensures (headerLen : Nat) (data : Bytes) :
    (readPreamble headerLen data).Ensures fun _ => headerLen ≤ data.length := by
  rw [readPreamble]
  split
  · trivial
  next long =>
  refine (readExact_ensures _ 4 data).bind ?_
  rintro ⟨magic, rest⟩ -
  dsimp only
  split
  · trivial
  refine (readBigEndian_ensures _ 2 rest).bind ?_
  rintro ⟨versionMajor, rest⟩ -
  refine (readBigEndian_ensures _ 2 rest).bind ?_
  rintro ⟨versionMinor, rest⟩ -
  dsimp only
  split
  · trivial
  · exact Nat.not_lt.mp long

theorem readPreamble_append {headerLen : Nat} {rest : Bytes} (long : headerLen ≤ 8 + rest.length) :
    readPreamble headerLen (lzMagic ++ (toBigEndian 2 1 ++ (toBigEndian 2 0 ++ rest))) =
      .ok rest := by
  have enough :
      ¬(lzMagic ++ (toBigEndian 2 1 ++ (toBigEndian 2 0 ++ rest))).length < headerLen := by
    simp only [lzMagic, length_append, length_cons, length_nil, length_toBigEndian]
    omega
  rw [readPreamble, if_neg enough, readExact_append _ (show lzMagic.length = 4 from rfl), ok_bind]
  dsimp only
  rw [if_neg (not_not.mpr rfl), readBigEndian_append _ (show 1 < 256 ^ 2 by decide), ok_bind]
  dsimp only
  rw [readBigEndian_append _ (show 0 < 256 ^ 2 by decide), ok_bind, if_neg (by decide)]
  rfl

def lzMaxCopy : UInt8 := 32

/-- Offsets of a running decoder, and its output buffer. -/
structure LzState where
  dataOffset : Nat
  /-- Offset of the next byte to write. -/
  outIdx : Nat
  output : Bytes

/-- An output buffer for `total` pixels whose first pixels have been written. -/
def canvas (total : Nat) (pixels : List Rgba) : Bytes :=
  flat pixels ++ List.replicate (4 * (total - pixels.length)) 0

variable {pixels : List Rgba} {data : Bytes}

theorem length_canvas {total : Nat} (fits : pixels.length ≤ total) :
    (canvas total pixels).length = 4 * total := by
  simp only [canvas, length_append, length_flat, length_replicate]
  omega

theorem canvas_of_lt {total : Nat} (room : pixels.length < total) : canvas total pixels =
      flat pixels ++ 0 :: 0 :: 0 :: 0 :: List.replicate (4 * (total - (pixels.length + 1))) 0 := by
  have zeros : 4 * (total - pixels.length) = 4 * (total - (pixels.length + 1)) + 1 + 1 + 1 + 1 := by
    omega
  rw [canvas, zeros]
  simp [replicate_succ]

theorem canvas_snoc (total : Nat) (pixels : List Rgba) (pixel : Rgba) :
    canvas total (pixels ++ [pixel]) = flat pixels ++ pixel.r :: pixel.g :: pixel.b :: pixel.a ::
        List.replicate (4 * (total - (pixels.length + 1))) 0 := by
  simp [canvas]

/-! ## Literal pixels -/

def literalPixel (data : Bytes) (outputSize : Nat) (state : LzState) :
    Outcome ε (Flow LzState LzState) := do
  let dataEnd ← addUsize state.dataOffset 3
  if dataEnd > data.length then
    return .leave state
  else
    let outEnd ← addUsize state.outIdx 4
    if outEnd > outputSize then
      return .leave state
    else
      let red ← readAt data (← addUsize state.dataOffset 2)
      let output ← writeAt state.output state.outIdx red
      let green ← readAt data (← addUsize state.dataOffset 1)
      let output ← writeAt output (← addUsize state.outIdx 1) green
      let blue ← readAt data state.dataOffset
      let output ← writeAt output (← addUsize state.outIdx 2) blue
      let output ← writeAt output (← addUsize state.outIdx 3) 255
      return .next { dataOffset := dataEnd, outIdx := outEnd, output }

def takeLiterals : Nat → Bytes → List Rgba × Bytes
  | count + 1, b :: g :: r :: rest =>
    let (pixels, rest) := takeLiterals count rest
    (⟨r, g, b, 255⟩ :: pixels, rest)
  | _, rest => ([], rest)

theorem takeLiterals_suffix (count : Nat) (bytes : Bytes) :
    (takeLiterals count bytes).2 <:+ bytes := by
  fun_induction takeLiterals count bytes with
  | case1 count b g r bytes pixels rest equation ih =>
    rw [equation] at ih
    exact ih.trans ⟨[b, g, r], rfl⟩
  | case2 => exact suffix_rfl

section Literals

variable {data : Bytes} (bounded : data.length < 2 ^ 63) {total : Nat}
  (small : total ≤ maxImagePixels)
include bounded small

theorem literalPixel_next {b g r : UInt8} {rest : Bytes}
    (suffix : b :: g :: r :: rest <:+ data) (room : pixels.length < total) :
    (literalPixel data (4 * total)
        ⟨offsetOf data (b :: g :: r :: rest), 4 * pixels.length, canvas total pixels⟩ :
          Outcome ε (Flow LzState LzState)) =
      .ok (.next ⟨offsetOf data rest, 4 * (pixels.length + 1),
        canvas total (pixels ++ [⟨r, g, b, 255⟩])⟩) := by
  have green_suffix := suffix_of_cons suffix
  have red_suffix := suffix_of_cons green_suffix
  have offset : offsetOf data (b :: g :: r :: rest) + 3 = offsetOf data rest := by
    rw [← offsetOf_cons red_suffix, ← offsetOf_cons green_suffix, ← offsetOf_cons suffix]
  have inside := offsetOf_le data rest
  have blue : data[offsetOf data (b :: g :: r :: rest)]? = some b := getElem?_offsetOf suffix 0
  have green : data[offsetOf data (b :: g :: r :: rest) + 1]? = some g :=
    getElem?_offsetOf suffix 1
  have red : data[offsetOf data (b :: g :: r :: rest) + 2]? = some r := getElem?_offsetOf suffix 2
  have total_le : total ≤ 67108864 := small
  rw [canvas_of_lt room, canvas_snoc, ← offset]
  simp (disch := first | omega | simp) only [literalPixel, addUsize_ok, ok_bind, if_neg,
    readAt_of_getElem? blue, readAt_of_getElem? green, readAt_of_getElem? red,
    writeAt_append_cons (length_flat pixels), writeAt_append (length_flat pixels), List.set,
    pure_eq, Nat.mul_succ]

theorem literalPixel_leave {offset : Nat} (inside : offset ≤ data.length)
    (fits : pixels.length ≤ total) (blocked : data.length < offset + 3 ∨ total ≤ pixels.length) :
    (literalPixel data (4 * total) ⟨offset, 4 * pixels.length, canvas total pixels⟩ :
        Outcome ε (Flow LzState LzState)) =
      .ok (.leave ⟨offset, 4 * pixels.length, canvas total pixels⟩) := by
  have total_le : total ≤ 67108864 := small
  simp (disch := omega) only [literalPixel, addUsize_ok, ok_bind, pure_eq]
  split
  · rfl
  · rw [if_pos (by omega)]

theorem forRange_literalPixel (count : Nat) {rest : Bytes} (suffix : rest <:+ data)
    (fits : pixels.length ≤ total) :
    ∃ offset ≤ data.length, (forRange (literalPixel data (4 * total)) count
          ⟨offsetOf data rest, 4 * pixels.length, canvas total pixels⟩ : Outcome ε LzState) =
        .ok ⟨offset,
          4 * (pixels ++ (takeLiterals count rest).1.take (total - pixels.length)).length,
          canvas total (pixels ++ (takeLiterals count rest).1.take (total - pixels.length))⟩ ∧
        (pixels.length + (takeLiterals count rest).1.length < total →
          offset = offsetOf data (takeLiterals count rest).2) := by
  fun_induction takeLiterals count rest generalizing pixels with
  | case1 count b g r rest drawn after equation ih =>
    by_cases room : pixels.length < total
    · have extended : (pixels ++ [(⟨r, g, b, 255⟩ : Rgba)]).length ≤ total := by
        simp only [length_append, length_singleton]
        omega
      obtain ⟨offset, inside, run, reached⟩ :=
        ih (suffix_of_cons (suffix_of_cons (suffix_of_cons suffix))) extended
      rw [equation] at run reached
      refine ⟨offset, inside, ?_, ?_⟩
      · rw [forRange, literalPixel_next bounded small suffix room]
        have room_succ : total - pixels.length = (total - (pixels.length + 1)) + 1 := by omega
        simpa [room_succ, Nat.add_assoc] using run
      · intro below
        apply reached
        simp only [length_cons, length_append, length_nil] at below ⊢
        omega
    · refine ⟨offsetOf data (b :: g :: r :: rest), offsetOf_le _ _, ?_, by omega⟩
      have full : total - pixels.length = 0 := by omega
      rw [forRange, literalPixel_leave bounded small (offsetOf_le _ _) fits (by omega)]
      simp [full]
  | case2 count rest exhausted =>
    refine ⟨offsetOf data rest, offsetOf_le _ _, ?_, fun _ => rfl⟩
    cases count with
    | zero => simp [forRange]
    | succ count =>
      have short : rest.length < 3 := by
        rcases rest with _ | ⟨b, _ | ⟨g, _ | ⟨r, rest⟩⟩⟩
        · simp
        · simp
        · simp
        · exact (exhausted count b g r rest rfl rfl).elim
      rw [forRange, literalPixel_leave bounded small (offsetOf_le _ _) fits
        (.inl (by simp only [offsetOf]; omega))]
      simp

end Literals

/-! ## Run lengths -/

def runLengthByte (data : Bytes) (state : Nat × Nat) :
    Outcome ε (Flow (Nat × Nat) (Nat × Nat)) := do
  let (dataOffset, length) := state
  if dataOffset ≥ data.length then
    return .leave (dataOffset, length)
  else
    let b ← readAt data dataOffset
    let dataOffset ← addUsize dataOffset 1
    let length ← addUsize length b.toNat
    if b ≠ 255 then
      return .leave (dataOffset, length)
    else
      return .next (dataOffset, length)

def runLength (data : Bytes) (dataOffset length : Nat) : Outcome ε (Nat × Nat) :=
  loop (runLengthByte data) (data.length - dataOffset + 1) (dataOffset, length)

def takeRun : Nat → Bytes → Nat × Bytes
  | length, [] => (length, [])
  | length, b :: rest =>
    if b ≠ 255 then (length + b.toNat, rest) else takeRun (length + b.toNat) rest

theorem le_takeRun (length : Nat) (bytes : Bytes) : length ≤ (takeRun length bytes).1 := by
  fun_induction takeRun length bytes with
  | case1 => exact le_rfl
  | case2 => simp
  | case3 length byte rest _ ih => exact (Nat.le_add_right length byte.toNat).trans ih

theorem takeRun_suffix (length : Nat) (bytes : Bytes) :
    (takeRun length bytes).2 <:+ bytes := by
  fun_induction takeRun length bytes with
  | case1 => exact suffix_rfl
  | case2 length byte rest => exact suffix_cons byte rest
  | case3 length byte rest _ ih => exact ih.trans (suffix_cons byte rest)

variable {rest : Bytes}

theorem loop_runLengthByte (bounded : data.length < 2 ^ 63)
    (suffix : rest <:+ data) {length rounds : Nat} (representable : length < 2 ^ 64)
    (enough : rest.length < rounds) :
    (loop (runLengthByte data) rounds (offsetOf data rest, length) : Outcome ε (Nat × Nat)) =
      if (takeRun length rest).1 < 2 ^ 64 then
        .ok (offsetOf data (takeRun length rest).2, (takeRun length rest).1)
      else
        .fault .overflow := by
  obtain ⟨rounds, rfl⟩ : ∃ fewer, rounds = fewer + 1 := ⟨rounds - 1, by omega⟩
  induction rest generalizing length rounds with
  | nil =>
    rw [takeRun, if_pos representable]
    simp [loop, runLengthByte]
  | cons byte rest ih =>
    have inside := offsetOf_cons_lt suffix
    simp only [length_cons] at enough
    simp only [loop, runLengthByte, ge_iff_le, if_neg (Nat.not_le.mpr inside),
      readAt_offsetOf suffix, addUsize_offsetOf bounded suffix, ok_bind, pure_eq]
    by_cases fits : length + byte.toNat < 2 ^ 64
    · rw [addUsize_ok fits, ok_bind]
      by_cases final : byte ≠ 255
      · simp only [takeRun, if_pos final, if_pos fits, ok_bind]
      · obtain ⟨rounds, rfl⟩ : ∃ fewer, rounds = fewer + 1 := ⟨rounds - 1, by omega⟩
        simp only [takeRun, if_neg final, ok_bind]
        exact ih (suffix_of_cons suffix) fits rounds (by omega)
    · have summed : length + byte.toNat ≤ (takeRun length (byte :: rest)).1 := by
        rw [takeRun]
        split
        · exact le_rfl
        · exact le_takeRun _ rest
      rw [addUsize_fault (by omega), fault_bind, fault_bind, if_neg (by omega)]

def matchLength (data : Bytes) (ctrl : UInt8) (dataOffset : Nat) : Outcome ε (Nat × Nat) :=
  let length := (ctrl >>> 5).toNat
  if length = 7 then runLength data dataOffset length else .ok (dataOffset, length)

def takeLength (ctrl : UInt8) (bytes : Bytes) : Nat × Bytes :=
  if (ctrl >>> 5).toNat = 7 then takeRun 7 bytes else ((ctrl >>> 5).toNat, bytes)

theorem takeLength_suffix (ctrl : UInt8) (bytes : Bytes) :
    (takeLength ctrl bytes).2 <:+ bytes := by
  rw [takeLength]
  split
  · exact takeRun_suffix 7 bytes
  · exact suffix_rfl

theorem takeLength_pos {ctrl : UInt8} (reference : ¬ ctrl < lzMaxCopy) (bytes : Bytes) :
    0 < (takeLength ctrl bytes).1 := by
  have ctrl_ge : 32 ≤ ctrl.toNat := by
    simpa [lzMaxCopy, UInt8.lt_iff_toNat_lt] using reference
  rw [takeLength]
  split
  · have seven := le_takeRun 7 bytes
    omega
  · simp only [UInt8.toNat_shiftRight, Nat.shiftRight_eq_div_pow]
    have five : (5 : UInt8).toNat % 8 = 5 := rfl
    rw [five]
    omega

theorem matchLength_eq (bounded : data.length < 2 ^ 63) (suffix : rest <:+ data)
    (ctrl : UInt8) :
    (matchLength data ctrl (offsetOf data rest) : Outcome ε (Nat × Nat)) =
      if (takeLength ctrl rest).1 < 2 ^ 64 then
        .ok (offsetOf data (takeLength ctrl rest).2, (takeLength ctrl rest).1)
      else
        .fault .overflow := by
  have ctrl_lt : (ctrl >>> 5).toNat < 256 := (ctrl >>> 5).toNat_lt
  simp only [matchLength, takeLength]
  by_cases extended : (ctrl >>> 5).toNat = 7
  · simp only [extended, if_true]
    refine loop_runLengthByte bounded suffix (by omega) ?_
    have shorter := suffix.length_le
    rw [offsetOf]
    omega
  · simp only [if_neg extended]
    rw [if_pos (by omega)]

/-! ## References into the current image -/

def copyByteWithin (output : Bytes) (target source : Nat) : Outcome ε Bytes := do
  writeAt output target (← readAt output source)

def copyPixelWithin (output : Bytes) (outIdx src : Nat) : Outcome ε Bytes := do
  let output ← copyByteWithin output outIdx src
  let output ← copyByteWithin output (← addUsize outIdx 1) (← addUsize src 1)
  let output ← copyByteWithin output (← addUsize outIdx 2) (← addUsize src 2)
  copyByteWithin output (← addUsize outIdx 3) (← addUsize src 3)

/-- Offsets of a running copy, and the output buffer. -/
structure CopyState where
  outIdx : Nat
  /-- Offset of the next byte to read. -/
  src : Nat
  output : Bytes

def repeatPixel (outputSize : Nat) (state : CopyState) :
    Outcome ε (Flow CopyState CopyState) := do
  let outEnd ← addUsize state.outIdx 4
  if outEnd > outputSize ∨ state.src ≥ state.output.length then
    return .leave state
  else
    let output ← copyPixelWithin state.output state.outIdx state.src
    return .next { state with outIdx := outEnd, output }

def advancePixel (outputSize : Nat) (state : CopyState) :
    Outcome ε (Flow CopyState CopyState) := do
  let outEnd ← addUsize state.outIdx 4
  if outEnd > outputSize then
    return .leave state
  else
    let srcEnd ← addUsize state.src 4
    if srcEnd > state.output.length then
      return .leave state
    else
      let output ← copyPixelWithin state.output state.outIdx state.src
      return .next { outIdx := outEnd, src := srcEnd, output }

def copySelf (outputSize length pixelOffset outIdx : Nat) (output : Bytes) :
    Outcome ε (Nat × Bytes) := do
  let src := wrappingSub 64 outIdx (← mulUsize pixelOffset 4)
  let copied ← if pixelOffset = 1 then
      forRange (repeatPixel outputSize) length { outIdx, src, output }
    else
      forRange (advancePixel outputSize) length { outIdx, src, output }
  return (copied.outIdx, copied.output)

theorem copyPixelWithin_flat {index : Nat} {pixel : Rgba} (present : pixels[index]? = some pixel)
    (fits : 4 * pixels.length + 4 < 2 ^ 64) (w x y z : UInt8) (rest : Bytes) :
    (copyPixelWithin (flat pixels ++ w :: x :: y :: z :: rest) (4 * pixels.length) (4 * index) :
        Outcome ε Bytes) =
      .ok (flat pixels ++ pixel.r :: pixel.g :: pixel.b :: pixel.a :: rest) := by
  have earlier : index < pixels.length := (List.getElem?_eq_some_iff.mp present).1
  have source := getElem?_flat_append present
  simp (disch := first | omega | simp) only [copyPixelWithin, copyByteWithin, addUsize_ok,
    ok_bind, readAt_of_getElem? (source _).1, readAt_of_getElem? (source _).2.1,
    readAt_of_getElem? (source _).2.2.1, readAt_of_getElem? (source _).2.2.2,
    writeAt_append_cons (length_flat pixels), writeAt_append (length_flat pixels), List.set]

/-- What a reference into the current image does to the pixels written so far. -/
def selfCopy (total : Nat) (pixels : List Rgba) (distance length : Nat) : Outcome ε (List Rgba) :=
  if distance ≤ pixels.length then
    .ok (copyBack pixels distance (min length (total - pixels.length)))
  else if distance = pixels.length + 1 ∧ distance ≠ 1 then
    .fault .overflow
  else
    .ok pixels

section Copies

variable {total : Nat} (small : total ≤ maxImagePixels)
include small

variable {index : Nat}

section

variable {pixels : List Rgba} {pixel : Rgba} (room : pixels.length < total)
  (present : pixels[index]? = some pixel)
include room present

theorem repeatPixel_next :
    (repeatPixel (4 * total) ⟨4 * pixels.length, 4 * index, canvas total pixels⟩ :
        Outcome ε (Flow CopyState CopyState)) =
      .ok (.next ⟨4 * (pixels.length + 1), 4 * index, canvas total (pixels ++ [pixel])⟩) := by
  have earlier : index < pixels.length := (List.getElem?_eq_some_iff.mp present).1
  have total_le : total ≤ 67108864 := small
  have size := length_canvas room.le
  rw [repeatPixel, addUsize_ok (by simp only; omega), ok_bind, if_neg (by simp only; omega)]
  rw [canvas_snoc, canvas_of_lt room]
  simp only [copyPixelWithin_flat present (by omega), ok_bind, pure_eq, Nat.mul_succ]

theorem advancePixel_next :
    (advancePixel (4 * total) ⟨4 * pixels.length, 4 * index, canvas total pixels⟩ :
        Outcome ε (Flow CopyState CopyState)) =
      .ok (.next ⟨4 * (pixels.length + 1), 4 * (index + 1), canvas total (pixels ++ [pixel])⟩) := by
  have earlier : index < pixels.length := (List.getElem?_eq_some_iff.mp present).1
  have total_le : total ≤ 67108864 := small
  have size := length_canvas room.le
  rw [advancePixel, addUsize_ok (by simp only; omega), ok_bind, if_neg (by simp only; omega),
    addUsize_ok (by simp only; omega), ok_bind, if_neg (by simp only; omega)]
  rw [canvas_snoc, canvas_of_lt room]
  simp only [copyPixelWithin_flat present (by omega), ok_bind, pure_eq, Nat.mul_succ]

end

theorem forRange_repeatPixel (count : Nat) (fits : pixels.length ≤ total)
    {pixel : Rgba} (present : pixels[index]? = some pixel)
    (last : pixels[pixels.length - 1]? = some pixel) : (forRange (repeatPixel (4 * total)) count
        ⟨4 * pixels.length, 4 * index, canvas total pixels⟩ : Outcome ε CopyState) =
      .ok ⟨4 * (copyBack pixels 1 (min count (total - pixels.length))).length, 4 * index,
        canvas total (copyBack pixels 1 (min count (total - pixels.length)))⟩ := by
  have total_le : total ≤ 67108864 := small
  have earlier : index < pixels.length := (List.getElem?_eq_some_iff.mp present).1
  induction count generalizing pixels with
  | zero => simp [forRange]
  | succ count ih =>
    by_cases room : pixels.length < total
    · have steps : min (count + 1) (total - pixels.length) =
          min count (total - (pixels ++ [pixel]).length) + 1 := by
        simp only [length_append, length_singleton]
        omega
      rw [forRange, repeatPixel_next small room present, steps, copyBack_succ last]
      rw [show pixels.length + 1 = (pixels ++ [pixel]).length by simp]
      apply ih
      · simp only [length_append, length_singleton]
        omega
      · rw [getElem?_append_left earlier, present]
      · simp
      · simp only [length_append, length_singleton]
        omega
    · have full : total - pixels.length = 0 := by omega
      rw [forRange, repeatPixel, addUsize_ok (by simp only; omega), ok_bind,
        if_pos (.inl (by simp only; omega))]
      simp [full]

theorem forRange_advancePixel (count : Nat) (fits : pixels.length ≤ total)
    {distance : Nat} (positive : 0 < distance) (inside : distance ≤ pixels.length) :
    (forRange (advancePixel (4 * total)) count
        ⟨4 * pixels.length, 4 * (pixels.length - distance), canvas total pixels⟩ :
          Outcome ε CopyState) =
      .ok ⟨4 * (copyBack pixels distance (min count (total - pixels.length))).length,
        4 * ((copyBack pixels distance (min count (total - pixels.length))).length - distance),
        canvas total (copyBack pixels distance (min count (total - pixels.length)))⟩ := by
  have total_le : total ≤ 67108864 := small
  induction count generalizing pixels with
  | zero => simp [forRange]
  | succ count ih =>
    obtain ⟨pixel, present⟩ := exists_source positive inside
    by_cases room : pixels.length < total
    · have steps : min (count + 1) (total - pixels.length) =
          min count (total - (pixels ++ [pixel]).length) + 1 := by
        simp only [length_append, length_singleton]
        omega
      rw [forRange, advancePixel_next small room present, steps, copyBack_succ present]
      rw [show pixels.length - distance + 1 = (pixels ++ [pixel]).length - distance by
          simp only [length_append, length_singleton]
          omega,
        show pixels.length + 1 = (pixels ++ [pixel]).length by simp]
      apply ih
      · simp only [length_append, length_singleton]
        omega
      · simp only [length_append, length_singleton]
        omega
    · have full : total - pixels.length = 0 := by omega
      rw [forRange, advancePixel, addUsize_ok (by simp only; omega), ok_bind,
        if_pos (by simp only; omega)]
      simp [full]

theorem copySelf_canvas (room : pixels.length < total) {distance : Nat}
    (positive : 0 < distance) (near : distance ≤ 2 ^ 32) {length : Nat} (nonempty : 0 < length) :
    (copySelf (4 * total) length distance (4 * pixels.length) (canvas total pixels) :
        Outcome ε (Nat × Bytes)) = selfCopy total pixels distance length >>= fun copied =>
        .ok (4 * copied.length, canvas total copied) := by
  have total_le : total ≤ 67108864 := small
  have size := length_canvas room.le
  obtain ⟨count, rfl⟩ : ∃ count, length = count + 1 := ⟨length - 1, by omega⟩
  rw [copySelf, mulUsize_ok (by omega), ok_bind, selfCopy]
  by_cases inside : distance ≤ pixels.length
  · rw [wrappingSub_of_le (by omega) (by omega), if_pos inside,
      show 4 * pixels.length - distance * 4 = 4 * (pixels.length - distance) by omega]
    by_cases adjacent : distance = 1
    · subst adjacent
      obtain ⟨pixel, last⟩ := exists_source positive inside
      rw [if_pos rfl, forRange_repeatPixel small _ room.le last last]
      rfl
    · rw [if_neg adjacent, forRange_advancePixel small _ room.le positive inside]
      rfl
  · rw [wrappingSub_of_lt (by omega) (by omega), if_neg inside]
    by_cases adjacent : distance = 1
    · have first : ¬ (distance = pixels.length + 1 ∧ distance ≠ 1) := by omega
      rw [if_pos adjacent, if_neg first, forRange, repeatPixel,
        addUsize_ok (by simp only; omega), ok_bind, if_pos (.inr (by simp only; omega))]
      rfl
    · rw [if_neg adjacent, forRange, advancePixel, addUsize_ok (by simp only; omega),
        ok_bind, if_neg (by simp only; omega)]
      by_cases boundary : distance = pixels.length + 1
      · rw [addUsize_fault (by simp only; omega), if_pos ⟨boundary, adjacent⟩]
        rfl
      · rw [addUsize_ok (by simp only; omega), ok_bind, if_pos (by simp only; omega),
          if_neg (fun both => boundary both.1)]
        rfl

end Copies

end Ryll
