import Ryll.Compression.Rows
import Ryll.Compression.Segments

/-!
# The GLZ decoder

GLZ extends LZ by references into earlier images, which the decoder looks up in a shared
dictionary.  What a lookup finds is a parameter of the decoder, given separately for each lookup
since other channels change the dictionary while the decoder runs.
-/

namespace Ryll

open Option

/-- The header of an image. -/
structure GlzHeader where
  topDown : Bool
  width : Nat
  height : Nat
  imageId : Nat
  /-- Distance to the oldest image that later images may refer to. -/
  winHeadDist : Nat

def glzHeaderLen : Nat := 33

variable (data : Bytes)

def GlzHeader.read : Outcome StreamError GlzHeader := do
  let rest ← readPreamble glzHeaderLen data
  let (typePacked, rest) ← readBigEndian .endOfData 1 rest
  let (width, rest) ← readBigEndian .endOfData 4 rest
  let (height, rest) ← readBigEndian .endOfData 4 rest
  let (_stride, rest) ← readBigEndian .endOfData 4 rest
  let (imageId, rest) ← readBigEndian .endOfData 8 rest
  let (winHeadDist, _) ← readBigEndian .endOfData 4 rest
  return { topDown := (typePacked >>> 4) &&& 1 ≠ 0, width, height, imageId, winHeadDist }

/-- What the dictionary answers to one reference. -/
structure GlzLookup where
  /-- The immediate lookup. -/
  get : Option Slice
  /-- Whether the byte cap dropped the image. -/
  wasEvicted : Bool
  /-- What waiting for the image yields before the deadline. -/
  awaited : Option Slice

/-- The pixels a reference is resolved to, waiting only for an image that may still come. -/
def GlzLookup.resolve (lookup : GlzLookup) : Option Slice :=
  match lookup.get with
  | some pixels => some pixels
  | none => if lookup.wasEvicted then none else lookup.awaited

/-- The state of the loop, with the lookups made. -/
structure GlzState extends LzState where
  references : Nat

def imageDistByte (base : Nat) (state : Nat × Nat × Nat) :
    Outcome StreamError (Flow (Nat × Nat × Nat) (Nat × Nat × Nat)) := do
  let (i, dataOffset, imageDist) := state
  if dataOffset ≥ data.length then
    return .leave state
  else
    let b ← readAt data dataOffset
    let dataOffset ← addUsize dataOffset 1
    let imageDist ← addUsize imageDist (b.toNat <<< (base + 8 * i))
    return .next (i + 1, dataOffset, imageDist)

def glzReference (ctrl : UInt8) (dataOffset : Nat) :
    Outcome StreamError (Option (Nat × Nat × Nat)) := do
  let pixelFlag := (ctrl >>> 4) &&& 1
  let pixelOffset := (ctrl &&& 0x0F).toNat
  if dataOffset ≥ data.length then
    return none
  else
    let code1 ← readAt data dataOffset
    let dataOffset ← addUsize dataOffset 1
    let pixelOffset ← addUsize pixelOffset (code1.toNat <<< 4)
    if dataOffset ≥ data.length then
      return none
    else
      let code2 ← readAt data dataOffset
      let dataOffset ← addUsize dataOffset 1
      let imageFlag := ((code2 >>> 6) &&& 3).toNat
      if pixelFlag = 0 then
        let (_, dataOffset, imageDist) ← forRange (imageDistByte data 6) imageFlag
          (0, dataOffset, (code2 &&& 0x3F).toNat)
        return some (dataOffset, pixelOffset, imageDist)
      else
        let pf2 := (code2 >>> 5) &&& 1
        let pixelOffset ← addUsize pixelOffset ((code2 &&& 0x1F).toNat <<< 12)
        let (_, dataOffset, imageDist) ← forRange (imageDistByte data 0) imageFlag
          (0, dataOffset, 0)
        if pf2 ≠ 0 then
          if dataOffset ≥ data.length then
            return none
          else
            let b ← readAt data dataOffset
            let dataOffset ← addUsize dataOffset 1
            let pixelOffset ← addUsize pixelOffset (b.toNat <<< 17)
            return some (dataOffset, pixelOffset, imageDist)
        else
          return some (dataOffset, pixelOffset, imageDist)

def foreignPixel (prevPixels : Bytes) (outputSize : Nat) (state : CopyState) :
    Outcome StreamError (Flow CopyState CopyState) := do
  let outEnd ← addUsize state.outIdx 4
  if outEnd > outputSize then
    return .leave state
  else
    let srcEnd ← addUsize state.src 4
    if srcEnd > prevPixels.length then
      return .leave state
    else
      let output ← writeAt state.output state.outIdx (← readAt prevPixels state.src)
      let output ← writeAt output (← addUsize state.outIdx 1)
        (← readAt prevPixels (← addUsize state.src 1))
      let output ← writeAt output (← addUsize state.outIdx 2)
        (← readAt prevPixels (← addUsize state.src 2))
      let output ← writeAt output (← addUsize state.outIdx 3)
        (← readAt prevPixels (← addUsize state.src 3))
      return .next { outIdx := outEnd, src := srcEnd, output }

def copyForeign (prevPixels : Bytes) (outputSize length pixelOffset outIdx : Nat)
    (output : Bytes) : Outcome StreamError (Nat × Bytes) := do
  let piIdx ← mulUsize pixelOffset 4
  let copied ← forRange (foreignPixel prevPixels outputSize) length
    { outIdx, src := piIdx, output }
  return (copied.outIdx, copied.output)

def glzCopy (outputSize imageId : Nat) (dictionary : Nat → Nat → GlzLookup)
    (length dataOffset pixelOffset imageDist : Nat) (state : GlzState) :
    Outcome StreamError GlzState := do
  if imageDist = 0 then
    let pixelOffset ← addUsize pixelOffset 1
    let (outIdx, output) ← copySelf outputSize length pixelOffset state.outIdx state.output
    return { state with dataOffset, outIdx, output }
  else
    let sourceId := wrappingSub 64 imageId imageDist
    let references := state.references + 1
    match (dictionary state.references sourceId).resolve with
    | none =>
      let outIdx ← addUsize state.outIdx (← mulUsize length 4)
      return { state with dataOffset, outIdx, references }
    | some prevPixels =>
      let (outIdx, output) ← copyForeign prevPixels.bytes outputSize length pixelOffset
        state.outIdx state.output
      return { dataOffset, outIdx, output, references }

def glzRound (outputSize imageId : Nat) (dictionary : Nat → Nat → GlzLookup)
    (state : GlzState) : Outcome StreamError (Flow GlzState GlzState) := do
  if state.outIdx < outputSize ∧ state.dataOffset < data.length then
    let ctrl ← readAt data state.dataOffset
    let dataOffset ← addUsize state.dataOffset 1
    if ctrl < lzMaxCopy then
      let drawn ← forRange (literalPixel data outputSize) (ctrl.toNat + 1)
        { state.toLzState with dataOffset }
      return .next { drawn with references := state.references }
    else
      let (dataOffset, length) ← matchLength data ctrl dataOffset
      match ← glzReference data ctrl dataOffset with
      | none => return .leave state
      | some (dataOffset, pixelOffset, imageDist) =>
        let state ← glzCopy outputSize imageId dictionary length dataOffset pixelOffset
          imageDist state
        return .next state
  else
    return .leave state

/-- Decode a GLZ image. -/
def decompressGlz (data : Slice) (dictionary : Nat → Nat → GlzLookup) :
    Outcome StreamError DecompressedImage := do
  let header ← GlzHeader.read data.bytes
  match rgbaLen header.width header.height with
  | none => .error (.dimensionsRefused header.width header.height)
  | some outputSize =>
    let state ← loop (glzRound data.bytes outputSize header.imageId dictionary)
      (data.bytes.length + 1)
      { dataOffset := glzHeaderLen, outIdx := 0, output := List.replicate outputSize 0,
        references := 0 }
    finishImage header.topDown header.width header.height header.imageId header.winHeadDist
      state.output

/-! ## The segments of a GLZ stream -/

def takeImageDist (base : Nat) : Nat → Nat → Nat → Bytes → Nat × Bytes
  | count + 1, i, imageDist, b :: rest =>
    takeImageDist base count (i + 1) (imageDist + b.toNat <<< (base + 8 * i)) rest
  | _, _, imageDist, rest => (imageDist, rest)

/-- The optional third byte of an offset. -/
def takeHighOffset (present : Prop) [Decidable present] (pixelOffset imageDist : Nat) :
    Bytes → Option (Nat × Nat × Bytes)
  | [] => if present then none else some (pixelOffset, imageDist, [])
  | b :: rest =>
    if present then some (pixelOffset + b.toNat <<< 17, imageDist, rest)
    else some (pixelOffset, imageDist, b :: rest)

def takeGlzReference (ctrl : UInt8) : Bytes → Option (Nat × Nat × Bytes)
  | code1 :: code2 :: rest =>
    let pixelOffset := (ctrl &&& 0x0F).toNat + code1.toNat <<< 4
    let imageFlag := ((code2 >>> 6) &&& 3).toNat
    if (ctrl >>> 4) &&& 1 = 0 then
      let (imageDist, rest) := takeImageDist 6 imageFlag 0 (code2 &&& 0x3F).toNat rest
      some (pixelOffset, imageDist, rest)
    else
      let (imageDist, rest) := takeImageDist 0 imageFlag 0 0 rest
      takeHighOffset ((code2 >>> 5) &&& 1 ≠ 0)
        (pixelOffset + (code2 &&& 0x1F).toNat <<< 12) imageDist rest
  | _ => none

def referenceSegment (length pixelOffset imageDist : Nat) : Segment :=
  if imageDist = 0 then .selfMatch length (pixelOffset + 1)
  else .crossMatch length imageDist pixelOffset

def takeGlzMatch (ctrl : UInt8) (length : Nat) (bytes : Bytes) :
    Option (Segment × Bytes) :=
  (takeGlzReference ctrl bytes).map fun (pixelOffset, imageDist, rest) =>
    (referenceSegment length pixelOffset imageDist, rest)

def glzNext : Bytes → Option (Segment × Bytes) := nextSegment takeGlzMatch

def glzSegments (bytes : Bytes) : List Segment := segmentsOf glzNext bytes.length bytes

theorem takeImageDist_suffix (base count i imageDist : Nat) (bytes : Bytes) :
    (takeImageDist base count i imageDist bytes).2 <:+ bytes := by
  fun_induction takeImageDist base count i imageDist bytes with
  | case1 count i imageDist b rest ih => exact ih.trans (List.suffix_cons b rest)
  | case2 => exact List.suffix_rfl

variable {imageDist pixelOffset : Nat} {rest bytes : Bytes}

theorem forRange_imageDistByte {data : Bytes} (bounded : data.length < 2 ^ 63)
    (base count : Nat) {i : Nat} (shallow : base + 8 * (i + count) ≤ 63)
    (below : imageDist < 2 ^ (base + 8 * i)) (suffix : rest <:+ data) :
    ∃ last, forRange (imageDistByte data base) count (i, offsetOf data rest, imageDist) =
      .ok (last, offsetOf data (takeImageDist base count i imageDist rest).2,
        (takeImageDist base count i imageDist rest).1) := by
  fun_induction takeImageDist base count i imageDist rest with
  | case1 count i imageDist b rest ih =>
    have b_lt := b.toNat_lt
    have inside := offsetOf_cons_lt suffix
    have grown : imageDist + b.toNat <<< (base + 8 * i) < 2 ^ (base + 8 * (i + 1)) := by
      have scaled : (b.toNat + 1) * 2 ^ (base + 8 * i) ≤ 2 ^ 8 * 2 ^ (base + 8 * i) :=
        Nat.mul_le_mul_right _ b_lt
      rw [Nat.succ_mul] at scaled
      rw [Nat.shiftLeft_eq, show base + 8 * (i + 1) = 8 + (base + 8 * i) by omega, Nat.pow_add 2 8]
      omega
    have representable : imageDist + b.toNat <<< (base + 8 * i) < 2 ^ 64 :=
      grown.trans (Nat.pow_lt_pow_right (by omega) (by omega))
    obtain ⟨last, run⟩ := ih (by omega) grown (suffix_of_cons suffix)
    refine ⟨last, ?_⟩
    rw [forRange]
    simp only [imageDistByte, ge_iff_le, if_neg (Nat.not_le.mpr inside), readAt_offsetOf suffix,
      addUsize_offsetOf bounded suffix, ok_bind, addUsize_ok representable, pure_eq]
    exact run
  | case2 count i imageDist rest exhausted =>
    cases count with
    | zero => exact ⟨i, rfl⟩
    | succ count =>
      cases rest with
      | nil => exact ⟨i, by simp [forRange, imageDistByte]⟩
      | cons b rest => exact (exhausted count b rest rfl rfl).elim

theorem masked_lt (value mask : UInt8) {bits : Nat} (mask_lt : mask.toNat < 2 ^ bits) :
    (value &&& mask).toNat < 2 ^ bits := by
  exact Nat.and_lt_two_pow _ mask_lt

theorem takeHighOffset_spec {present : Prop} [Decidable present] {low : Nat} (low_lt : low < 2 ^ 17)
    {imageDist' : Nat}
    (taken : takeHighOffset present low imageDist bytes = some (pixelOffset, imageDist', rest)) :
    pixelOffset < 2 ^ 25 ∧ rest <:+ bytes := by
  cases bytes with
  | nil =>
    obtain ⟨-, taken⟩ := ite_none_left_eq_some.mp taken
    simp only [some.injEq, Prod.mk.injEq] at taken
    obtain ⟨rfl, rfl, rfl⟩ := taken
    exact ⟨by omega, List.suffix_rfl⟩
  | cons b bytes =>
    have b_lt := b.toNat_lt
    rw [takeHighOffset] at taken
    split at taken
    · simp only [some.injEq, Prod.mk.injEq] at taken
      obtain ⟨rfl, rfl, rfl⟩ := taken
      exact ⟨by omega, List.suffix_cons b bytes⟩
    · simp only [some.injEq, Prod.mk.injEq] at taken
      obtain ⟨rfl, rfl, rfl⟩ := taken
      exact ⟨by omega, List.suffix_rfl⟩

theorem takeGlzReference_spec {ctrl : UInt8}
    (taken : takeGlzReference ctrl bytes = some (pixelOffset, imageDist, rest)) :
    pixelOffset < 2 ^ 25 ∧ rest <:+ bytes := by
  rcases bytes with _ | ⟨code1, _ | ⟨code2, bytes⟩⟩
  · simp [takeGlzReference] at taken
  · simp [takeGlzReference] at taken
  · have nibble : (ctrl &&& 0x0F).toNat < 2 ^ 4 := masked_lt _ _ (by decide)
    have middle : (code2 &&& 0x1F).toNat < 2 ^ 5 := masked_lt _ _ (by decide)
    have code1_lt := code1.toNat_lt
    have behind : ∀ {after : Bytes}, after <:+ bytes → after <:+ code1 :: code2 :: bytes :=
      fun suffix => suffix.trans ⟨[code1, code2], rfl⟩
    simp only [takeGlzReference] at taken
    split at taken
    · simp only [some.injEq, Prod.mk.injEq] at taken
      obtain ⟨rfl, rfl, rfl⟩ := taken
      exact ⟨by omega, behind (takeImageDist_suffix _ _ _ _ bytes)⟩
    · obtain ⟨small, suffix⟩ := takeHighOffset_spec (by
        omega) taken
      exact ⟨small, behind (suffix.trans (takeImageDist_suffix _ _ _ _ bytes))⟩

theorem glzReference_eq {data : Bytes} (bounded : data.length < 2 ^ 63) (ctrl : UInt8)
    (suffix : rest <:+ data) : glzReference data ctrl (offsetOf data rest) =
      .ok ((takeGlzReference ctrl rest).map fun (pixelOffset, imageDist, rest) =>
        (offsetOf data rest, pixelOffset, imageDist)) := by
  rcases rest with _ | ⟨code1, rest⟩
  · simp [glzReference, takeGlzReference]
  have nibble : (ctrl &&& 0x0F).toNat < 2 ^ 4 := masked_lt _ _ (by decide)
  have code1_lt := code1.toNat_lt
  have inside := offsetOf_cons_lt suffix
  have suffix₂ := suffix_of_cons suffix
  simp (disch := omega) only [glzReference, ge_iff_le, if_neg, readAt_offsetOf suffix,
    addUsize_offsetOf bounded suffix, ok_bind, addUsize_ok, pure_eq]
  rcases rest with _ | ⟨code2, rest⟩
  · simp [takeGlzReference]
  have inside₂ := offsetOf_cons_lt suffix₂
  have suffix₃ := suffix_of_cons suffix₂
  have flag : ((code2 >>> 6) &&& 3).toNat < 2 ^ 2 := masked_lt _ _ (by decide)
  have middle : (code2 &&& 0x1F).toNat < 2 ^ 5 := masked_lt _ _ (by decide)
  simp (disch := omega) only [if_neg, readAt_offsetOf suffix₂,
    offsetOf_cons suffix₂, ok_bind, takeGlzReference]
  by_cases short : (ctrl >>> 4) &&& 1 = 0
  · obtain ⟨last, run⟩ := forRange_imageDistByte bounded 6 ((code2 >>> 6) &&& 3).toNat
      (by omega) (i := 0) (masked_lt code2 0x3F (by decide)) suffix₃
    simp only [if_pos short, run, ok_bind, map_some]
  obtain ⟨last, run⟩ := forRange_imageDistByte bounded 0 ((code2 >>> 6) &&& 3).toNat
    (by omega) (i := 0) (show 0 < 2 ^ (0 + 8 * 0) by decide) suffix₃
  simp (disch := omega) only [if_neg short, addUsize_ok, run, ok_bind]
  have suffix₄ := (takeImageDist_suffix 0 ((code2 >>> 6) &&& 3).toNat 0 0 rest).trans suffix₃
  generalize takeImageDist 0 ((code2 >>> 6) &&& 3).toNat 0 0 rest = dist at suffix₄ ⊢
  obtain ⟨imageDist, after⟩ := dist
  by_cases high : (code2 >>> 5) &&& 1 ≠ 0
  · rcases after with _ | ⟨b, after⟩
    · simp [takeHighOffset, high]
    · have inside₄ := offsetOf_cons_lt suffix₄
      have b_lt := b.toNat_lt
      have whole : (ctrl &&& 0x0F).toNat + code1.toNat <<< 4 + (code2 &&& 0x1F).toNat <<< 12 +
          b.toNat <<< 17 < 2 ^ 64 := by
        omega
      simp only [if_pos high, if_neg (Nat.not_le.mpr inside₄), readAt_offsetOf suffix₄,
        addUsize_ok whole, offsetOf_cons suffix₄, ok_bind, takeHighOffset, map_some]
  · rcases after with _ | ⟨b, after⟩ <;> simp [takeHighOffset, high]

theorem glzNext_spec {segment : Segment} (read : glzNext bytes = some (segment, rest)) :
    rest.length < bytes.length ∧ segment.WellFormed := by
  refine nextSegment_spec (fun ctrl length bytes segment rest nonempty taken => ?_) read
  obtain ⟨⟨pixelOffset, imageDist, after⟩, found, result⟩ := map_eq_some_iff.mp taken
  obtain ⟨near, suffix⟩ := takeGlzReference_spec found
  cases result
  refine ⟨suffix, ?_⟩
  rw [referenceSegment]
  split
  · exact ⟨nonempty, by omega, by omega⟩
  · trivial

theorem glzSegments_wellFormed (bytes : Bytes) :
    ∀ segment ∈ glzSegments bytes, segment.WellFormed :=
  segmentsOf_wellFormed (fun _ _ _ read => (glzNext_spec read).2) bytes.length bytes

end Ryll
