import Ryll.Compression.Glz

/-!
# The GLZ wire encoding

An encoder for images given as literal runs and matches, in the form servers write: the short
offset form below 4096, the extended one above, with as many distance bytes as the distance needs.
Reading an encoded token returns the segment it stands for.
-/

namespace Ryll

open List

/-- A pixel of the stream, in stream order. -/
structure Bgr where
  b : UInt8
  g : UInt8
  r : UInt8

namespace Bgr

def bytes (pixel : Bgr) : Bytes := [pixel.b, pixel.g, pixel.r]

def rgba (pixel : Bgr) : Rgba := ⟨pixel.r, pixel.g, pixel.b, 255⟩

end Bgr

/-- What an encoder emits. -/
inductive GlzToken
  | literal (pixels : List Bgr)
  | selfMatch (length distance : Nat)
  | crossMatch (length imageDist pixelOffset : Nat)

namespace GlzToken

def segment : GlzToken → Segment
  | .literal pixels => .literal (pixels.map Bgr.rgba)
  | .selfMatch length distance => .selfMatch length distance
  | .crossMatch length imageDist pixelOffset => .crossMatch length imageDist pixelOffset

def length : GlzToken → Nat
  | .literal pixels => pixels.length
  | .selfMatch length _ => length
  | .crossMatch length _ _ => length

/-- The bounds that the format puts on a token by itself. -/
def WellFormed : GlzToken → Prop
  | .literal pixels => 1 ≤ pixels.length ∧ pixels.length ≤ 32
  | .selfMatch length distance => 1 ≤ length ∧ 1 ≤ distance
  | .crossMatch length imageDist _ => 1 ≤ length ∧ 1 ≤ imageDist

end GlzToken

/-- The three length bits of a control byte and the run bytes that extend them. -/
def encodeLength (length : Nat) : Nat × Bytes :=
  if length < 7 then (length, [])
  else (7, List.replicate ((length - 7) / 255) 255 ++ [UInt8.ofNat ((length - 7) % 255)])

def distanceBytes (value : Nat) : Nat :=
  if value = 0 then 0 else if value < 2 ^ 8 then 1 else if value < 2 ^ 16 then 2 else 3

/-- A match in the short form, after its length: 12 bits of offset, and a distance. -/
def encodeShort (pixelOffset imageDist : Nat) : Bytes :=
  let count := distanceBytes (imageDist / 64)
  UInt8.ofNat (pixelOffset / 16) :: UInt8.ofNat (64 * count + imageDist % 64) ::
    toLittleEndian count (imageDist / 64)

/-- A match in the extended form, after its length: 17 or 25 bits of offset, and a distance. -/
def encodeExtended (pixelOffset imageDist : Nat) : Bytes :=
  let count := distanceBytes imageDist
  let high := if pixelOffset < 2 ^ 17 then 0 else 1
  UInt8.ofNat (pixelOffset / 16 % 256) ::
    UInt8.ofNat (64 * count + 32 * high + pixelOffset / 4096 % 32) ::
      (toLittleEndian count imageDist ++
        if pixelOffset < 2 ^ 17 then [] else [UInt8.ofNat (pixelOffset / 2 ^ 17)])

def matchCtrl (length pixelOffset extended : Nat) : UInt8 :=
  UInt8.ofNat (32 * (encodeLength length).1 + 16 * extended + pixelOffset % 16)

def encodeMatch (length pixelOffset imageDist : Nat) : Option Bytes :=
  if pixelOffset < 4096 then
    if imageDist < 2 ^ 30 then
      some (matchCtrl length pixelOffset 0 :: (encodeLength length).2 ++
        encodeShort pixelOffset imageDist)
    else
      none
  else if pixelOffset < 2 ^ 25 ∧ imageDist < 2 ^ 24 then
    some (matchCtrl length pixelOffset 1 :: (encodeLength length).2 ++
      encodeExtended pixelOffset imageDist)
  else
    none

namespace GlzToken

def encode : GlzToken → Option Bytes
  | .literal pixels => some (UInt8.ofNat (pixels.length - 1) :: pixels.flatMap Bgr.bytes)
  | .selfMatch length distance => encodeMatch length (distance - 1) 0
  | .crossMatch length imageDist pixelOffset => encodeMatch length pixelOffset imageDist

def encodeAll : List GlzToken → Option Bytes
  | [] => some []
  | token :: tokens => do
    let first ← token.encode
    let rest ← encodeAll tokens
    return first ++ rest

end GlzToken

/-! ## Reading what was written -/

theorem takeLiterals_flatMap (pixels : List Bgr) (rest : Bytes) :
    takeLiterals pixels.length (pixels.flatMap Bgr.bytes ++ rest) =
      (pixels.map Bgr.rgba, rest) := by
  induction pixels with
  | nil => simp [takeLiterals]
  | cons pixel pixels ih => simp [takeLiterals, Bgr.bytes, Bgr.rgba, ih]

theorem takeRun_replicate (length count : Nat) (last : UInt8) (final : last ≠ 255)
    (rest : Bytes) : takeRun length (List.replicate count 255 ++ last :: rest) =
      (length + 255 * count + last.toNat, rest) := by
  induction count generalizing length with
  | zero => simp [takeRun, final]
  | succ count ih =>
    rw [replicate_succ, cons_append, takeRun, if_neg (by simp), ih]
    simp only [UInt8.reduceToNat, Prod.mk.injEq, and_true]
    ring

variable {ctrl : UInt8} {pixelOffset imageDist : Nat} {length : Nat} {bytes : Bytes}

theorem takeLength_encodeLength (bits : (ctrl >>> 5).toNat = (encodeLength length).1)
    (rest : Bytes) : takeLength ctrl ((encodeLength length).2 ++ rest) = (length, rest) := by
  rw [takeLength, bits, encodeLength]
  by_cases small : length < 7
  · simp only [if_pos small, nil_append]
    rw [if_neg (by omega)]
  have digit : (UInt8.ofNat ((length - 7) % 255)).toNat = (length - 7) % 255 := by
    rw [UInt8.toNat_ofNat']
    omega
  have final : UInt8.ofNat ((length - 7) % 255) ≠ 255 := by
    intro full
    have value := congrArg UInt8.toNat full
    simp only [UInt8.reduceToNat] at value
    omega
  simp only [if_neg small, if_true, append_assoc, singleton_append]
  rw [takeRun_replicate _ _ _ final, digit]
  congr 1
  omega

theorem takeImageDist_toLittleEndian (base count i imageDist value : Nat)
    (fits : value < 256 ^ count) (rest : Bytes) :
    takeImageDist base count i imageDist (toLittleEndian count value ++ rest) =
      (imageDist + value <<< (base + 8 * i), rest) := by
  induction count generalizing i imageDist value with
  | zero =>
    have zero : value = 0 := by simpa using fits
    simp [toLittleEndian, takeImageDist, zero]
  | succ count ih =>
    have quotient : value / 256 < 256 ^ count := by
      exact Nat.div_lt_of_lt_mul (by omega)
    have digit : (UInt8.ofNat (value % 256)).toNat = value % 256 := by simp
    rw [toLittleEndian, cons_append, takeImageDist, ih _ _ _ quotient, digit]
    simp only [Nat.shiftLeft_eq, Prod.mk.injEq, and_true]
    rw [show base + 8 * (i + 1) = (base + 8 * i) + 8 by ring, Nat.pow_add _ _ 8]
    have split : value / 256 * 2 ^ 8 + value % 256 = value := by omega
    calc imageDist + value % 256 * 2 ^ (base + 8 * i) + value / 256 * (2 ^ (base + 8 * i) * 2 ^ 8)
        = imageDist + (value / 256 * 2 ^ 8 + value % 256) * 2 ^ (base + 8 * i) := by ring
      _ = imageDist + value * 2 ^ (base + 8 * i) := by rw [split]

theorem distanceBytes_le (value : Nat) : distanceBytes value ≤ 3 := by
  unfold distanceBytes
  split
  · omega
  · split
    · omega
    · split <;> omega

theorem lt_pow_distanceBytes {value : Nat} (fits : value < 2 ^ 24) :
    value < 256 ^ distanceBytes value := by
  unfold distanceBytes
  split
  · omega
  · split
    · omega
    · split
      · omega
      · omega

theorem toNat_masked (byte mask : UInt8) {bits : Nat} (ones : mask.toNat = 2 ^ bits - 1) :
    (byte &&& mask).toNat = byte.toNat % 2 ^ bits := by
  rw [UInt8.toNat_and, ones, Nat.and_two_pow_sub_one_eq_mod]

theorem toNat_shifted (byte count : UInt8) (small : count.toNat < 8) :
    (byte >>> count).toNat = byte.toNat / 2 ^ count.toNat := by
  rw [UInt8.toNat_shiftRight, Nat.mod_eq_of_lt small, Nat.shiftRight_eq_div_pow]

theorem bit_eq_zero_iff (byte count : UInt8) (small : count.toNat < 8) :
    (byte >>> count) &&& 1 = 0 ↔ byte.toNat / 2 ^ count.toNat % 2 = 0 := by
  have low := toNat_masked (byte >>> count) 1 (show (1 : UInt8).toNat = 2 ^ 1 - 1 from rfl)
  rw [← UInt8.toNat_inj, low, toNat_shifted _ _ small]
  rfl

theorem toNat_ofNat_of_lt {value : Nat} (fits : value < 256) :
    (UInt8.ofNat value).toNat = value := by
  rw [UInt8.toNat_ofNat']
  omega

theorem encodeLength_lt (length : Nat) : (encodeLength length).1 < 8 := by
  rw [encodeLength]
  split <;> omega

theorem matchCtrl_fields {extended : Nat} (nonempty : 1 ≤ length) (bit : extended ≤ 1) :
    ¬ matchCtrl length pixelOffset extended < lzMaxCopy ∧
      (matchCtrl length pixelOffset extended >>> 5).toNat = (encodeLength length).1 ∧
      (matchCtrl length pixelOffset extended &&& 0x0F).toNat = pixelOffset % 16 ∧
      ((matchCtrl length pixelOffset extended >>> 4) &&& 1 = 0 ↔ extended = 0) := by
  have bits := encodeLength_lt length
  have bits_pos : 1 ≤ (encodeLength length).1 := by
    rw [encodeLength]
    split <;> omega
  have value : (matchCtrl length pixelOffset extended).toNat =
      32 * (encodeLength length).1 + 16 * extended + pixelOffset % 16 :=
    toNat_ofNat_of_lt (by omega)
  refine ⟨?_, ?_, ?_, ?_⟩
  · rw [UInt8.lt_iff_toNat_lt, value, lzMaxCopy]
    simp only [UInt8.reduceToNat]
    omega
  · rw [toNat_shifted _ _ (by decide), value]
    simp only [UInt8.reduceToNat]
    omega
  · rw [toNat_masked _ _ (show (0x0F : UInt8).toNat = 2 ^ 4 - 1 from rfl), value]
    omega
  · rw [bit_eq_zero_iff _ _ (by decide), value]
    simp only [UInt8.reduceToNat]
    omega

theorem takeGlzReference_encodeShort (nibble : (ctrl &&& 0x0F).toNat = pixelOffset % 16)
    (short : (ctrl >>> 4) &&& 1 = 0) (near : pixelOffset < 4096) (recent : imageDist < 2 ^ 30)
    (rest : Bytes) : takeGlzReference ctrl (encodeShort pixelOffset imageDist ++ rest) =
      some (pixelOffset, imageDist, rest) := by
  have count_le := distanceBytes_le (imageDist / 64)
  have fits := lt_pow_distanceBytes (show imageDist / 64 < 2 ^ 24 by omega)
  have code1 : (UInt8.ofNat (pixelOffset / 16)).toNat = pixelOffset / 16 :=
    toNat_ofNat_of_lt (by omega)
  have code2 : (UInt8.ofNat (64 * distanceBytes (imageDist / 64) + imageDist % 64)).toNat =
      64 * distanceBytes (imageDist / 64) + imageDist % 64 :=
    toNat_ofNat_of_lt (by omega)
  have flag : ((UInt8.ofNat (64 * distanceBytes (imageDist / 64) + imageDist % 64) >>> 6) &&&
      3).toNat = distanceBytes (imageDist / 64) := by
    rw [toNat_masked _ _ (show (3 : UInt8).toNat = 2 ^ 2 - 1 from rfl),
      toNat_shifted _ _ (by decide), code2]
    simp only [UInt8.reduceToNat]
    omega
  have low : (UInt8.ofNat (64 * distanceBytes (imageDist / 64) + imageDist % 64) &&&
      0x3F).toNat = imageDist % 64 := by
    rw [toNat_masked _ _ (show (0x3F : UInt8).toNat = 2 ^ 6 - 1 from rfl), code2]
    omega
  simp only [encodeShort, cons_append, takeGlzReference, if_pos short, flag, low, nibble,
    code1, takeImageDist_toLittleEndian _ _ _ _ _ fits, Nat.shiftLeft_eq]
  simp only [Option.some.injEq, Prod.mk.injEq, and_true]
  omega

theorem extendedCode_fields {count high middle : Nat} (count_le : count ≤ 3) (high_le : high ≤ 1)
    (middle_lt : middle < 32) :
    ((UInt8.ofNat (64 * count + 32 * high + middle) >>> 6) &&& 3).toNat = count ∧
      (UInt8.ofNat (64 * count + 32 * high + middle) &&& 0x1F).toNat = middle ∧
      ((UInt8.ofNat (64 * count + 32 * high + middle) >>> 5) &&& 1 = 0 ↔ high = 0) := by
  have value : (UInt8.ofNat (64 * count + 32 * high + middle)).toNat =
      64 * count + 32 * high + middle := toNat_ofNat_of_lt (by omega)
  refine ⟨?_, ?_, ?_⟩
  · rw [toNat_masked _ _ (show (3 : UInt8).toNat = 2 ^ 2 - 1 from rfl),
      toNat_shifted _ _ (by decide), value]
    simp only [UInt8.reduceToNat]
    omega
  · rw [toNat_masked _ _ (show (0x1F : UInt8).toNat = 2 ^ 5 - 1 from rfl), value]
    omega
  · rw [bit_eq_zero_iff _ _ (by decide), value]
    simp only [UInt8.reduceToNat]
    omega

theorem takeGlzReference_encodeExtended (nibble : (ctrl &&& 0x0F).toNat = pixelOffset % 16)
    (extended : ¬ (ctrl >>> 4) &&& 1 = 0) (near : pixelOffset < 2 ^ 25)
    (recent : imageDist < 2 ^ 24) (rest : Bytes) :
    takeGlzReference ctrl (encodeExtended pixelOffset imageDist ++ rest) =
      some (pixelOffset, imageDist, rest) := by
  have count_le := distanceBytes_le imageDist
  have fits := lt_pow_distanceBytes recent
  have code1 : (UInt8.ofNat (pixelOffset / 16 % 256)).toNat = pixelOffset / 16 % 256 :=
    toNat_ofNat_of_lt (by omega)
  have middle_lt : pixelOffset / 4096 % 32 < 32 := Nat.mod_lt _ (by decide)
  by_cases low : pixelOffset < 2 ^ 17
  · obtain ⟨flag, middle, last⟩ := extendedCode_fields count_le (Nat.zero_le 1) middle_lt
    have absent : ¬ ((UInt8.ofNat (64 * distanceBytes imageDist + 32 * 0 +
        pixelOffset / 4096 % 32) >>> 5) &&& 1 ≠ 0) := not_not.mpr (last.mpr rfl)
    simp only [encodeExtended, if_pos low, cons_append, append_nil, takeGlzReference,
      if_neg extended, flag, middle, nibble, code1,
      takeImageDist_toLittleEndian _ _ _ _ _ fits, Nat.shiftLeft_eq]
    cases rest with
    | nil | cons byte rest =>
      simp only [takeHighOffset, if_neg absent, Option.some.injEq, Prod.mk.injEq, and_true]
      omega
  · obtain ⟨flag, middle, last⟩ := extendedCode_fields count_le (Nat.le_refl 1) middle_lt
    have present : (UInt8.ofNat (64 * distanceBytes imageDist + 32 * 1 +
        pixelOffset / 4096 % 32) >>> 5) &&& 1 ≠ 0 := fun zero => absurd (last.mp zero) (by decide)
    have top : (UInt8.ofNat (pixelOffset / 2 ^ 17)).toNat = pixelOffset / 2 ^ 17 :=
      toNat_ofNat_of_lt (by omega)
    simp only [encodeExtended, if_neg low, cons_append, append_assoc, nil_append, takeGlzReference,
      if_neg extended, flag, middle, nibble, code1, takeImageDist_toLittleEndian _ _ _ _ _ fits,
      Nat.shiftLeft_eq, takeHighOffset, if_pos present, top]
    simp only [Option.some.injEq, Prod.mk.injEq, and_true]
    omega

theorem glzNext_matchCtrl {extended : Nat} (nonempty : 1 ≤ length)
    (fits : length < 2 ^ 64) (bit : extended ≤ 1) {tail rest : Bytes}
    (read : takeGlzReference (matchCtrl length pixelOffset extended) (tail ++ rest) =
      some (pixelOffset, imageDist, rest)) :
    glzNext (matchCtrl length pixelOffset extended :: (encodeLength length).2 ++ tail ++ rest) =
      some (referenceSegment length pixelOffset imageDist, rest) := by
  obtain ⟨notLiteral, bits, -, -⟩ := matchCtrl_fields nonempty bit
  rw [cons_append, cons_append, append_assoc, glzNext, nextSegment,
    if_neg notLiteral, takeLength_encodeLength bits, if_pos fits, takeGlzMatch, read]
  rfl

theorem glzNext_encodeMatch (nonempty : 1 ≤ length) (fits : length < 2 ^ 64)
    (encoded : encodeMatch length pixelOffset imageDist = some bytes) (rest : Bytes) :
    glzNext (bytes ++ rest) = some (referenceSegment length pixelOffset imageDist, rest) := by
  rw [encodeMatch] at encoded
  split at encoded
  · rename_i near
    obtain ⟨recent, ⟨⟩⟩ := Option.ite_none_right_eq_some.mp encoded
    obtain ⟨-, -, nibble, bit⟩ := matchCtrl_fields nonempty (Nat.zero_le 1)
    exact glzNext_matchCtrl nonempty fits (Nat.zero_le 1)
      (takeGlzReference_encodeShort nibble (bit.mpr rfl) near recent rest)
  · obtain ⟨bounds, ⟨⟩⟩ := Option.ite_none_right_eq_some.mp encoded
    obtain ⟨-, -, nibble, bit⟩ := matchCtrl_fields nonempty (Nat.le_refl 1)
    exact glzNext_matchCtrl nonempty fits (Nat.le_refl 1)
      (takeGlzReference_encodeExtended nibble (fun zero => absurd (bit.mp zero) (by decide))
        bounds.1 bounds.2 rest)

theorem glzNext_encode {token : GlzToken} (wellFormed : token.WellFormed)
    (fits : token.length < 2 ^ 64) (encoded : token.encode = some bytes)
    (rest : Bytes) : glzNext (bytes ++ rest) = some (token.segment, rest) := by
  cases token with
  | literal pixels =>
    obtain ⟨nonempty, short⟩ := wellFormed
    cases encoded
    have value : (UInt8.ofNat (pixels.length - 1)).toNat = pixels.length - 1 :=
      toNat_ofNat_of_lt (by omega)
    have literal : UInt8.ofNat (pixels.length - 1) < lzMaxCopy := by
      rw [UInt8.lt_iff_toNat_lt, value, lzMaxCopy]
      simp only [UInt8.reduceToNat]
      omega
    rw [cons_append, glzNext, nextSegment, if_pos literal, value,
      Nat.sub_add_cancel nonempty, takeLiterals_flatMap]
    rfl
  | selfMatch length distance =>
    rw [glzNext_encodeMatch wellFormed.1 fits encoded rest, referenceSegment, if_pos rfl,
      Nat.sub_add_cancel wellFormed.2]
    rfl
  | crossMatch length imageDist pixelOffset =>
    have distant : imageDist ≠ 0 := by
      have positive := wellFormed.2
      omega
    rw [glzNext_encodeMatch wellFormed.1 fits encoded rest, referenceSegment, if_neg distant]
    rfl

theorem segmentsOf_encodeAll {tokens : List GlzToken}
    (wellFormed : ∀ token ∈ tokens, token.WellFormed ∧ token.length < 2 ^ 64)
    (encoded : GlzToken.encodeAll tokens = some bytes) {fuel : Nat} (enough : bytes.length ≤ fuel) :
    segmentsOf glzNext fuel bytes = tokens.map GlzToken.segment := by
  induction tokens generalizing bytes fuel with
  | nil =>
    cases encoded
    cases fuel <;> rfl
  | cons token tokens ih =>
    rw [GlzToken.encodeAll] at encoded
    simp only [Option.bind_eq_bind, Option.bind_eq_some_iff, Option.pure_def,
      Option.some.injEq] at encoded
    obtain ⟨first, first_encoded, rest, rest_encoded, rfl⟩ := encoded
    obtain ⟨token_wellFormed, token_fits⟩ := wellFormed token mem_cons_self
    have read := glzNext_encode token_wellFormed token_fits first_encoded rest
    have shorter := (glzNext_spec read).1
    obtain ⟨fuel, rfl⟩ : ∃ less, fuel = less + 1 := ⟨fuel - 1, by omega⟩
    rw [segmentsOf, read]
    simp only [map_cons, List.cons.injEq, true_and]
    exact ih (fun token member => wellFormed token (mem_cons_of_mem _ member))
      rest_encoded (by omega)

/-! ## Whole images -/

/-- An image as an encoder is given it. -/
structure GlzImage where
  topDown : Bool
  width : Nat
  height : Nat
  imageId : Nat
  /-- Distance to the oldest image that may still be referred to. -/
  winHeadDist : Nat
  tokens : List GlzToken

namespace GlzImage

variable (image : GlzImage)

def header : GlzHeader :=
  { topDown := image.topDown, width := image.width, height := image.height,
    imageId := image.imageId, winHeadDist := image.winHeadDist }

def encodeHeader : Bytes :=
  lzMagic ++ toBigEndian 2 1 ++ toBigEndian 2 0 ++
    toBigEndian 1 (if image.topDown then 0x18 else 0x08) ++ toBigEndian 4 image.width ++
    toBigEndian 4 image.height ++ toBigEndian 4 (image.width * 4 % 2 ^ 32) ++
    toBigEndian 8 image.imageId ++ toBigEndian 4 image.winHeadDist

/-- The fields fit the header. -/
def FitsHeader : Prop :=
  image.width < 2 ^ 32 ∧ image.height < 2 ^ 32 ∧ image.imageId < 2 ^ 64 ∧ image.winHeadDist < 2 ^ 32

instance (image : GlzImage) : Decidable image.FitsHeader :=
  inferInstanceAs (Decidable (_ ∧ _ ∧ _ ∧ _))

def encode : Option Slice :=
  match GlzToken.encodeAll image.tokens with
  | none => none
  | some bytes =>
    if bounded : (image.encodeHeader ++ bytes).length < 2 ^ 63 then
      if image.FitsHeader then some ⟨image.encodeHeader ++ bytes, bounded⟩ else none
    else
      none

theorem length_encodeHeader : image.encodeHeader.length = glzHeaderLen := by
  simp [encodeHeader, lzMagic, glzHeaderLen]

theorem read_encodeHeader {image : GlzImage} (fits : image.FitsHeader) (rest : Bytes) :
    GlzHeader.read (image.encodeHeader ++ rest) = .ok image.header := by
  obtain ⟨width_fits, height_fits, id_fits, dist_fits⟩ := fits
  have kind_fits : (if image.topDown then 0x18 else 0x08) < 256 ^ 1 := by
    split <;> decide
  have top : decide (((if image.topDown then 0x18 else 0x08) >>> 4) &&& 1 ≠ 0) = image.topDown := by
    cases image.topDown <;> rfl
  rw [GlzHeader.read]
  simp only [encodeHeader, append_assoc]
  rw [readPreamble_append (by simp [glzHeaderLen]; omega), ok_bind,
    readBigEndian_append _ kind_fits, ok_bind]
  rw [readBigEndian_append _ (show image.width < 256 ^ 4 by omega), ok_bind]
  rw [readBigEndian_append _ (show image.height < 256 ^ 4 by omega), ok_bind]
  rw [readBigEndian_append _ (show image.width * 4 % 2 ^ 32 < 256 ^ 4 by omega), ok_bind]
  rw [readBigEndian_append _ (show image.imageId < 256 ^ 8 by omega), ok_bind]
  rw [readBigEndian_append _ (show image.winHeadDist < 256 ^ 4 by omega), ok_bind]
  simp only [pure_eq, header, top]

theorem encode_eq_some {image : GlzImage} {data : Slice} (encoded : image.encode = some data) :
    ∃ bytes, GlzToken.encodeAll image.tokens = some bytes ∧
      data.bytes = image.encodeHeader ++ bytes ∧ image.FitsHeader := by
  rw [encode] at encoded
  split at encoded
  · simp at encoded
  rename_i bytes tokens
  split at encoded
  · obtain ⟨fits, ⟨⟩⟩ := Option.ite_none_right_eq_some.mp encoded
    exact ⟨bytes, tokens, rfl, fits⟩
  · simp at encoded

end GlzImage

end Ryll
