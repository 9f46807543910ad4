import Ryll.Compression.GlzSequence
import Ryll.Compression.Lz

/-!
# The LZ wire encoding

An encoder for images given as literal runs and matches.  A match carries a distance below 8192 in
its control byte and one more; any other takes the escape value and two further bytes.  The decoder
draws an encoded image as its tokens expand.
-/

namespace Ryll

open List Bgr

/-- What a stream is made of. -/
inductive LzToken
  | literal (pixels : List Bgr)
  | selfMatch (length distance : Nat)

namespace LzToken

/-- The pixels after a token, if it fits behind the pixels so far. -/
def expand (pixels : List Bgr) : LzToken → Option (List Bgr)
  | .literal run => if 1 ≤ run.length ∧ run.length ≤ 32 then some (pixels ++ run) else none
  | .selfMatch length distance =>
    if 1 ≤ length ∧ 1 ≤ distance ∧ distance ≤ 73727 ∧ distance ≤ pixels.length then
      some (copyBack pixels distance length)
    else
      none

def expandAll : List LzToken → List Bgr → Option (List Bgr)
  | [], pixels => some pixels
  | token :: tokens, pixels => do
    let pixels ← token.expand pixels
    expandAll tokens pixels

def encodeDistance (distance : Nat) : Nat × Bytes :=
  if distance < 8192 then
    ((distance - 1) / 256, [UInt8.ofNat ((distance - 1) % 256)])
  else
    (31, [255, UInt8.ofNat ((distance - 8192) / 256), UInt8.ofNat ((distance - 8192) % 256)])

def encode : LzToken → Bytes
  | .literal pixels => UInt8.ofNat (pixels.length - 1) :: pixels.flatMap bytes
  | .selfMatch length distance =>
    UInt8.ofNat (32 * (encodeLength length).1 + (encodeDistance distance).1) ::
      ((encodeLength length).2 ++ (encodeDistance distance).2)

def glz : LzToken → GlzToken
  | .literal pixels => .literal pixels
  | .selfMatch length distance => .selfMatch length distance

theorem copyBack_map {α β : Type} (view : α → β) (window : List α) (distance count : Nat) :
    copyBack (window.map view) distance count = (copyBack window distance count).map view := by
  induction count generalizing window with
  | zero => rfl
  | succ count ih =>
    rw [copyBack, copyBack, length_map, getElem?_map]
    cases window[window.length - distance]? with
    | none => rfl
    | some element =>
      rw [← ih]
      simp

variable {token : LzToken} {pixels : List Bgr} {tokens : List LzToken} {after : List Bgr}

theorem expand_glz (expanded : token.expand pixels = some after) :
    token.glz.expand (fun _ => none) 0 (pixels.map rgba) = some (after.map rgba) := by
  cases token with
  | literal run =>
    obtain ⟨bounds, ⟨⟩⟩ := Option.ite_none_right_eq_some.mp expanded
    rw [glz, GlzToken.expand, if_pos bounds, map_append]
  | selfMatch length distance =>
    obtain ⟨bounds, ⟨⟩⟩ := Option.ite_none_right_eq_some.mp expanded
    rw [glz, GlzToken.expand, if_pos (by simpa using ⟨bounds.1, bounds.2.1, bounds.2.2.2⟩),
      copyBack_map]

theorem expandAll_glz (expanded : expandAll tokens pixels = some after) :
    GlzToken.expandAll (fun _ => none) 0 (tokens.map glz) (pixels.map rgba) =
      some (after.map rgba) := by
  induction tokens generalizing pixels with
  | nil =>
    cases expanded
    rfl
  | cons token tokens ih =>
    obtain ⟨middle, first, rest⟩ := Option.bind_eq_some_iff.mp expanded
    rw [map_cons, GlzToken.expandAll, expand_glz first]
    exact ih rest

/-! ## Reading what was written -/

theorem encodeDistance_lt {distance : Nat} : (encodeDistance distance).1 < 32 := by
  rw [encodeDistance]
  split <;> dsimp only <;> omega

theorem takeLzDistance_encodeDistance {ctrl : UInt8} {distance : Nat} (positive : 1 ≤ distance)
    (near : distance ≤ 73727) (bits : (ctrl &&& 0x1F).toNat = (encodeDistance distance).1)
    (rest : Bytes) :
    takeLzDistance ctrl ((encodeDistance distance).2 ++ rest) = some (distance, rest) := by
  unfold encodeDistance at *
  by_cases short : distance < 8192
  · have code : (UInt8.ofNat ((distance - 1) % 256)).toNat = (distance - 1) % 256 :=
      toNat_ofNat_of_lt (Nat.mod_lt _ (by decide))
    have plain : ¬ (UInt8.ofNat ((distance - 1) % 256) = 255 ∧ ctrl &&& 0x1F = 31) := by
      -- The highest short distance stays below the escape value.
      rw [← UInt8.toNat_inj, ← UInt8.toNat_inj, code, bits, if_pos short]
      simp only [UInt8.reduceToNat]
      omega
    rw [if_pos short] at bits ⊢
    rw [singleton_append, takeLzDistance, if_neg plain, bits, code, Nat.shiftLeft_eq]
    congr 2
    omega
  · rw [if_neg short] at bits ⊢
    have escape : ctrl &&& 0x1F = 31 := UInt8.toNat_inj.mp bits
    have high : (UInt8.ofNat ((distance - 8192) / 256)).toNat = (distance - 8192) / 256 :=
      toNat_ofNat_of_lt (by omega)
    have low : (UInt8.ofNat ((distance - 8192) % 256)).toNat = (distance - 8192) % 256 :=
      toNat_ofNat_of_lt (Nat.mod_lt _ (by decide))
    have byte : (distance - 8192) % 256 < 2 ^ 8 := Nat.mod_lt _ (by decide)
    have joined :
        ((distance - 8192) / 256) <<< 8 ||| (distance - 8192) % 256 = distance - 8192 := by
      rw [Nat.shiftLeft_eq, Nat.mul_comm, ← Nat.two_pow_add_eq_or_of_lt byte]
      omega
    simp only [cons_append, nil_append]
    rw [takeLzDistance, if_pos ⟨rfl, escape⟩, takeFarDistance, high, low, joined,
      Nat.sub_add_cancel (by omega)]

theorem ctrl_fields {ctrl : UInt8} {bits high : Nat} (value : ctrl.toNat = 32 * bits + high)
    (positive : 1 ≤ bits) (small : high < 32) :
    ¬ ctrl < lzMaxCopy ∧ (ctrl >>> 5).toNat = bits ∧ (ctrl &&& 0x1F).toNat = high := by
  refine ⟨?_, ?_, ?_⟩
  · rw [UInt8.lt_iff_toNat_lt, value, lzMaxCopy]
    simp only [UInt8.reduceToNat]
    omega
  · rw [toNat_shifted _ _ (by decide), value]
    simp only [UInt8.reduceToNat]
    omega
  · rw [toNat_masked _ _ (show (0x1F : UInt8).toNat = 2 ^ 5 - 1 from rfl), value]
    omega

theorem lzNext_encode (expanded : token.expand pixels = some after)
    (fits : after.length < 2 ^ 64) (rest : Bytes) :
    lzNext (token.encode ++ rest) = some (token.glz.segment, rest) := by
  have grown := GlzToken.expand_spec (expand_glz expanded)
  cases token with
  | literal run =>
    obtain ⟨⟨nonempty, short⟩, -⟩ := grown
    have value : (UInt8.ofNat (run.length - 1)).toNat = run.length - 1 :=
      toNat_ofNat_of_lt (by omega)
    have literal : UInt8.ofNat (run.length - 1) < lzMaxCopy := by
      rw [UInt8.lt_iff_toNat_lt, value, lzMaxCopy]
      simp only [UInt8.reduceToNat]
      omega
    rw [encode, cons_append, lzNext, nextSegment, if_pos literal, value,
      Nat.sub_add_cancel nonempty, takeLiterals_flatMap]
    rfl
  | selfMatch length distance =>
    obtain ⟨bounds, expanded⟩ := Option.ite_none_right_eq_some.mp expanded
    have long : length < 2 ^ 64 := by
      have := grown.2.2.2
      simp only [glz, GlzToken.length, length_map] at this
      omega
    have high := @encodeDistance_lt distance
    have bits := encodeLength_lt length
    have positive : 1 ≤ (encodeLength length).1 := by
      rw [encodeLength]
      split <;> omega
    obtain ⟨reference, length_bits, distance_bits⟩ :=
      ctrl_fields (toNat_ofNat_of_lt (by omega)) positive high
    rw [encode, cons_append, append_assoc, lzNext, nextSegment, if_neg reference,
      takeLength_encodeLength length_bits, if_pos long, takeLzMatch,
      takeLzDistance_encodeDistance bounds.2.1 bounds.2.2.1 distance_bits]
    rfl

theorem lzSegments_encode (expanded : expandAll tokens pixels = some after)
    (fits : after.length < 2 ^ 64) {fuel : Nat} (enough : (tokens.flatMap encode).length ≤ fuel) :
    segmentsOf lzNext fuel (tokens.flatMap encode) = tokens.map fun token => token.glz.segment := by
  induction tokens generalizing pixels fuel with
  | nil => cases fuel <;> rfl
  | cons token tokens ih =>
    obtain ⟨middle, first, rest⟩ := Option.bind_eq_some_iff.mp expanded
    have grown : middle.length ≤ after.length := by
      simpa using (GlzToken.expandAll_spec (expandAll_glz rest)).1.length_le
    have read := lzNext_encode first (Nat.lt_of_le_of_lt grown fits) (tokens.flatMap encode)
    have shorter := (lzNext_spec read).1
    rw [flatMap_cons] at enough ⊢
    obtain ⟨fuel, rfl⟩ : ∃ less, fuel = less + 1 := ⟨fuel - 1, by omega⟩
    rw [segmentsOf, read]
    simp only [map_cons, List.cons.injEq, true_and]
    exact ih rest (by omega)

theorem length_encode (expanded : token.expand pixels = some after) :
    token.encode.length + 6 * pixels.length ≤ 6 * after.length := by
  have grown := (GlzToken.expand_spec (expand_glz expanded)).2
  simp only [length_map] at grown
  cases token with
  | literal run =>
    have triples : (run.flatMap bytes).length = 3 * run.length := by
      simp [length_flatMap, bytes, Nat.mul_comm]
    simp only [glz, GlzToken.length] at grown
    simp only [encode, length_cons, triples]
    omega
  | selfMatch length distance =>
    have extension : (encodeLength length).2.length ≤ length := by
      rw [encodeLength]
      split
      · exact Nat.zero_le _
      · simp only [length_append, length_replicate, length_singleton]
        omega
    have tail : (encodeDistance distance).2.length ≤ 3 := by
      rw [encodeDistance]
      split <;> simp
    simp only [glz, GlzToken.length] at grown
    simp only [encode, length_cons, length_append]
    omega

theorem length_encodeAll (expanded : expandAll tokens pixels = some after) :
    (tokens.flatMap encode).length + 6 * pixels.length ≤ 6 * after.length := by
  induction tokens generalizing pixels with
  | nil =>
    cases expanded
    simp
  | cons token tokens ih =>
    obtain ⟨middle, first, rest⟩ := Option.bind_eq_some_iff.mp expanded
    have one := length_encode first
    have more := ih rest
    rw [flatMap_cons, length_append]
    omega

end LzToken

/-! ## Whole images -/

/-- An image as an encoder is given it. -/
structure LzImage where
  width : Nat
  height : Nat
  /-- The flag of the header; any value but zero means the top row comes first. -/
  topDown : Nat
  tokens : List LzToken

namespace LzImage

variable (image : LzImage)

def encodeHeader : Bytes :=
  lzMagic ++ toBigEndian 2 1 ++ toBigEndian 2 0 ++ [0, 0, 0] ++ [8] ++
    toBigEndian 4 image.width ++ toBigEndian 4 image.height ++
    toBigEndian 4 (image.width * 4 % 2 ^ 32) ++ toBigEndian 4 image.topDown

def encode : Bytes :=
  image.encodeHeader ++ image.tokens.flatMap LzToken.encode

theorem length_encodeHeader : image.encodeHeader.length = lzHeaderLen := by
  simp [encodeHeader, lzMagic, lzHeaderLen]

theorem read_encode {image : LzImage} (width : image.width < 2 ^ 32)
    (height : image.height < 2 ^ 32) (flag : image.topDown < 2 ^ 32) :
    LzHeader.read image.encode = .ok ⟨image.width, image.height, image.topDown ≠ 0⟩ := by
  rw [LzHeader.read]
  simp only [encode, encodeHeader, append_assoc]
  rw [readPreamble_append (by simp [lzHeaderLen]; omega), ok_bind,
    readExact_append _ (show [0, 0, 0].length = 3 from rfl), ok_bind]
  rw [readExact_append _ (show [8].length = 1 from rfl), ok_bind]
  rw [readBigEndian_append _ (show image.width < 256 ^ 4 by omega), ok_bind]
  rw [readBigEndian_append _ (show image.height < 256 ^ 4 by omega), ok_bind]
  rw [readBigEndian_append _ (show image.width * 4 % 2 ^ 32 < 256 ^ 4 by omega), ok_bind]
  rw [readBigEndian_append _ (show image.topDown < 256 ^ 4 by omega), ok_bind]
  rfl

/-- An image whose tokens expand to as many pixels as it has is decoded to those pixels with full
opacity, bottom row first unless the flag is set. -/
theorem decompressLz_expands (image : LzImage) {length : Nat} {stream : List Bgr}
    (accepted : rgbaLen image.width image.height = some length) (flag : image.topDown < 2 ^ 32)
    (expanded : LzToken.expandAll image.tokens [] = some stream)
    (sized : stream.length = image.width * image.height) :
    ∃ data : Slice, data.bytes = image.encode ∧ ∃ decoded, decompressLz data = .ok decoded ∧
        decoded.width = image.width ∧ decoded.height = image.height ∧
        decoded.pixels = flat (displayOrder (image.topDown ≠ 0) image.width image.height
          (stream.map rgba)) := by
  obtain ⟨-, -, width, height, small, -⟩ := rgbaLen_eq_some.mp accepted
  rw [maxImageDimension] at width height
  rw [maxImagePixels] at small
  have coded := LzToken.length_encodeAll expanded
  have bounded : image.encode.length < 2 ^ 63 := by
    rw [encode, length_append, length_encodeHeader, lzHeaderLen]
    omega
  refine ⟨⟨image.encode, bounded⟩, rfl, ?_⟩
  have read : LzHeader.read (Slice.mk image.encode bounded).bytes = _ :=
    read_encode (by omega) (by omega) flag
  have refines := decompressLz_refines read accepted
  have segments : lzSegments (image.encode.drop lzHeaderLen) =
      (image.tokens.map LzToken.glz).map GlzToken.segment := by
    rw [encode, drop_left' (length_encodeHeader image), map_map]
    exact LzToken.lzSegments_encode expanded (by omega) (Nat.le_refl _)
  have drawn : drawSegments .alone (stream.map rgba).length
      ((image.tokens.map LzToken.glz).map GlzToken.segment) 0 [] =
        (.ok (stream.map rgba) : Outcome StreamError (List Rgba)) :=
    GlzToken.drawSegments_segment (fun _ _ _ => rfl) (LzToken.expandAll_glz expanded) 0
  have whole : padded (image.width * image.height) (stream.map rgba) = stream.map rgba := by
    rw [padded, length_map, sized, Nat.sub_self, replicate_zero, append_nil]
  rw [length_map, sized] at drawn
  rw [segments, drawn] at refines
  cases result : decompressLz ⟨image.encode, bounded⟩ with
  | ok decoded =>
    rw [result] at refines
    obtain ⟨width_eq, height_eq, pixels⟩ := refines
    exact ⟨decoded, rfl, width_eq, height_eq, by rw [pixels, whole]⟩
  | error reason | fault cause =>
    rw [result] at refines
    exact refines.elim

def fourGreen : LzImage := ⟨2, 2, 0, [.literal [⟨0, 255, 0⟩], .selfMatch 3 1]⟩

theorem fourGreen_decoded : ∃ data : Slice, data.bytes = fourGreen.encode ∧
      ∃ decoded, decompressLz data = .ok decoded ∧ decoded.width = 2 ∧ decoded.height = 2 ∧
        decoded.pixels = flat (displayOrder false 2 2 (List.replicate 4 ⟨0, 255, 0, 255⟩)) :=
  decompressLz_expands fourGreen rfl (by decide) rfl rfl

end LzImage

end Ryll
