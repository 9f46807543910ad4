import Ryll.Protocol.DrawCopy

/-!
# The canonical layout of a DRAW_COPY message

A written body holds the fixed fields, the source image and the mask image, in this order.  Each
pointer in it addresses exactly the image it was written for, so the body is read back as the
message, as long as the offsets fit into pointers.
-/

namespace Ryll

open List WireType

/-! ## The written body -/

def imageBytes : Option SpiceImage → Bytes
  | none => []
  | some image => image.write

def pointerTo (offset : Nat) : Option SpiceImage → UInt32
  | none => 0
  | some _ => UInt32.ofNat offset

theorem appendPointee_eq (out : Bytes) (start : Nat) (image : Option SpiceImage) :
    appendPointee out start image =
      (out ++ imageBytes image, pointerTo (out.length - start) image) := by
  cases image with
  | none => simp [appendPointee, imageBytes, pointerTo]
  | some image => rfl

theorem patchU32_eq {out front rest : Bytes} {index : Nat} {old value : UInt32}
    (inside : index + 4 ≤ out.length) (split : out = front ++ (toLeBytes old ++ rest))
    (place : index = front.length) :
    patchU32 out index value inside = front ++ (toLeBytes value ++ rest) := by
  subst split place
  simp [patchU32, splice, WireNumber.width, drop_append]

open SpiceCopy

namespace DrawCopyBuilder

def fixedLen (builder : DrawCopyBuilder) : Nat := builder.base.write.length + SpiceCopy.wireSize

section

variable {builder : DrawCopyBuilder} {out front rest : Bytes} {src mask pointer : UInt32}
  (split : out = front ++ ((builder.copyFields src mask).write ++ rest))
include split

theorem patch_src (inside : front.length + 4 ≤ out.length) :
    patchU32 out front.length pointer inside =
      front ++ ((builder.copyFields pointer mask).write ++ rest) := by
  exact patchU32_eq inside split rfl

theorem patch_mask (inside : front.length + wireSize - 4 + 4 ≤ out.length) :
    patchU32 out (front.length + wireSize - 4) pointer inside =
      front ++ ((builder.copyFields src pointer).write ++ rest) := by
  let before := front ++ (toLeBytes src ++ (builder.srcArea.write ++
    (toLeBytes builder.ropDescriptor ++ (toLeBytes builder.scaleMode ++
      (toLeBytes builder.maskFlags ++ builder.maskPos.write)))))
  have fields (pointer : UInt32) : front ++ ((builder.copyFields src pointer).write ++ rest) =
      before ++ (toLeBytes pointer ++ rest) := by
    simp [before, copyFields, SpiceCopy.write, SpiceQMask.write]
  have place : front.length + SpiceCopy.wireSize - 4 = before.length := by
    simp [before, WireNumber.width, wireSize, Rect.wireSize, SpicePoint.wireSize,
      SpiceQMask.wireSize]
  rw [fields] at split ⊢
  exact patchU32_eq inside split place

end

/-- The body is the fixed fields with the pointers to the images that follow them. -/
theorem write_eq (builder : DrawCopyBuilder) (out : Bytes) :
    builder.write out = out ++ builder.base.write ++
        ((builder.copyFields (pointerTo builder.fixedLen builder.srcBitmap)
          (pointerTo (builder.fixedLen + (imageBytes builder.srcBitmap).length)
            builder.maskBitmap)).write ++
          (imageBytes builder.srcBitmap ++ imageBytes builder.maskBitmap)) := by
  have src := appendPointee_eq (out ++ builder.base.write ++ (builder.copyFields 0 0).write)
    out.length builder.srcBitmap
  have mask := appendPointee_eq
    (out ++ builder.base.write ++ (builder.copyFields 0 0).write ++ imageBytes builder.srcBitmap)
    out.length builder.maskBitmap
  have src_at : (out ++ builder.base.write ++ (builder.copyFields 0 0).write).length - out.length =
      builder.fixedLen := by
    simp [fixedLen]
  have mask_at : (out ++ builder.base.write ++ (builder.copyFields 0 0).write ++
      imageBytes builder.srcBitmap).length - out.length =
        builder.fixedLen + (imageBytes builder.srcBitmap).length := by
    simp [fixedLen]
    omega
  rw [src_at] at src
  rw [mask_at] at mask
  simp only [write, src, mask]
  have laid : out ++ builder.base.write ++ (builder.copyFields 0 0).write ++
      imageBytes builder.srcBitmap ++ imageBytes builder.maskBitmap =
        out ++ builder.base.write ++ ((builder.copyFields 0 0).write ++
          (imageBytes builder.srcBitmap ++ imageBytes builder.maskBitmap)) := by
    simp
  exact patch_mask (patch_src laid _) _

end DrawCopyBuilder

theorem pointeeEnd_last {body : Bytes} {offset : Nat} {pointers : List UInt32}
    (last : ∀ pointer ∈ pointers, pointer.toNat ≤ offset) :
    pointeeEnd body offset pointers = body.length := by
  have none_behind : (pointers.map UInt32.toNat).filter (offset < ·) = [] := by
    rw [filter_eq_nil_iff]
    rintro pointer member
    obtain ⟨word, word_mem, rfl⟩ := mem_map.mp member
    have at_most := last word word_mem
    simpa using at_most
  simp [pointeeEnd, none_behind]

namespace DrawCopy

open BoundedReader

variable (value : DrawCopy)

def srcPointer : UInt32 := pointerTo value.fixedLen value.srcBitmap

def maskPointer : UInt32 :=
  pointerTo (value.fixedLen + (imageBytes value.srcBitmap).length) value.mask.bitmap

theorem write_eq : value.write = value.fixedPart value.srcPointer value.maskPointer ++
      (imageBytes value.srcBitmap ++ imageBytes value.mask.bitmap) := by
  rw [write, DrawCopyBuilder.write_eq, nil_append, fixedPart, append_assoc]
  rfl

theorem length_write : value.write.length = value.fixedLen + (imageBytes value.srcBitmap).length +
      (imageBytes value.mask.bitmap).length := by
  rw [write_eq, length_append, length_append, length_fixedPart, Nat.add_assoc]

/-- A message that can be read back: its parts can, and the offset of the mask fits a pointer. -/
structure Writable (value : DrawCopy) : Prop where
  clip : value.base.clip.Readable
  src : ∀ image ∈ value.srcBitmap, image.Drawable
  mask : ∀ image ∈ value.mask.bitmap, image.Drawable
  /-- Both images begin at offsets that a pointer can hold. -/
  pointers : value.fixedLen + (imageBytes value.srcBitmap).length < 2 ^ 32
  addressable : value.write.length < 2 ^ 64

theorem fixedLen_pos (value : DrawCopy) : 0 < value.fixedLen := by
  rw [fixedLen, wireSize]
  omega

theorem toNat_pointerTo {offset : Nat} {image : SpiceImage} (fits : offset < 2 ^ 32) :
    (pointerTo offset (some image)).toNat = offset := UInt32.toNat_ofNat_of_lt' fits

theorem imageBytes_pos (image : SpiceImage) : 0 < (imageBytes (some image)).length := by
  rw [imageBytes, SpiceImage.length_write, ImageDescriptor.wireSize]
  omega

variable {value : DrawCopy}

theorem Writable.src_pointee (writable : value.Writable) :
    pointee value.write value.fixedLen value.srcPointer [value.srcPointer, value.maskPointer] =
      .ok (value.srcBitmap.map fun image => .new image.write) := by
  have fits := writable.pointers
  have long := value.length_write
  cases present : value.srcBitmap with
  | none =>
    rw [srcPointer, present]
    exact pointee_null _ _ _
  | some image =>
    have src_at : value.srcPointer.toNat = value.fixedLen := by
      rw [srcPointer, present]
      exact toNat_pointerTo (by omega)
    have positive := imageBytes_pos image
    rw [present] at fits long
    refine pointee_of_split (value.write_eq.trans (by rw [present]; rfl)) writable.addressable
      (by rw [src_at, length_fixedPart]) (Nat.le_of_eq (length_fixedPart ..).symm)
      value.fixedLen_pos ?_
    rw [length_fixedPart]
    cases masked : value.mask.bitmap with
    | none =>
      have null : value.maskPointer = 0 := by rw [maskPointer, masked, pointerTo]
      rw [masked] at long
      rw [pointeeEnd_last, long]
      · rfl
      · simp [src_at, null]
    | some other =>
      have mask_at : value.maskPointer.toNat = value.fixedLen + image.write.length := by
        rw [maskPointer, masked, present]
        exact toNat_pointerTo fits
      have ordered : value.srcPointer.toNat < value.maskPointer.toNat := by
        rw [src_at, mask_at]
        exact Nat.lt_add_of_pos_right positive
      have inside : value.maskPointer.toNat ≤ value.write.length := by
        rw [mask_at, long]
        exact Nat.le_add_right _ _
      have next : pointeeEnd value.write value.srcPointer.toNat
          [value.srcPointer, value.maskPointer] = value.maskPointer.toNat := by
        simp [pointeeEnd, ordered, inside]
      rw [← src_at, next, mask_at, src_at]

theorem Writable.mask_pointee (writable : value.Writable) :
    pointee value.write value.fixedLen value.maskPointer [value.srcPointer, value.maskPointer] =
      .ok (value.mask.bitmap.map fun image => .new image.write) := by
  have fits := writable.pointers
  cases masked : value.mask.bitmap with
  | none =>
    rw [maskPointer, masked]
    exact pointee_null _ _ _
  | some image =>
    have mask_at : value.maskPointer.toNat =
        value.fixedLen + (imageBytes value.srcBitmap).length := by
      rw [maskPointer, masked]
      exact toNat_pointerTo fits
    have src_before : value.srcPointer.toNat ≤ value.maskPointer.toNat := by
      cases present : value.srcBitmap with
      | none =>
        rw [srcPointer, present]
        exact Nat.zero_le _
      | some other =>
        rw [mask_at, srcPointer, present, toNat_pointerTo (by omega)]
        exact Nat.le_add_right _ _
    have split : value.write = value.fixedPart value.srcPointer value.maskPointer ++
        imageBytes value.srcBitmap ++ (image.write ++ []) := by
      rw [value.write_eq, masked, append_assoc, append_nil]
      rfl
    have front : (value.fixedPart value.srcPointer value.maskPointer ++
        imageBytes value.srcBitmap).length = value.maskPointer.toNat := by
      rw [length_append, length_fixedPart, mask_at]
    refine pointee_of_split split writable.addressable front.symm ?_ value.fixedLen_pos ?_
    · rw [front, mask_at]
      exact Nat.le_add_right _ _
    · rw [front, pointeeEnd_last (by simp [src_before]), split, append_nil, length_append, front]

theorem Writable.decode_write (writable : value.Writable) : decode value.write = .ok value := by
  have src := writable.src_pointee
  have mask := writable.mask_pointee
  have addressable := writable.addressable
  rw [write_eq] at src mask addressable ⊢
  apply (decode_fixedPart writable.clip addressable).mpr
  exact ⟨resolves_of_pointee writable.src src, resolves_of_pointee writable.mask mask⟩

theorem writable_of_decode {body : Bytes} (fits : body.length < 2 ^ 32)
    (decoded : decode body = .ok value) : value.Writable := by
  have addressable : body.length < 2 ^ 64 := by omega
  obtain ⟨clip, srcOffset, maskOffset, tail, rfl⟩ := decode_sound addressable decoded
  obtain ⟨src, mask⟩ := (decode_fixedPart clip addressable).mp decoded
  -- Both images lie behind the fixed fields, although not where they are going to be written.
  have src_fits : value.fixedLen + (imageBytes value.srcBitmap).length < 2 ^ 32 := by
    cases present : value.srcBitmap with
    | none =>
      rw [length_append, length_fixedPart] at fits
      exact Nat.lt_of_le_of_lt (Nat.le_add_right _ _) fits
    | some image =>
      rw [present] at src
      obtain ⟨-, behind, inside⟩ := src.inside
      rw [imageBytes]
      omega
  have mask_fits : (imageBytes value.mask.bitmap).length < 2 ^ 32 := by
    cases masked : value.mask.bitmap with
    | none => exact Nat.two_pow_pos 32
    | some image =>
      rw [masked] at mask
      obtain ⟨-, behind, inside⟩ := mask.inside
      rw [imageBytes]
      omega
  refine ⟨clip, ?_, ?_, src_fits, ?_⟩
  · intro image present
    exact (present ▸ src).inside.1
  · intro image masked
    exact (masked ▸ mask).inside.1
  · rw [length_write]
    omega

/-! ## Reading back what was written -/

/-- The clip has rectangles only if its type says so, and the images are well formed. -/
def WellFormed (value : DrawCopy) : Prop :=
  value.base.clip.WellFormed ∧ (∀ image ∈ value.srcBitmap, image.WellFormed) ∧
    ∀ image ∈ value.mask.bitmap, image.WellFormed

instance (value : DrawCopy) : Decidable value.WellFormed :=
  inferInstanceAs (Decidable (_ ∧ _ ∧ _))

theorem WellFormed.writable (wellFormed : value.WellFormed) (fits : value.write.length < 2 ^ 32) :
    value.Writable := by
  obtain ⟨clip, src, mask⟩ := wellFormed
  have long := value.length_write
  refine ⟨clip.readable ?_, ?_, ?_, by omega, by omega⟩
  · have inner : value.fixedLen = 4 + (Rect.wireSize + value.base.clip.write.length) +
        wireSize := by
      simp [fixedLen, DrawBase.write, WireNumber.width]
    omega
  · intro image present
    apply (src image present).drawable
    rw [present, imageBytes] at long
    omega
  · intro image masked
    apply (mask image masked).drawable
    rw [masked, imageBytes] at long
    omega

/-- The pointer lies on the bytes of the image, and is null if there is none. -/
def Lands (body : Bytes) (pointer : UInt32) : Option SpiceImage → Prop
  | none => pointer = 0
  | some image => pointer ≠ 0 ∧ image.write <+: body.drop pointer.toNat

theorem lands_of_pointee {body : Bytes} {fixedLen : Nat} {pointer : UInt32}
    {pointers : List UInt32} {image : Option SpiceImage}
    (found : pointee body fixedLen pointer pointers =
      .ok (image.map fun item => .new item.write)) : Lands body pointer image := by
  cases image with
  | none =>
    rw [pointee] at found
    split at found
    · next null => exact null
    · split at found
      · cases found
      · obtain ⟨region, -, same⟩ := bind_eq_ok.mp found
        cases same
  | some image =>
    constructor
    · rintro rfl
      cases found
    · obtain ⟨-, len, -, same⟩ := pointee_inside found
      have bytes : image.write = (body.drop pointer.toNat).take len :=
        congrArg BoundedReader.data same
      rw [bytes]
      exact take_prefix len _

def readCopyFields : Reading SpiceCopy := do
  let _ ← DrawBase.read
  SpiceCopy.read

/-- The pointers in the written body address exactly the images they were written for. -/
def PointersLand (value : DrawCopy) : Prop :=
  ∃ copy reader, readCopyFields (new value.write) = .ok (copy, reader) ∧
    Lands value.write copy.srcBitmap value.srcBitmap ∧
    Lands value.write copy.mask.bitmapOffset value.mask.bitmap ∧
    copy.srcBitmapReader value.write reader.pos =
      .ok (value.srcBitmap.map fun image => new image.write) ∧
    copy.maskBitmapReader value.write reader.pos =
      .ok (value.mask.bitmap.map fun image => new image.write)

theorem Writable.pointersLand (writable : value.Writable) : value.PointersLand := by
  have src := writable.src_pointee
  have mask := writable.mask_pointee
  let copy := value.builder.copyFields value.srcPointer value.maskPointer
  let images := imageBytes value.srcBitmap ++ imageBytes value.mask.bitmap
  have read_base := DrawBase.format.complete value.base [] (copy.write ++ images) writable.clip
  have read_copy := format.complete copy value.base.write images trivial
  refine ⟨copy, between (value.fixedPart value.srcPointer value.maskPointer) images, ?_,
    lands_of_pointee src, lands_of_pointee mask, ?_, ?_⟩
  · rw [readCopyFields, write_eq, new_eq_between, fixedPart, append_assoc, Reading.bind_apply,
      read_base, ok_bind]
    exact read_copy
  · rw [← length_fixedPart value value.srcPointer value.maskPointer] at src
    exact src
  · rw [← length_fixedPart value value.srcPointer value.maskPointer] at mask
    exact mask

/-- Every message read from a body shorter than `2 ^ 32` bytes, and every well-formed one of that
size, is read back from what it is written as, with its pointers on its images. -/
theorem canonicalised :
    (∀ (body : Bytes) (value : DrawCopy), body.length < 2 ^ 32 → decode body = .ok value →
      decode (write value) = .ok value) ∧
    ∀ value : DrawCopy, value.WellFormed → (write value).length < 2 ^ 32 →
      decode (write value) = .ok value ∧ value.PointersLand := by
  constructor
  · intro body value fits decoded
    exact (writable_of_decode fits decoded).decode_write
  · intro value wellFormed fits
    have writable := wellFormed.writable fits
    exact ⟨writable.decode_write, writable.pointersLand⟩

def maskedCopy : DrawCopy where
  base := ⟨1, ⟨0, 0, 2, 2⟩, ⟨0, []⟩⟩
  srcBitmap := some ⟨⟨7, 1, 0, 2, 2⟩, .other [1, 2, 3]⟩
  srcArea := ⟨0, 0, 2, 2⟩
  ropDescriptor := 8
  scaleMode := 0
  mask := ⟨0, ⟨0, 0⟩, some ⟨⟨9, 103, 0, 2, 2⟩, .fromCache⟩⟩

def maskFirstBody : Bytes :=
  maskedCopy.fixedPart 75 57 ++
    (imageBytes maskedCopy.mask.bitmap ++ imageBytes maskedCopy.srcBitmap)

theorem maskFirstBody_canonicalised :
    maskFirstBody.length < 2 ^ 32 ∧ decode maskFirstBody = .ok maskedCopy ∧
      write maskedCopy ≠ maskFirstBody ∧
      decode (write maskedCopy) = .ok maskedCopy ∧
      maskedCopy.WellFormed ∧ maskedCopy.PointersLand := by
  have decoded : decode maskFirstBody = .ok maskedCopy := by decide +kernel
  have fits : maskFirstBody.length < 2 ^ 32 := by decide +kernel
  have wellFormed : maskedCopy.WellFormed := by decide +kernel
  have written_fits : (write maskedCopy).length < 2 ^ 32 := by decide +kernel
  refine ⟨fits, decoded, by decide +kernel, ?_, wellFormed, ?_⟩
  · exact canonicalised.1 maskFirstBody maskedCopy fits decoded
  · exact (canonicalised.2 maskedCopy wellFormed written_fits).2

section Shared

variable (bytes : Bytes)

def opaqueImage : SpiceImage := ⟨⟨7, 1, 0, 2, 2⟩, .other bytes⟩

def sharedCopy : DrawCopy :=
  { maskedCopy with
    srcBitmap := some (opaqueImage bytes), mask := ⟨0, ⟨0, 0⟩, some (opaqueImage bytes)⟩ }

def sharedBody : Bytes :=
  (sharedCopy bytes).fixedPart 57 57 ++ ((opaqueImage bytes).write ++ [])

variable {bytes : Bytes}

theorem fixedLen_sharedCopy : (sharedCopy bytes).fixedLen = 57 := rfl

theorem clip_sharedCopy : (sharedCopy bytes).base.clip.Readable :=
  ⟨.inr rfl, Nat.two_pow_pos 32⟩

theorem length_opaqueImage : (opaqueImage bytes).write.length = 18 + bytes.length :=
  SpiceImage.length_write _

theorem length_sharedBody : (sharedBody bytes).length = 75 + bytes.length := by
  rw [sharedBody, append_nil, length_append, length_fixedPart, fixedLen_sharedCopy,
    length_opaqueImage]
  omega

theorem decode_sharedBody (addressable : (sharedBody bytes).length < 2 ^ 64) :
    decode (sharedBody bytes) = .ok (sharedCopy bytes) := by
  have fixed : ((sharedCopy bytes).fixedPart 57 57).length = 57 := length_fixedPart ..
  have addressed : pointee (sharedBody bytes) 57 57 [57, 57] =
      .ok ((some (opaqueImage bytes)).map fun image => new image.write) := by
    refine pointee_of_split rfl addressable fixed.symm (Nat.le_of_eq fixed.symm) (by decide) ?_
    rw [fixed, pointeeEnd_last (by simp), length_sharedBody, length_opaqueImage]
    omega
  have resolved : Resolves (sharedBody bytes) 57 57 [57, 57] (some (opaqueImage bytes)) := by
    refine resolves_of_pointee ?_ addressed
    rintro _ ⟨⟩
    exact ⟨⟨rfl, trivial⟩, rfl⟩
  exact (decode_fixedPart clip_sharedCopy addressable).mpr ⟨resolved, resolved⟩

/-- If the image's second copy lies at offset `2 ^ 32`, its pointer is null and the mask lost. -/
theorem decode_write_sharedCopy (wraps : 75 + bytes.length = 2 ^ 32) :
    decode (sharedCopy bytes).write ≠ .ok (sharedCopy bytes) := by
  have image_length : (imageBytes (some (opaqueImage bytes))).length = 2 ^ 32 - 57 := by
    rw [imageBytes, length_opaqueImage]
    omega
  have src_length : (imageBytes (sharedCopy bytes).srcBitmap).length = 2 ^ 32 - 57 :=
    image_length
  have mask_length : (imageBytes (sharedCopy bytes).mask.bitmap).length = 2 ^ 32 - 57 :=
    image_length
  have null : (sharedCopy bytes).maskPointer = 0 := by
    rw [maskPointer, fixedLen_sharedCopy, src_length]
    rfl
  have addressable : (sharedCopy bytes).write.length < 2 ^ 64 := by
    rw [length_write, fixedLen_sharedCopy, src_length, mask_length]
    omega
  intro decoded
  rw [write_eq] at decoded addressable
  obtain ⟨-, mask⟩ := (decode_fixedPart clip_sharedCopy addressable).mp decoded
  rw [null] at mask
  exact nomatch resolves_null_iff.mp mask

/-- A body that is too long for its offsets to fit into pointers is not read back. -/
theorem shared_image_lost :
    ∃ (body : Bytes) (value : DrawCopy), body.length = 2 ^ 32 ∧ decode body = .ok value ∧
      decode (write value) ≠ .ok value := by
  obtain ⟨bytes, wraps⟩ : ∃ bytes : Bytes, bytes.length = 2 ^ 32 - 75 :=
    ⟨List.replicate (2 ^ 32 - 75) 0, length_replicate⟩
  have wraps : 75 + bytes.length = 2 ^ 32 := by omega
  have long : (sharedBody bytes).length = 2 ^ 32 := length_sharedBody.trans wraps
  exact ⟨sharedBody bytes, sharedCopy bytes, long, decode_sharedBody (by omega),
    decode_write_sharedCopy wraps⟩

end Shared

end DrawCopy

end Ryll
