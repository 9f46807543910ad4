import Ryll.Protocol.Image

/-!
# The DRAW_COPY message

A DRAW_COPY body addresses its images by pointers, which are offsets from the start of the body.
The reader follows them wherever they point behind the fixed fields; the writer lays the images out
behind the fixed fields in one order and patches the pointers.
-/

namespace Ryll

/-! ## Pointers -/

def pointeeEnd (body : Bytes) (offset : Nat) (pointers : List UInt32) : Nat :=
  min (((pointers.map UInt32.toNat).filter (offset < ·)).min?.getD body.length) body.length

def pointee (body : Bytes) (fixedLen : Nat) (offset : UInt32) (pointers : List UInt32) :
    Outcome LinkError (Option BoundedReader) :=
  if offset = 0 then
    .ok none
  else if offset.toNat < fixedLen then
    .error (.pointerIntoFixedPart offset.toNat fixedLen)
  else do
    let len := pointeeEnd body offset.toNat pointers - offset.toNat
    let region ← (BoundedReader.new body).subReader offset.toNat len
    return some region

def readPointee (region : Option BoundedReader) (offset : UInt32) :
    Outcome LinkError (Option (SpiceImage × Nat)) :=
  match region with
  | none => .ok none
  | some region => do
    let (image, region) ← SpiceImage.read region
    if image.hasPalettePointer then
      .error (.unsupported "bitmap palette pointer")
    else
      return some (image, offset.toNat + region.pos)

/-- The body of DRAW_COPY behind its base, as it is on the wire. -/
structure SpiceCopy where
  srcBitmap : UInt32
  srcArea : Rect
  ropDescriptor : UInt16
  scaleMode : UInt8
  mask : SpiceQMask

namespace SpiceCopy

def wireSize : Nat := 4 + Rect.wireSize + 2 + 1 + SpiceQMask.wireSize

variable (copy : SpiceCopy)

def pointers : List UInt32 := [copy.srcBitmap, copy.mask.bitmapOffset]

def srcBitmapReader (body : Bytes) (fixedLen : Nat) :
    Outcome LinkError (Option BoundedReader) :=
  pointee body fixedLen copy.srcBitmap copy.pointers

def maskBitmapReader (body : Bytes) (fixedLen : Nat) :
    Outcome LinkError (Option BoundedReader) :=
  pointee body fixedLen copy.mask.bitmapOffset copy.pointers

def read : Reading SpiceCopy := do
  let srcBitmap ← readU32
  let srcArea ← Rect.read
  let ropDescriptor ← readU16
  let scaleMode ← readU8
  let mask ← SpiceQMask.read
  return ⟨srcBitmap, srcArea, ropDescriptor, scaleMode, mask⟩

def write (copy : SpiceCopy) : Bytes :=
  toLeBytes copy.srcBitmap ++ (copy.srcArea.write ++ (toLeBytes copy.ropDescriptor ++
    (toLeBytes copy.scaleMode ++ copy.mask.write)))

instance : WireType SpiceCopy := ⟨read, write⟩

@[simp]
theorem length_write : copy.write.length = wireSize := by
  simp [write, WireNumber.width, wireSize]
  omega

theorem format : WireFormat read write fun _ => True :=
  readNumber_format.field srcBitmap fun _ =>
    Rect.format.field srcArea fun _ =>
      readNumber_format.field ropDescriptor fun _ =>
        readNumber_format.field scaleMode fun _ =>
          SpiceQMask.format.last mask (fun _ _ => trivial) fun _ _ copy => by
            cases copy
            simp
            tauto

end SpiceCopy

/-- A mask with its image. -/
structure QMask where
  flags : UInt8
  pos : SpicePoint
  bitmap : Option SpiceImage
  deriving DecidableEq

/-- A message with its images. -/
structure DrawCopy where
  base : DrawBase
  srcBitmap : Option SpiceImage
  srcArea : Rect
  ropDescriptor : UInt16
  scaleMode : UInt8
  mask : QMask
  deriving DecidableEq

/-- The fields of a DRAW_COPY and its images, before the body is laid out. -/
structure DrawCopyBuilder where
  base : DrawBase
  srcBitmap : Option SpiceImage
  srcArea : Rect
  ropDescriptor : UInt16
  scaleMode : UInt8
  maskFlags : UInt8
  maskPos : SpicePoint
  maskBitmap : Option SpiceImage

/-! ## Writing -/

variable (out : Bytes)

def appendPointee (start : Nat) : Option SpiceImage → Bytes × UInt32
  | none => (out, 0)
  | some image => (out ++ image.write, UInt32.ofNat (out.length - start))

def patchU32 (index : Nat) (value : UInt32) (_ : index + 4 ≤ out.length) : Bytes :=
  splice out index (toLeBytes value)

theorem length_le_appendPointee (start : Nat) (image : Option SpiceImage) :
    out.length ≤ (appendPointee out start image).1.length := by
  cases image with
  | none => exact Nat.le_refl _
  | some image => simp [appendPointee]

@[simp]
theorem length_patchU32 {out : Bytes} {index : Nat} {value : UInt32}
    (inside : index + 4 ≤ out.length) : (patchU32 out index value inside).length = out.length :=
  length_splice (by simpa [WireNumber.width] using inside)

namespace DrawCopyBuilder

def copyFields (builder : DrawCopyBuilder) (src mask : UInt32) : SpiceCopy :=
  ⟨src, builder.srcArea, builder.ropDescriptor, builder.scaleMode,
    ⟨builder.maskFlags, builder.maskPos, mask⟩⟩

def write (builder : DrawCopyBuilder) (out : Bytes) : Bytes :=
  let start := out.length
  let based := out ++ builder.base.write
  let copyAt := based.length
  let fixed := based ++ (builder.copyFields 0 0).write
  let src := appendPointee fixed start builder.srcBitmap
  let mask := appendPointee src.1 start builder.maskBitmap
  have room : copyAt + SpiceCopy.wireSize ≤ mask.1.length :=
    calc copyAt + SpiceCopy.wireSize
      _ = fixed.length := by simp [fixed, copyAt]
      _ ≤ src.1.length := length_le_appendPointee fixed start builder.srcBitmap
      _ ≤ mask.1.length := length_le_appendPointee src.1 start builder.maskBitmap
  let pointed := patchU32 mask.1 copyAt src.2 (by
    rw [SpiceCopy.wireSize] at room
    omega)
  patchU32 pointed (copyAt + SpiceCopy.wireSize - 4) mask.2 (by
    rw [length_patchU32]
    rw [SpiceCopy.wireSize] at room ⊢
    omega)

end DrawCopyBuilder

namespace DrawCopy

def builder (value : DrawCopy) : DrawCopyBuilder :=
  ⟨value.base, value.srcBitmap, value.srcArea, value.ropDescriptor, value.scaleMode,
    value.mask.flags, value.mask.pos, value.mask.bitmap⟩

def write (value : DrawCopy) : Bytes := value.builder.write []

/-! ## Reading -/

def usedEnd (src mask : Option (SpiceImage × Nat)) (fixedLen : Nat) : Nat :=
  ([src, mask].filterMap fun image => image.map Prod.snd).foldl max fixedLen

def resolve (body : Bytes) (base : DrawBase) (copy : SpiceCopy) : Reading DrawCopy := do
  let fixedLen := (← get).pos
  let src ← readPointee (← copy.srcBitmapReader body fixedLen) copy.srcBitmap
  let mask ← readPointee (← copy.maskBitmapReader body fixedLen) copy.mask.bitmapOffset
  let _ ← readBytes (usedEnd src mask fixedLen - fixedLen)
  return {
    base
    srcBitmap := src.map Prod.fst
    srcArea := copy.srcArea
    ropDescriptor := copy.ropDescriptor
    scaleMode := copy.scaleMode
    mask := ⟨copy.mask.flags, copy.mask.pos, mask.map Prod.fst⟩ }

def read : Reading DrawCopy := do
  let reader ← get
  let body ← reader.sliceAt 0 (reader.pos + reader.remaining)
  let base ← DrawBase.read
  let copy ← SpiceCopy.read
  resolve body base copy

instance : WireType DrawCopy := ⟨read, write⟩

end DrawCopy

/-! ## What a pointer addresses -/

theorem pointee_null (body : Bytes) (fixedLen : Nat) (pointers : List UInt32) :
    pointee body fixedLen 0 pointers = .ok none := if_pos rfl

variable {body : Bytes} {pointers : List UInt32} {offset : UInt32}

open BoundedReader

theorem pointee_inside {fixedLen : Nat}
    {region : BoundedReader} (found : pointee body fixedLen offset pointers = .ok (some region)) :
    fixedLen ≤ offset.toNat ∧ ∃ len, offset.toNat + len ≤ body.length ∧
      region = .new ((body.drop offset.toNat).take len) := by
  rw [pointee] at found
  split at found
  · cases found
  split at found
  · cases found
  next behind =>
  obtain ⟨region', addressed, same⟩ := bind_eq_ok.mp found
  obtain ⟨bytes, sliced, fresh⟩ := bind_eq_ok.mp addressed
  rw [sliceAt] at sliced
  split at sliced
  · next fits =>
    cases sliced
    cases fresh
    cases same
    exact ⟨Nat.le_of_not_lt behind, _, fits.2, rfl⟩
  · cases sliced

theorem pointee_of_split {front bytes rest : Bytes} {fixedLen : Nat}
    (split : body = front ++ (bytes ++ rest))
    (addressable : body.length < 2 ^ 64) (place : offset.toNat = front.length)
    (behind : fixedLen ≤ front.length) (positive : 0 < fixedLen)
    (ends : pointeeEnd body front.length pointers = front.length + bytes.length) :
    pointee body fixedLen offset pointers = .ok (some (.new bytes)) := by
  have pointed : ¬ offset = 0 := by
    rintro rfl
    have null : (0 : UInt32).toNat = 0 := rfl
    omega
  have long : front.length + bytes.length ≤ body.length := by
    rw [split]
    simp
  have sliced : (new body).sliceAt front.length bytes.length = .ok bytes := by
    rw [sliceAt, if_pos ⟨by omega, long⟩]
    simp [new, split]
  rw [pointee, if_neg pointed, place, if_neg (by omega), ends, Nat.add_sub_cancel_left]
  simp [subReader, sliced]

theorem readPointee_inside {fixedLen stop : Nat}
    {region : Option BoundedReader} {image : SpiceImage}
    (found : pointee body fixedLen offset pointers = .ok region)
    (read : readPointee region offset = .ok (some (image, stop))) :
    image.Drawable ∧ fixedLen ≤ offset.toNat ∧
      stop = offset.toNat + image.write.length ∧ stop ≤ body.length := by
  cases region with
  | none => cases read
  | some region =>
    obtain ⟨behind, len, inside, rfl⟩ := pointee_inside found
    obtain ⟨⟨image', region'⟩, parsed, returned⟩ := bind_eq_ok.mp read
    obtain ⟨readable, after, split, rfl⟩ := SpiceImage.format.sound [] _ _ _ parsed
    dsimp only at returned
    split at returned
    · cases returned
    next direct =>
    cases returned
    have long := congrArg List.length split
    simp only [List.length_take, List.length_drop, List.length_append] at long
    refine ⟨⟨readable, Bool.eq_false_iff.mpr direct⟩, behind, rfl, ?_⟩
    simp only [between, List.nil_append]
    omega

/-- The pointer leads to the image, or is null if there is none. -/
def Resolves (body : Bytes) (fixedLen : Nat) (offset : UInt32) (pointers : List UInt32)
    (image : Option SpiceImage) : Prop :=
  ∃ region taken, pointee body fixedLen offset pointers = .ok region ∧
    readPointee region offset = .ok taken ∧ taken.map Prod.fst = image

section Resolving

variable {body : Bytes} {fixedLen : Nat} {offset : UInt32} {pointers : List UInt32}

theorem Resolves.inside {image : SpiceImage}
    (resolves : Resolves body fixedLen offset pointers (some image)) :
    image.Drawable ∧ fixedLen ≤ offset.toNat ∧ offset.toNat + image.write.length ≤ body.length := by
  obtain ⟨region, taken, found, read, same⟩ := resolves
  obtain ⟨⟨_, stop⟩, rfl, rfl⟩ := Option.map_eq_some_iff.mp same
  obtain ⟨drawable, behind, rfl, inside⟩ := readPointee_inside found read
  exact ⟨drawable, behind, inside⟩

variable {image : Option SpiceImage}

theorem resolves_null_iff : Resolves body fixedLen 0 pointers image ↔ image = none := by
  constructor
  · rintro ⟨region, taken, found, read, rfl⟩
    cases found
    cases read
    rfl
  · rintro rfl
    exact ⟨none, none, pointee_null body fixedLen pointers, rfl, rfl⟩

theorem resolves_of_pointee (drawable : ∀ item ∈ image, item.Drawable)
    (found : pointee body fixedLen offset pointers = .ok (image.map fun item => .new item.write)) :
    Resolves body fixedLen offset pointers image := by
  cases image with
  | none => exact ⟨none, none, found, rfl, rfl⟩
  | some image =>
    obtain ⟨readable, direct⟩ := drawable image rfl
    have parsed := SpiceImage.format.complete image [] readable
    refine ⟨_, some (image, offset.toNat + image.write.length), found, ?_, rfl⟩
    rw [Option.map_some, readPointee, new_eq_between, parsed]
    simp [direct, between]

end Resolving

namespace DrawCopy

open BoundedReader Outcome Reading

variable (value : DrawCopy)

/-- The fields of a message with given pointers, as they are on the wire. -/
def fixedPart (src mask : UInt32) : Bytes :=
  value.base.write ++ (value.builder.copyFields src mask).write

def fixedLen : Nat := value.base.write.length + SpiceCopy.wireSize

@[simp]
theorem length_fixedPart (src mask : UInt32) :
    (value.fixedPart src mask).length = value.fixedLen := by
  simp [fixedPart, fixedLen]

theorem usedEnd_le {src mask : Option (SpiceImage × Nat)} {fixedLen bound : Nat}
    (fixed : fixedLen ≤ bound) (src_inside : ∀ taken ∈ src, taken.2 ≤ bound)
    (mask_inside : ∀ taken ∈ mask, taken.2 ≤ bound) : usedEnd src mask fixedLen ≤ bound := by
  cases src <;> cases mask <;> simp_all [usedEnd]

variable {value : DrawCopy}

theorem resolve_returns {src mask : UInt32} {fixed tail : Bytes} :
    (∃ reader', resolve (fixed ++ tail) value.base (value.builder.copyFields src mask)
        (between fixed tail) = .ok (value, reader')) ↔
      Resolves (fixed ++ tail) fixed.length src [src, mask] value.srcBitmap ∧
        Resolves (fixed ++ tail) fixed.length mask [src, mask] value.mask.bitmap := by
  simp only [resolve, bind_apply, lift_apply, get_apply, ok_bind,
    bind_assoc, pure_apply]
  constructor
  · rintro ⟨reader', returned⟩
    obtain ⟨srcRegion, src_found, returned⟩ := bind_eq_ok.mp returned
    obtain ⟨srcTaken, src_read, returned⟩ := bind_eq_ok.mp returned
    obtain ⟨maskRegion, mask_found, returned⟩ := bind_eq_ok.mp returned
    obtain ⟨maskTaken, mask_read, returned⟩ := bind_eq_ok.mp returned
    obtain ⟨rest, -, returned⟩ := bind_eq_ok.mp returned
    simp only [ok.injEq, Prod.mk.injEq] at returned
    obtain ⟨same, -⟩ := returned
    refine ⟨⟨srcRegion, srcTaken, src_found, src_read, ?_⟩,
      ⟨maskRegion, maskTaken, mask_found, mask_read, ?_⟩⟩
    · rw [← same]
    · rw [← same]
  · rintro ⟨⟨srcRegion, srcTaken, src_found, src_read, src_same⟩,
      ⟨maskRegion, maskTaken, mask_found, mask_read, mask_same⟩⟩
    have used : usedEnd srcTaken maskTaken fixed.length ≤ (fixed ++ tail).length := by
      apply usedEnd_le
      · simp
      · rintro ⟨image, stop⟩ rfl
        exact (readPointee_inside src_found src_read).2.2.2
      · rintro ⟨image, stop⟩ rfl
        exact (readPointee_inside mask_found mask_read).2.2.2
    have room : usedEnd srcTaken maskTaken fixed.length - fixed.length ≤ tail.length := by
      rw [List.length_append] at used
      omega
    obtain ⟨⟨bytes, reader'⟩, taken⟩ : ∃ result,
        readBytes (usedEnd srcTaken maskTaken fixed.length - fixed.length) (between fixed tail) =
          .ok result :=
      ⟨_, (readBytes_between _ fixed tail).trans (if_pos room)⟩
    have rebuilt : value = ⟨value.base, srcTaken.map Prod.fst, value.srcArea, value.ropDescriptor,
        value.scaleMode, ⟨value.mask.flags, value.mask.pos, maskTaken.map Prod.fst⟩⟩ := by
      rw [src_same, mask_same]
    refine ⟨reader', bind_eq_ok.mpr ⟨srcRegion, src_found, ?_⟩⟩
    refine bind_eq_ok.mpr ⟨srcTaken, src_read, ?_⟩
    refine bind_eq_ok.mpr ⟨maskRegion, mask_found, ?_⟩
    refine bind_eq_ok.mpr ⟨maskTaken, mask_read, ?_⟩
    refine bind_eq_ok.mpr ⟨(bytes, reader'), taken, ?_⟩
    exact congrArg (fun value => ok (value, reader')) rebuilt.symm

theorem read_new (addressable : body.length < 2 ^ 64) :
    read (new body) = (do
        let base ← DrawBase.read
        let copy ← SpiceCopy.read
        resolve body base copy) (new body) := by
  have whole : (new body).sliceAt 0 ((new body).pos + (new body).remaining) = .ok body := by
    rw [sliceAt, if_pos ⟨by simpa [new, remaining] using addressable, by simp [new, remaining]⟩]
    simp [new, remaining]
  simp only [read, bind_apply, get_apply, lift_apply, ok_bind, whole]

/-- The fixed fields are read as a message exactly if their pointers lead to its images. -/
theorem decode_fixedPart {src mask : UInt32} {tail : Bytes}
    (readable : value.base.clip.Readable)
    (addressable : (value.fixedPart src mask ++ tail).length < 2 ^ 64) :
    (decode (value.fixedPart src mask ++ tail) : Outcome LinkError DrawCopy) = .ok value ↔
      Resolves (value.fixedPart src mask ++ tail) value.fixedLen src [src, mask] value.srcBitmap ∧
        Resolves (value.fixedPart src mask ++ tail) value.fixedLen mask [src, mask]
          value.mask.bitmap := by
  have read_base := DrawBase.format.complete value.base []
    ((value.builder.copyFields src mask).write ++ tail) readable
  have read_copy := SpiceCopy.format.complete (value.builder.copyFields src mask)
    value.base.write tail trivial
  have followed : read (new (value.fixedPart src mask ++ tail)) =
      resolve (value.fixedPart src mask ++ tail) value.base (value.builder.copyFields src mask)
        (between (value.fixedPart src mask) tail) := by
    rw [read_new addressable, new_eq_between]
    simp only [fixedPart, List.append_assoc, bind_apply, read_base, ok_bind,
      read_copy, List.nil_append]
  rw [← length_fixedPart value src mask, ← resolve_returns, decode_eq_ok, ← followed]
  rfl

theorem decode_sound (addressable : body.length < 2 ^ 64) (decoded : decode body = .ok value) :
    value.base.clip.Readable ∧ ∃ src mask tail, body = value.fixedPart src mask ++ tail := by
  obtain ⟨reader', returned⟩ := decode_eq_ok.mp decoded
  have returned : read (new body) = .ok (value, reader') := returned
  rw [read_new addressable, bind_apply] at returned
  obtain ⟨⟨base, reader⟩, read_base, returned⟩ := bind_eq_ok.mp returned
  obtain ⟨readable, rest, rfl, rfl⟩ := DrawBase.format.sound [] _ _ _ read_base
  obtain ⟨⟨copy, reader⟩, read_copy, returned⟩ := bind_eq_ok.mp returned
  obtain ⟨-, tail, rfl, rfl⟩ := SpiceCopy.format.sound _ _ _ _ read_copy
  obtain ⟨srcRegion, -, returned⟩ := bind_eq_ok.mp returned
  obtain ⟨src, -, returned⟩ := bind_eq_ok.mp returned
  obtain ⟨maskRegion, -, returned⟩ := bind_eq_ok.mp returned
  obtain ⟨mask, -, returned⟩ := bind_eq_ok.mp returned
  obtain ⟨rest, -, returned⟩ := bind_eq_ok.mp returned
  cases returned
  refine ⟨readable, copy.srcBitmap, copy.mask.bitmapOffset, tail, ?_⟩
  rw [fixedPart, List.append_assoc]
  rfl

end DrawCopy

end Ryll
