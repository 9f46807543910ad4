import Ryll.Protocol.Display

/-!
# Images on the wire

An image is a descriptor and, by the type the descriptor gives, a bitmap, a block of compressed
data, nothing, or bytes that are not interpreted.  Bytes that are not interpreted run to the end of
the region they are read from, so an image is a format of regions.
-/

namespace Ryll

/-- The types of images. -/
inductive ImageType
  | pixmap
  | quic
  | lzPalette
  | lzRgb
  | glzRgb
  | fromCache
  | surface
  | jpeg
  | fromCacheLossless
  | zlibGlzRgb
  | jpegAlpha
  | lz4
  deriving DecidableEq

def ImageType.fromU8 : UInt8 → Option ImageType
  | 0 => some .pixmap
  | 1 => some .quic
  | 100 => some .lzPalette
  | 101 => some .lzRgb
  | 102 => some .glzRgb
  | 103 => some .fromCache
  | 104 => some .surface
  | 105 => some .jpeg
  | 106 => some .fromCacheLossless
  | 107 => some .zlibGlzRgb
  | 108 => some .jpegAlpha
  | 109 => some .lz4
  | _ => none

/-- What opens every image.  The type is kept raw, so that an unknown one survives. -/
structure ImageDescriptor where
  imageId : UInt64
  imageType : UInt8
  flags : UInt8
  width : UInt32
  height : UInt32
  deriving DecidableEq

namespace ImageDescriptor

def wireSize : Nat := 18

def read : Reading ImageDescriptor := do
  let imageId ← readU64
  let imageType ← readU8
  let flags ← readU8
  let width ← readU32
  let height ← readU32
  return ⟨imageId, imageType, flags, width, height⟩

variable (descriptor : ImageDescriptor)

def write : Bytes :=
  toLeBytes descriptor.imageId ++ (toLeBytes descriptor.imageType ++
    (toLeBytes descriptor.flags ++ (toLeBytes descriptor.width ++ toLeBytes descriptor.height)))

instance : WireType ImageDescriptor := ⟨read, write⟩

@[simp]
theorem length_write : descriptor.write.length = wireSize := by
  simp [write, WireNumber.width, wireSize]

theorem format : WireFormat read write fun _ => True :=
  readNumber_format.field imageId fun _ =>
    readNumber_format.field imageType fun _ =>
      readNumber_format.field flags fun _ =>
        readNumber_format.field width fun _ =>
          readNumber_format.last height (fun _ _ => trivial) fun _ _ descriptor => by
            cases descriptor
            simp
            tauto

end ImageDescriptor

/-! ## Bitmaps -/

def palFromCache : UInt8 := 2

/-- Where the palette of a bitmap is. -/
inductive BitmapPalette
  | none
  /-- The palette lies at an offset from the start of the message body. -/
  | offset (pointer : UInt32)
  /-- The palette is one the client cached earlier. -/
  | fromCache (id : UInt64)
  deriving DecidableEq

namespace BitmapPalette

def ofPointer (pointer : UInt32) : BitmapPalette :=
  if pointer = 0 then .none else .offset pointer

variable (flags : UInt8)

def read : Reading BitmapPalette :=
  if flags &&& palFromCache ≠ 0 then fromCache <$> readU64 else ofPointer <$> readU32

def write : BitmapPalette → Bytes
  | .none => toLeBytes (0 : UInt32)
  | .offset pointer => toLeBytes pointer
  | .fromCache id => toLeBytes id

/-- The palette is of the kind that the flags say. -/
def Agrees : BitmapPalette → Prop
  | .none => flags &&& palFromCache = 0
  | .offset pointer => flags &&& palFromCache = 0 ∧ pointer ≠ 0
  | .fromCache _ => flags &&& palFromCache ≠ 0

theorem write_ofPointer (pointer : UInt32) : (ofPointer pointer).write = toLeBytes pointer := by
  rw [ofPointer]
  split
  · next null => rw [null, write]
  · rw [write]

theorem format : WireFormat (read flags) write (Agrees flags) := by
  rw [read]
  split
  · next cached =>
    apply readNumber_format.map
    · intro id
      rfl
    · intro palette
      cases palette with
      | none | offset pointer | fromCache id => simp [Agrees, cached]
  · next uncached =>
    have uncached : flags &&& palFromCache = 0 := not_not.mp uncached
    apply readNumber_format.map write_ofPointer
    intro palette
    cases palette with
    | none => simp [Agrees, uncached, ofPointer]
    | offset pointer | fromCache id => simp [Agrees, uncached, ofPointer, ite_eq_iff]

end BitmapPalette

/-- The fields of a bitmap. -/
structure BitmapHeader where
  format : UInt8
  flags : UInt8
  x : UInt32
  y : UInt32
  /-- The bytes from the start of one row to the start of the next. -/
  stride : UInt32
  palette : BitmapPalette
  deriving DecidableEq

namespace BitmapHeader

variable (header : BitmapHeader)

def dataLen : Option Nat :=
  let len := header.stride.toNat * header.y.toNat
  if len < 2 ^ 64 then some len else none

def read : Reading BitmapHeader := do
  let format ← readU8
  let flags ← readU8
  let x ← readU32
  let y ← readU32
  let stride ← readU32
  let palette ← BitmapPalette.read flags
  return ⟨format, flags, x, y, stride, palette⟩

def write : Bytes :=
  toLeBytes header.format ++ (toLeBytes header.flags ++ (toLeBytes header.x ++
    (toLeBytes header.y ++ (toLeBytes header.stride ++ header.palette.write))))

instance : WireType BitmapHeader := ⟨read, write⟩

theorem dataLen_eq : header.dataLen = some (header.stride.toNat * header.y.toNat) := by
  have fits : header.stride.toNat * header.y.toNat < 2 ^ 32 * 2 ^ 32 :=
    Nat.mul_lt_mul'' header.stride.toNat_lt header.y.toNat_lt
  exact if_pos fits

theorem wireFormat : WireFormat read write fun header => header.palette.Agrees header.flags :=
  readNumber_format.field format fun _ =>
    readNumber_format.field flags fun announced =>
      readNumber_format.field x fun _ =>
        readNumber_format.field y fun _ =>
          readNumber_format.field stride fun _ =>
            (BitmapPalette.format announced).last palette (by
                rintro header ⟨⟨⟨⟨⟨agrees, -⟩, rfl⟩, -⟩, -⟩, -⟩
                exact agrees)
              fun _ agrees header => by
                cases header
                constructor
                · rintro ⟨⟨⟨⟨⟨⟨-, rfl⟩, rfl⟩, rfl⟩, rfl⟩, rfl⟩, rfl⟩
                  rfl
                · rintro ⟨⟩
                  exact ⟨⟨⟨⟨⟨⟨agrees, rfl⟩, rfl⟩, rfl⟩, rfl⟩, rfl⟩, rfl⟩

end BitmapHeader

/-- A bitmap. -/
structure BitmapPayload where
  header : BitmapHeader
  data : Bytes
  deriving DecidableEq

namespace BitmapPayload

def readLen (header : BitmapHeader) : Reading Nat := fun reader =>
  match header.dataLen with
  | some len => .ok (len, reader)
  | none => .error (.tooLarge "bitmap data" (2 ^ 64 - 1) reader.remaining)

def read : Reading BitmapPayload := do
  let header ← BitmapHeader.read
  let len ← readLen header
  let data ← readBytes len
  return ⟨header, data⟩

def write (bitmap : BitmapPayload) : Bytes := bitmap.header.write ++ bitmap.data

instance : WireType BitmapPayload := ⟨read, write⟩

/-- The palette agrees with the flags, and the pixels fill the rows. -/
def Readable (bitmap : BitmapPayload) : Prop :=
  bitmap.header.palette.Agrees bitmap.header.flags ∧
    bitmap.data.length = bitmap.header.stride.toNat * bitmap.header.y.toNat

theorem readLen_eq (header : BitmapHeader) :
    readLen header = pure (header.stride.toNat * header.y.toNat) := by
  funext reader
  rw [readLen, header.dataLen_eq, Reading.pure_apply]

theorem format : WireFormat read write Readable := by
  refine BitmapHeader.wireFormat.bind header (fun _ _ => rfl) (fun _ valid => valid.1) ?_
  intro header agrees
  rw [readLen_eq, pure_bind]
  refine (readBytes_format _).last data ?_ fun pixels sized bitmap => ?_
  · rintro bitmap ⟨⟨-, sized⟩, rfl⟩
    exact sized
  · constructor
    · rintro ⟨⟨-, rfl⟩, rfl⟩
      rfl
    · rintro rfl
      exact ⟨⟨⟨agrees, sized⟩, rfl⟩, rfl⟩

end BitmapPayload

/-! ## Blocks of data -/

def writeSizedBytes (data : Bytes) : Bytes :=
  toLeBytes (UInt32.ofNat data.length) ++ data

/-- A block of compressed data. -/
structure BinaryData where
  data : Bytes
  deriving DecidableEq

namespace BinaryData

def readData : Reading Bytes := do
  let size ← readU32
  readBytes size.toNat

def read : Reading BinaryData := mk <$> readData

def write (block : BinaryData) : Bytes := writeSizedBytes block.data

instance : WireType BinaryData := ⟨read, write⟩

theorem readData_format : WireFormat readData writeSizedBytes fun data => data.length < 2 ^ 32 := by
  apply readNumber_format.bind (fun data : Bytes => UInt32.ofNat data.length)
  · intro data _
    rfl
  · intro data _
    trivial
  · intro size _
    refine (readBytes_format size.toNat).congr (fun data => ?_) fun _ _ => rfl
    constructor
    · intro sized
      exact ⟨sized ▸ size.toNat_lt, by rw [sized, UInt32.ofNat_toNat]⟩
    · rintro ⟨fits, rfl⟩
      exact (UInt32.toNat_ofNat_of_lt' fits).symm

theorem format : WireFormat read write fun block => block.data.length < 2 ^ 32 := by
  refine readData_format.map (fun _ => rfl) fun block => ?_
  exact ⟨fun fits => ⟨block.data, fits, rfl⟩, fun ⟨_, fits, made⟩ => made ▸ fits⟩

end BinaryData

/-! ## Payloads -/

/-- What follows a descriptor, by its type. -/
inductive ImagePayload
  | bitmap (pixels : BitmapPayload)
  | jpeg (block : BinaryData)
  | lz4 (block : BinaryData)
  /-- An image the client cached earlier has no data. -/
  | fromCache
  /-- Any other type: every byte up to the end of the region. -/
  | other (bytes : Bytes)
  deriving DecidableEq

namespace ImagePayload

def matchesType (payload : ImagePayload) (imageType : UInt8) : Bool :=
  let modelled :=
    match ImageType.fromU8 imageType with
    | some .pixmap => some (payload matches .bitmap _)
    | some .jpeg => some (payload matches .jpeg _)
    | some .lz4 => some (payload matches .lz4 _)
    | some .fromCache | some .fromCacheLossless => some (payload matches .fromCache)
    | _ => none
  modelled.getD (payload matches .other _)

def read (imageType : UInt8) : Reading ImagePayload :=
  match ImageType.fromU8 imageType with
  | some .pixmap => bitmap <$> BitmapPayload.read
  | some .jpeg => jpeg <$> BinaryData.read
  | some .lz4 => lz4 <$> BinaryData.read
  | some .fromCache | some .fromCacheLossless => pure fromCache
  | _ => other <$> (remainingBytes >>= readBytes)

def write : ImagePayload → Bytes
  | .bitmap pixels => pixels.write
  | .jpeg block | .lz4 block => block.write
  | .fromCache => []
  | .other bytes => bytes

/-- A bitmap is a readable one, and a block can be counted in a `u32`. -/
def Readable : ImagePayload → Prop
  | .bitmap pixels => pixels.Readable
  | .jpeg block | .lz4 block => block.data.length < 2 ^ 32
  | .fromCache | .other _ => True

theorem fromCache_format : RegionFormat (pure fromCache) write fun payload =>
      (payload matches .fromCache) ∧ payload.Readable := by
  refine ((WireFormat.pure fun _ => Iff.rfl).congr (fun payload => ?_) ?_).region
  · cases payload <;> simp [Readable]
  · rintro _ rfl
    rfl

theorem format (imageType : UInt8) : RegionFormat (read imageType) write fun payload =>
      payload.matchesType imageType ∧ payload.Readable := by
  rw [read]
  simp only [matchesType]
  split
  · refine BitmapPayload.format.region.map (fun _ => rfl) fun payload => ?_
    cases payload <;> simp [Readable]
  · refine BinaryData.format.region.map (fun _ => rfl) fun payload => ?_
    cases payload <;> simp [Readable]
  · refine BinaryData.format.region.map (fun _ => rfl) fun payload => ?_
    cases payload <;> simp [Readable]
  · exact fromCache_format
  · exact fromCache_format
  · refine readRest_format.map (fun _ => rfl) fun payload => ?_
    cases payload <;> simp [Readable]

end ImagePayload

/-! ## Images -/

/-- An image: a descriptor and the payload its type selects. -/
structure SpiceImage where
  descriptor : ImageDescriptor
  payload : ImagePayload
  deriving DecidableEq

namespace SpiceImage

def read : Reading SpiceImage := do
  let descriptor ← ImageDescriptor.read
  let payload ← ImagePayload.read descriptor.imageType
  return ⟨descriptor, payload⟩

variable (image : SpiceImage)

def write : Bytes := image.descriptor.write ++ image.payload.write

instance : WireType SpiceImage := ⟨read, write⟩

/-- The payload is the one the descriptor's type selects, and a readable one. -/
def Readable : Prop :=
  image.payload.matchesType image.descriptor.imageType ∧ image.payload.Readable

theorem length_write :
    image.write.length = ImageDescriptor.wireSize + image.payload.write.length := by
  simp [write]

theorem format : RegionFormat read write Readable := by
  refine ImageDescriptor.format.bindRegion descriptor (fun _ _ => rfl) (fun _ _ => trivial) ?_
  intro descriptor _
  refine (ImagePayload.format descriptor.imageType).last payload ?_ fun content valid image => ?_
  · rintro image ⟨readable, rfl⟩
    exact readable
  · constructor
    · rintro ⟨⟨-, rfl⟩, rfl⟩
      rfl
    · rintro rfl
      exact ⟨⟨valid, rfl⟩, rfl⟩

def hasPalettePointer (image : SpiceImage) : Bool :=
  match image.payload with
  | .bitmap pixels => (pixels.header.palette matches .offset _)
  | _ => false

/-- The image can be read, and reading it takes no palette pointer. -/
def Drawable (image : SpiceImage) : Prop :=
  image.Readable ∧ image.hasPalettePointer = false

end SpiceImage

/-! ## Well-formed images -/

/-- A palette that can be written. -/
def BitmapPalette.WellFormed (flags : UInt8) : BitmapPalette → Prop
  | .none => flags &&& palFromCache = 0
  | .offset _ => False
  | .fromCache _ => flags &&& palFromCache ≠ 0

instance (flags : UInt8) (palette : BitmapPalette) : Decidable (palette.WellFormed flags) :=
  match palette with
  | .none => inferInstanceAs (Decidable (_ = _))
  | .offset _ => .isFalse id
  | .fromCache _ => inferInstanceAs (Decidable (_ ≠ _))

theorem BitmapPalette.wellFormed_iff {flags : UInt8} {palette : BitmapPalette} :
    palette.WellFormed flags ↔ palette.Agrees flags ∧ (palette matches .offset _) = false := by
  cases palette <;> simp [WellFormed, Agrees]

/-- A bitmap has a palette exactly when its flags say so, and pixels that fill its rows. -/
def ImagePayload.WellFormed : ImagePayload → Prop
  | .bitmap ⟨header, data⟩ =>
    header.palette.WellFormed header.flags ∧ data.length = header.stride.toNat * header.y.toNat
  | _ => True

instance (payload : ImagePayload) : Decidable payload.WellFormed :=
  match payload with
  | .bitmap _ => inferInstanceAs (Decidable (_ ∧ _))
  | .jpeg _ | .lz4 _ | .fromCache | .other _ => .isTrue trivial

namespace SpiceImage

/-- The payload is the one the descriptor's type selects, and a well-formed one. -/
def WellFormed (image : SpiceImage) : Prop :=
  image.payload.matchesType image.descriptor.imageType ∧ image.payload.WellFormed

instance (image : SpiceImage) : Decidable image.WellFormed :=
  inferInstanceAs (Decidable (_ ∧ _))

theorem WellFormed.drawable {image : SpiceImage} (wellFormed : image.WellFormed)
    (fits : image.write.length < 2 ^ 32) : image.Drawable := by
  rw [length_write] at fits
  obtain ⟨descriptor, payload⟩ := image
  obtain ⟨matching, content⟩ := wellFormed
  cases payload with
  | bitmap pixels =>
    obtain ⟨palette, sized⟩ := content
    obtain ⟨agrees, direct⟩ := BitmapPalette.wellFormed_iff.mp palette
    exact ⟨⟨matching, agrees, sized⟩, direct⟩
  | jpeg block | lz4 block =>
    have counted : block.write.length = 4 + block.data.length := by
      simp [BinaryData.write, writeSizedBytes, WireNumber.width]
    simp only [ImagePayload.write, counted] at fits
    refine ⟨⟨matching, ?_⟩, rfl⟩
    simp only [ImagePayload.Readable]
    omega
  | fromCache | other => exact ⟨⟨matching, trivial⟩, rfl⟩

end SpiceImage

end Ryll
