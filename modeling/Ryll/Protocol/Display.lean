import Ryll.Protocol.Reader

/-!
# Display messages

The types that the drawing messages of the display channel are made of, with their layouts.
-/

namespace Ryll

/-- A rectangle of the wire. -/
structure Rect where
  top : Int32
  left : Int32
  bottom : Int32
  right : Int32
  deriving DecidableEq

namespace Rect

def wireSize : Nat := 16

def read : Reading Rect := do
  let top ← readI32
  let left ← readI32
  let bottom ← readI32
  let right ← readI32
  return ⟨top, left, bottom, right⟩

def write (rect : Rect) : Bytes :=
  toLeBytes rect.top ++ (toLeBytes rect.left ++ (toLeBytes rect.bottom ++ toLeBytes rect.right))

instance : WireType Rect := ⟨read, write⟩

@[simp]
theorem length_write (rect : Rect) : rect.write.length = wireSize := by
  simp [write, WireNumber.width, wireSize]

theorem format : WireFormat read write fun _ => True :=
  readNumber_format.field top fun _ =>
    readNumber_format.field left fun _ =>
      readNumber_format.field bottom fun _ =>
        readNumber_format.last right (fun _ _ => trivial) fun _ _ rect => by
          cases rect
          simp
          tauto

end Rect

def clipTypeRects : UInt8 := 1

/-- A clip: for the type RECTS, the rectangles whose union a draw may touch. -/
structure Clip where
  clipType : UInt8
  rects : List Rect
  deriving DecidableEq

namespace Clip

def readRects : Reading (List Rect) := do
  let count ← readU32
  checkCount "num_rects" count.toNat Rect.wireSize
  readMany Rect.read count.toNat

/-- Parse a clip.  A type other than RECTS is kept, with no rectangles. -/
def read : Reading Clip := do
  let clipType ← readU8
  let rects ← if clipType = clipTypeRects then readRects else pure []
  return ⟨clipType, rects⟩

def write (clip : Clip) : Bytes :=
  toLeBytes clip.clipType ++ if clip.clipType = clipTypeRects then
      toLeBytes (UInt32.ofNat clip.rects.length) ++ clip.rects.flatMap Rect.write
    else
      []

instance : WireType Clip := ⟨read, write⟩

/-- Only a clip of rectangles has some. -/
def WellFormed (clip : Clip) : Prop := clip.clipType = clipTypeRects ∨ clip.rects = []

instance (clip : Clip) : Decidable clip.WellFormed :=
  inferInstanceAs (Decidable (_ ∨ _))

/-- A clip that is read back. -/
def Readable (clip : Clip) : Prop := clip.WellFormed ∧ clip.rects.length < 2 ^ 32

theorem WellFormed.readable {clip : Clip} (wellFormed : clip.WellFormed)
    (fits : clip.write.length < 2 ^ 32) : clip.Readable := by
  refine ⟨wellFormed, ?_⟩
  rcases wellFormed with carries | none
  · have counted : (clip.rects.flatMap Rect.write).length = clip.rects.length * Rect.wireSize := by
      simp [List.length_flatMap]
    rw [write, if_pos carries] at fits
    simp only [List.length_append, counted, Rect.wireSize] at fits
    omega
  · simp [none]

theorem readRects_format : WireFormat readRects
      (fun rects => toLeBytes (UInt32.ofNat rects.length) ++ rects.flatMap Rect.write)
      fun rects => rects.length < 2 ^ 32 := by
  apply readNumber_format.bind (fun rects => UInt32.ofNat rects.length)
  · intro rects _
    rfl
  · intro rects _
    trivial
  · intro count _
    have elements := Rect.format.counted "num_rects" count.toNat (by decide) Rect.length_write
    refine elements.congr (fun rects => ?_) fun _ _ => rfl
    constructor
    · rintro ⟨counted, -⟩
      exact ⟨counted ▸ count.toNat_lt, by rw [counted, UInt32.ofNat_toNat]⟩
    · rintro ⟨fits, rfl⟩
      exact ⟨(UInt32.toNat_ofNat_of_lt' fits).symm, fun _ _ => trivial⟩

theorem format : WireFormat read write Readable := by
  apply readNumber_format.bind clipType (fun _ _ => rfl) (fun _ _ => trivial)
  intro kind _
  by_cases carries : kind = clipTypeRects
  · rw [if_pos carries]
    refine readRects_format.bind rects ?_ ?_ fun rects fits => .pure fun clip => ?_
    · rintro clip ⟨-, rfl⟩
      rw [if_pos carries, List.append_nil]
    · rintro clip ⟨⟨-, fits⟩, -⟩
      exact fits
    · constructor
      · rintro ⟨⟨-, rfl⟩, rfl⟩
        rfl
      · rintro rfl
        exact ⟨⟨⟨.inl carries, fits⟩, rfl⟩, rfl⟩
  · rw [if_neg carries]
    refine (WireFormat.pure fun _ => Iff.rfl).bind rects ?_ ?_ fun rects none =>
      .pure fun clip => ?_
    · rintro clip ⟨-, rfl⟩
      rw [if_neg carries, List.append_nil]
    · rintro clip ⟨⟨wellFormed, -⟩, rfl⟩
      exact wellFormed.resolve_left carries
    · subst none
      constructor
      · rintro ⟨⟨-, rfl⟩, empty⟩
        exact congrArg (Clip.mk clip.clipType) empty
      · rintro rfl
        exact ⟨⟨⟨.inr rfl, by simp⟩, rfl⟩, rfl⟩

end Clip

/-- What opens every draw message: the surface, the bounding box and the clip. -/
structure DrawBase where
  surfaceId : UInt32
  bbox : Rect
  clip : Clip
  deriving DecidableEq

namespace DrawBase

def minWireSize : Nat := 4 + Rect.wireSize + 1

def read : Reading DrawBase := do
  let surfaceId ← readU32
  let bbox ← Rect.read
  let clip ← Clip.read
  return ⟨surfaceId, bbox, clip⟩

def write (base : DrawBase) : Bytes :=
  toLeBytes base.surfaceId ++ (base.bbox.write ++ base.clip.write)

instance : WireType DrawBase := ⟨read, write⟩

theorem format : WireFormat read write fun base => base.clip.Readable :=
  readNumber_format.field surfaceId fun _ =>
    Rect.format.field bbox fun _ =>
      Clip.format.last clip (fun _ valid => valid.1.1) fun _ readable base => by
        cases base
        constructor
        · rintro ⟨⟨⟨-, rfl⟩, rfl⟩, rfl⟩
          rfl
        · rintro ⟨⟩
          exact ⟨⟨⟨readable, rfl⟩, rfl⟩, rfl⟩

end DrawBase

/-- A point of the wire. -/
structure SpicePoint where
  x : Int32
  y : Int32
  deriving DecidableEq

namespace SpicePoint

def wireSize : Nat := 8

def read : Reading SpicePoint := do
  let x ← readI32
  let y ← readI32
  return ⟨x, y⟩

def write (point : SpicePoint) : Bytes := toLeBytes point.x ++ toLeBytes point.y

instance : WireType SpicePoint := ⟨read, write⟩

@[simp]
theorem length_write (point : SpicePoint) : point.write.length = wireSize := by
  simp [write, WireNumber.width, wireSize]

theorem format : WireFormat read write fun _ => True :=
  readNumber_format.field x fun _ =>
    readNumber_format.last y (fun _ _ => trivial) fun _ _ point => by
      cases point
      simp

end SpicePoint

/-- The mask of a draw as it is on the wire, its image an offset into the message body. -/
structure SpiceQMask where
  flags : UInt8
  pos : SpicePoint
  /-- Zero means that there is no mask image. -/
  bitmapOffset : UInt32

namespace SpiceQMask

def wireSize : Nat := 13

def read : Reading SpiceQMask := do
  let flags ← readU8
  let pos ← SpicePoint.read
  let bitmapOffset ← readU32
  return ⟨flags, pos, bitmapOffset⟩

def write (mask : SpiceQMask) : Bytes :=
  toLeBytes mask.flags ++ (mask.pos.write ++ toLeBytes mask.bitmapOffset)

instance : WireType SpiceQMask := ⟨read, write⟩

@[simp]
theorem length_write (mask : SpiceQMask) : mask.write.length = wireSize := by
  simp [write, WireNumber.width, wireSize, SpicePoint.wireSize]

theorem format : WireFormat read write fun _ => True :=
  readNumber_format.field flags fun _ =>
    SpicePoint.format.field pos fun _ =>
      readNumber_format.last bitmapOffset (fun _ _ => trivial) fun _ _ mask => by
        cases mask
        simp
        tauto

end SpiceQMask

end Ryll
