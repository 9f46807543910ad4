import Ryll.Display.Surface

/-!
# Single pixels

The operations on one pixel of a buffer of RGBA bytes.  Each of them replaces the four bytes of the
pixel by those of a colour.
-/

namespace Ryll

open List

variable {length : Nat}

def setPixel (p : Nat) (colour : Rgba) (pixels : FixedBuffer UInt8 length) :
    Outcome Empty (FixedBuffer UInt8 length) := do
  let pixels ← pixels.write p colour.r
  let pixels ← pixels.write (← addUsize p 1) colour.g
  let pixels ← pixels.write (← addUsize p 2) colour.b
  pixels.write (← addUsize p 3) colour.a

def invertPixel (p : Nat) (pixels : FixedBuffer UInt8 length) :
    Outcome Empty (FixedBuffer UInt8 length) := do
  let pixels ← pixels.write p (255 - (← readAt pixels.items p))
  let green ← addUsize p 1
  let pixels ← pixels.write green (255 - (← readAt pixels.items green))
  let blue ← addUsize p 2
  pixels.write blue (255 - (← readAt pixels.items blue))

def readPixel (source : Bytes) (p : Nat) : Outcome Empty Rgba := do
  let red ← readAt source p
  let green ← readAt source (← addUsize p 1)
  let blue ← readAt source (← addUsize p 2)
  let alpha ← readAt source (← addUsize p 3)
  return ⟨red, green, blue, alpha⟩

def blendChannel (source dest : UInt8) (effective inverse : Nat) : Outcome Empty UInt8 := do
  let sum ← addChecked 16 (← mulChecked 16 source.toNat effective)
    (← mulChecked 16 dest.toNat inverse)
  let rounded ← addChecked 16 sum 127
  return UInt8.ofNat (rounded / 255)

def blendPixel (source : Rgba) (alpha : UInt8) (dp : Nat) (pixels : FixedBuffer UInt8 length) :
    Outcome Empty (FixedBuffer UInt8 length) := do
  let scaled ← mulChecked 16 source.a.toNat alpha.toNat
  let effective := (← addChecked 16 scaled 127) / 255
  let inverse ← subChecked 255 effective
  let red ← readAt pixels.items dp
  let green ← readAt pixels.items (← addUsize dp 1)
  let blue ← readAt pixels.items (← addUsize dp 2)
  let outRed ← blendChannel source.r red effective inverse
  let outGreen ← blendChannel source.g green effective inverse
  let outBlue ← blendChannel source.b blue effective inverse
  setPixel dp ⟨outRed, outGreen, outBlue, 255⟩ pixels

/-! ## Colours -/

def colourAt (bytes : Bytes) (position : Nat) : Option Rgba := do
  let r ← bytes[position]?
  let g ← bytes[position + 1]?
  let b ← bytes[position + 2]?
  let a ← bytes[position + 3]?
  return ⟨r, g, b, a⟩

/-- A weighted mean of two channels, rounded; the weights add up to 255. -/
def mixChannel (effective : Nat) (source dest : UInt8) : UInt8 :=
  UInt8.ofNat ((source.toNat * effective + dest.toNat * (255 - effective) + 127) / 255)

def effectiveAlpha (source : Rgba) (alpha : UInt8) : Nat :=
  (source.a.toNat * alpha.toNat + 127) / 255

def blendOver (alpha : UInt8) (source dest : Rgba) : Rgba where
  r := mixChannel (effectiveAlpha source alpha) source.r dest.r
  g := mixChannel (effectiveAlpha source alpha) source.g dest.g
  b := mixChannel (effectiveAlpha source alpha) source.b dest.b
  a := 255

/-- The colour with its channels inverted and its alpha kept. -/
def Rgba.inverted (colour : Rgba) : Rgba :=
  ⟨255 - colour.r, 255 - colour.g, 255 - colour.b, colour.a⟩

theorem Rgba.bytes_injective {colour colour' : Rgba} (same : colour.bytes = colour'.bytes) :
    colour = colour' := by
  cases colour
  cases colour'
  simpa [Rgba.bytes] using same

variable {bytes : Bytes} {position : Nat}

theorem colourAt_eq_some {colour : Rgba} : colourAt bytes position = some colour ↔
    bytes[position]? = some colour.r ∧ bytes[position + 1]? = some colour.g ∧
      bytes[position + 2]? = some colour.b ∧ bytes[position + 3]? = some colour.a := by
  obtain ⟨r, g, b, a⟩ := colour
  simp only [colourAt, Option.bind_eq_bind, Option.bind_eq_some_iff, Option.pure_def,
    Option.some.injEq, Rgba.mk.injEq]
  constructor
  · rintro ⟨_, red, _, green, _, blue, _, alpha, rfl, rfl, rfl, rfl⟩
    exact ⟨red, green, blue, alpha⟩
  · rintro ⟨red, green, blue, alpha⟩
    exact ⟨r, red, g, green, b, blue, a, alpha, rfl, rfl, rfl, rfl⟩

theorem colourAt_congr {bytes' : Bytes} {position' : Nat}
    (same : ∀ channel < 4, bytes'[position' + channel]? = bytes[position + channel]?) :
    colourAt bytes' position' = colourAt bytes position := by
  have first := same 0 (by decide)
  rw [Nat.add_zero, Nat.add_zero] at first
  rw [colourAt, colourAt, first, same 1 (by decide), same 2 (by decide), same 3 (by decide)]

theorem colourAt_isSome (inside : position + 4 ≤ bytes.length) :
    ∃ colour, colourAt bytes position = some colour := by
  refine ⟨⟨bytes[position], bytes[position + 1], bytes[position + 2], bytes[position + 3]⟩, ?_⟩
  rw [colourAt_eq_some]
  refine ⟨?_, ?_, ?_, ?_⟩
  all_goals exact getElem?_eq_getElem _

theorem readPixel_eq {colour : Rgba} (small : position + 4 < 2 ^ 64)
    (present : colourAt bytes position = some colour) : readPixel bytes position = .ok colour := by
  obtain ⟨red, green, blue, alpha⟩ := colourAt_eq_some.mp present
  simp (disch := omega) only [readPixel, addUsize_ok, ok_bind, readAt_of_getElem? red,
    readAt_of_getElem? green, readAt_of_getElem? blue, readAt_of_getElem? alpha]
  rfl

/-! ## What painting a pixel changes -/

/-- The bytes of the pixel at a position were replaced by those of a colour. -/
def Recoloured (p : Nat) (colour : Rgba) (pixels : FixedBuffer UInt8 length)
    (painting : Outcome Empty (FixedBuffer UInt8 length)) : Prop :=
  ∃ painted, painting = .ok painted ∧ painted.items = splice pixels.items p colour.bytes

variable {p : Nat}

theorem set_eq_splice (colour : Rgba) (inside : p + 4 ≤ bytes.length) :
    (((bytes.set p colour.r).set (p + 1) colour.g).set (p + 2) colour.b).set (p + 3) colour.a =
      splice bytes p colour.bytes := by
  have four_bytes : colour.bytes.length = 4 := rfl
  refine ext_getElem? fun index => ?_
  rw [getElem?_splice inside, four_bytes]
  by_cases within : p ≤ index ∧ index < p + 4
  · rw [if_pos within]
    have channel : index = p ∨ index = p + 1 ∨ index = p + 2 ∨ index = p + 3 := by omega
    have listed : index < bytes.length := by omega
    rcases channel with rfl | rfl | rfl | rfl <;> simp [Rgba.bytes, listed]
  · rw [if_neg within, getElem?_set_ne (by omega), getElem?_set_ne (by omega),
      getElem?_set_ne (by omega), getElem?_set_ne (by omega)]

/-- Only the four bytes from a position on may differ. -/
def Local (p : Nat) (before after : Bytes) : Prop :=
  ∀ index, index < p ∨ p + 4 ≤ index → after[index]? = before[index]?

section

variable {pixels : FixedBuffer UInt8 length} (small : length < 2 ^ 64) (inside : p + 4 ≤ length)
include inside

theorem Recoloured.ensures_local {colour : Rgba}
    {painting : Outcome Empty (FixedBuffer UInt8 length)}
    (recoloured : Recoloured p colour pixels painting) :
    painting.Ensures fun painted => Local p pixels.items painted.items := by
  obtain ⟨painted, rfl, items⟩ := recoloured
  intro index away
  have four_bytes : colour.bytes.length = 4 := rfl
  rw [items, getElem?_splice (by rw [pixels.sized]; exact inside), if_neg (by omega)]

include small

theorem setPixel_ok (colour : Rgba) (pixels : FixedBuffer UInt8 length) :
    Recoloured p colour pixels (setPixel p colour pixels) := by
  obtain ⟨first, one, items₁⟩ := pixels.write_ok (ε := Empty) (show p < length by omega) colour.r
  obtain ⟨second, two, items₂⟩ :=
    first.write_ok (ε := Empty) (show p + 1 < length by omega) colour.g
  obtain ⟨third, three, items₃⟩ :=
    second.write_ok (ε := Empty) (show p + 2 < length by omega) colour.b
  obtain ⟨fourth, four, items₄⟩ :=
    third.write_ok (ε := Empty) (show p + 3 < length by omega) colour.a
  refine ⟨fourth, ?_, ?_⟩
  · simp (disch := omega) only [setPixel, addUsize_ok, ok_bind, one, two, three, four]
  · rw [items₄, items₃, items₂, items₁]
    exact set_eq_splice colour (by rw [pixels.sized]; exact inside)

theorem invertPixel_ok {dest : Rgba} (present : colourAt pixels.items p = some dest) :
    Recoloured p dest.inverted pixels (invertPixel p pixels) := by
  obtain ⟨red, green, blue, alpha⟩ := colourAt_eq_some.mp present
  obtain ⟨first, one, items₁⟩ :=
    pixels.write_ok (ε := Empty) (show p < length by omega) (255 - dest.r)
  obtain ⟨second, two, items₂⟩ :=
    first.write_ok (ε := Empty) (show p + 1 < length by omega) (255 - dest.g)
  obtain ⟨third, three, items₃⟩ :=
    second.write_ok (ε := Empty) (show p + 2 < length by omega) (255 - dest.b)
  have green' : first.items[p + 1]? = some dest.g := by
    rw [items₁, getElem?_set_ne (by omega), green]
  have blue' : second.items[p + 2]? = some dest.b := by
    rw [items₂, items₁, getElem?_set_ne (by omega), getElem?_set_ne (by omega), blue]
  have alpha' : third.items[p + 3]? = some dest.inverted.a := by
    rw [items₃, items₂, items₁, getElem?_set_ne (by omega), getElem?_set_ne (by omega),
      getElem?_set_ne (by omega), alpha]
    rfl
  refine ⟨third, ?_, ?_⟩
  · simp (disch := omega) only [invertPixel, addUsize_ok, ok_bind, readAt_of_getElem? red,
      one, readAt_of_getElem? green', two, readAt_of_getElem? blue', three]
  · -- The alpha is kept, so writing it back changes nothing.
    obtain ⟨listed, value⟩ := List.getElem?_eq_some_iff.mp alpha'
    have kept : third.items.set (p + 3) dest.inverted.a = third.items := by
      rw [← value, set_getElem_self]
    rw [← set_eq_splice _ (by rw [pixels.sized]; exact inside), ← kept, items₃, items₂, items₁]
    rfl

theorem invertPixel_local (pixels : FixedBuffer UInt8 length) :
    (invertPixel p pixels).Ensures fun painted => Local p pixels.items painted.items := by
  obtain ⟨dest, present⟩ := colourAt_isSome (by rw [pixels.sized]; exact inside)
  exact (invertPixel_ok small inside present).ensures_local inside

omit small inside in
theorem blendChannel_eq (source dest : UInt8) {effective : Nat} (weight : effective ≤ 255) :
    blendChannel source dest effective (255 - effective) =
      .ok (mixChannel effective source dest) := by
  have source_le : source.toNat ≤ 255 := Nat.le_of_lt_succ source.toNat_lt
  have dest_le : dest.toNat ≤ 255 := Nat.le_of_lt_succ dest.toNat_lt
  have first : source.toNat * effective ≤ 255 * effective := Nat.mul_le_mul_right _ source_le
  have second : dest.toNat * (255 - effective) ≤ 255 * (255 - effective) :=
    Nat.mul_le_mul_right _ dest_le
  simp (disch := omega) only [blendChannel, mulChecked_ok, addChecked_ok, ok_bind]
  rfl

theorem blendPixel_ok (source : Rgba) (alpha : UInt8) {dest : Rgba}
    (present : colourAt pixels.items p = some dest) :
    Recoloured p (blendOver alpha source dest) pixels (blendPixel source alpha p pixels) := by
  have source_le : source.a.toNat ≤ 255 := Nat.le_of_lt_succ source.a.toNat_lt
  have alpha_le : alpha.toNat ≤ 255 := Nat.le_of_lt_succ alpha.toNat_lt
  have product : source.a.toNat * alpha.toNat ≤ 255 * 255 := Nat.mul_le_mul source_le alpha_le
  obtain ⟨red, green, blue, -⟩ := colourAt_eq_some.mp present
  obtain ⟨painted, returned, items⟩ := setPixel_ok small inside (blendOver alpha source dest) pixels
  refine ⟨painted, ?_, items⟩
  simp (disch := omega) only [blendPixel, mulChecked_ok, addChecked_ok, subChecked_ok,
    addUsize_ok, ok_bind, readAt_of_getElem? red, readAt_of_getElem? green,
    readAt_of_getElem? blue, blendChannel_eq]
  exact returned

theorem blendPixel_local (source : Rgba) (alpha : UInt8) (pixels : FixedBuffer UInt8 length) :
    (blendPixel source alpha p pixels).Ensures fun painted =>
      Local p pixels.items painted.items := by
  obtain ⟨dest, present⟩ := colourAt_isSome (by rw [pixels.sized]; exact inside)
  exact (blendPixel_ok small inside source alpha present).ensures_local inside

end

end Ryll
