import Ryll.Foundation.Bytes

/-!
# Decoded images and their size limits

Every decoder sizes its output with `rgbaLen`, and an image value carries the proof that its
buffer has that size.
-/

namespace Ryll

def maxImageDimension : Nat := 16384

def maxImagePixels : Nat := 64 * 1024 * 1024

/-- Byte length of a `width` by `height` RGBA buffer, or `none` if the image is refused. -/
def rgbaLen (width height : Nat) : Option Nat :=
  if width = 0 ∨ height = 0 ∨ width > maxImageDimension ∨ height > maxImageDimension then
    none
  else
    let pixels := width * height
    if pixels > maxImagePixels then none else some (pixels * 4)

theorem rgbaLen_eq_some {width height length : Nat} : rgbaLen width height = some length ↔
      0 < width ∧ 0 < height ∧ width ≤ maxImageDimension ∧ height ≤ maxImageDimension ∧
        width * height ≤ maxImagePixels ∧ length = width * height * 4 := by
  unfold rgbaLen
  constructor
  · intro accepted
    obtain ⟨sides, accepted⟩ := Option.ite_none_left_eq_some.mp accepted
    dsimp only at accepted
    obtain ⟨pixels, accepted⟩ := Option.ite_none_left_eq_some.mp accepted
    simp only [Option.some.injEq] at accepted
    omega
  · rintro ⟨width_pos, height_pos, width_le, height_le, pixels_le, rfl⟩
    rw [if_neg (by omega)]
    simp [Nat.not_lt.mpr pixels_le]

/-- A decoded image. -/
structure DecompressedImage where
  width : Nat
  height : Nat
  /-- RGBA bytes, row by row from the top. -/
  pixels : Bytes
  imageId : Nat
  /-- Distance to the head of the GLZ sliding window, zero for other formats. -/
  winHeadDist : Nat
  /-- The buffer has exactly the length the dimensions ask for. -/
  sized : rgbaLen width height = some pixels.length
  deriving DecidableEq

namespace DecompressedImage

def newGlz (width height : Nat) (pixels : Bytes) (imageId winHeadDist : Nat) :
    Option DecompressedImage :=
  if sized : rgbaLen width height = some pixels.length then
    some { width, height, pixels, imageId, winHeadDist, sized }
  else
    none

def new (width height : Nat) (pixels : Bytes) (imageId : Nat) : Option DecompressedImage :=
  newGlz width height pixels imageId 0

theorem newGlz_of_sized {width height : Nat} {pixels : Bytes}
    (sized : rgbaLen width height = some pixels.length) (imageId winHeadDist : Nat) :
    newGlz width height pixels imageId winHeadDist =
      some { width, height, pixels, imageId, winHeadDist, sized } :=
  dif_pos sized

theorem length_pixels (image : DecompressedImage) :
    image.pixels.length = image.width * image.height * 4 :=
  (rgbaLen_eq_some.mp image.sized).2.2.2.2.2

def vec (image : DecompressedImage) : Slice where
  bytes := image.pixels
  bounded := by
    have pixels_le : image.width * image.height ≤ 67108864 :=
      (rgbaLen_eq_some.mp image.sized).2.2.2.2.1
    rw [image.length_pixels]
    omega

end DecompressedImage

/-! ## Pixels as groups of four bytes -/

/-- A pixel. -/
structure Rgba where
  r : UInt8
  g : UInt8
  b : UInt8
  a : UInt8
  deriving DecidableEq

namespace Rgba

def bytes (pixel : Rgba) : Bytes := [pixel.r, pixel.g, pixel.b, pixel.a]

def zero : Rgba := ⟨0, 0, 0, 0⟩

end Rgba

variable (pixels : List Rgba)

def flat : Bytes := pixels.flatMap Rgba.bytes

def pixelsOf : Bytes → List Rgba
  | r :: g :: b :: a :: rest => ⟨r, g, b, a⟩ :: pixelsOf rest
  | _ => []

@[simp]
theorem flat_nil : flat [] = [] := rfl

@[simp]
theorem flat_cons (pixel : Rgba) (pixels : List Rgba) :
    flat (pixel :: pixels) = pixel.r :: pixel.g :: pixel.b :: pixel.a :: flat pixels := rfl

@[simp]
theorem flat_append (left right : List Rgba) : flat (left ++ right) = flat left ++ flat right := by
  simp [flat]

@[simp]
theorem length_flat : (flat pixels).length = 4 * pixels.length := by
  induction pixels with
  | nil => rfl
  | cons pixel pixels ih =>
    simp only [flat_cons, List.length_cons, ih]
    omega

@[simp]
theorem pixelsOf_flat : pixelsOf (flat pixels) = pixels := by
  induction pixels with
  | nil => rfl
  | cons pixel pixels ih => simp [pixelsOf, ih]

theorem flat_injective : Function.Injective flat :=
  Function.LeftInverse.injective pixelsOf_flat

theorem length_pixelsOf (bytes : Bytes) : (pixelsOf bytes).length = bytes.length / 4 := by
  fun_induction pixelsOf bytes with
  | case1 r g b a rest ih =>
    simp only [List.length_cons, ih]
    omega
  | case2 bytes short =>
    rcases bytes with _ | ⟨r, _ | ⟨g, _ | ⟨b, _ | ⟨a, rest⟩⟩⟩⟩
    · rfl
    · simp
    · simp
    · simp
    · exact (short r g b a rest rfl).elim

theorem getElem?_of_pixelsOf {bytes : Bytes} {index : Nat} {pixel : Rgba}
    (present : (pixelsOf bytes)[index]? = some pixel) :
    bytes[4 * index]? = some pixel.r ∧ bytes[4 * index + 1]? = some pixel.g ∧
      bytes[4 * index + 2]? = some pixel.b ∧ bytes[4 * index + 3]? = some pixel.a := by
  fun_induction pixelsOf bytes generalizing index with
  | case1 r g b a rest ih =>
    cases index with
    | zero =>
      simp only [List.getElem?_cons_zero, Option.some.injEq] at present
      subst present
      simp
    | succ index =>
      have later := ih present
      simpa [Nat.mul_add, show 4 * index + 4 + 1 = 4 * index + 1 + 4 by omega,
        show 4 * index + 4 + 3 = 4 * index + 3 + 4 by omega] using later
  | case2 => simp at present

theorem getElem?_flat_append {pixels : List Rgba} {index : Nat} {pixel : Rgba}
    (present : pixels[index]? = some pixel) (rest : Bytes) :
    (flat pixels ++ rest)[4 * index]? = some pixel.r ∧
      (flat pixels ++ rest)[4 * index + 1]? = some pixel.g ∧
      (flat pixels ++ rest)[4 * index + 2]? = some pixel.b ∧
      (flat pixels ++ rest)[4 * index + 3]? = some pixel.a := by
  have inside : index < pixels.length := (List.getElem?_eq_some_iff.mp present).1
  have unflattened : (pixelsOf (flat pixels))[index]? = some pixel := by simpa using present
  have bytes := getElem?_of_pixelsOf unflattened
  refine ⟨?_, ?_, ?_, ?_⟩
  all_goals rw [List.getElem?_append_left (by simp; omega)]
  · exact bytes.1
  · exact bytes.2.1
  · exact bytes.2.2.1
  · exact bytes.2.2.2

/-- An image of four-byte pixels in rows that start `stride` bytes apart. -/
structure Bgrx where
  data : Bytes
  width : Nat
  height : Nat
  stride : Nat

/-- An image of which all pixels are there. -/
def Bgrx.new (data : Bytes) (width height stride : Nat) : Option Bgrx := do
  let _ ← rgbaLen width height
  let rowBytes := width * 4
  if stride < rowBytes then
    none
  else
    let needed := stride * (height - 1) + rowBytes
    if 2 ^ 64 ≤ needed ∨ data.length < needed then
      none
    else
      some ⟨data, width, height, stride⟩

end Ryll
