import Ryll.Display.Composite

/-!
# Bitmaps for an RDP client

The RDP server sends a client the whole surface, the whole surface at half brightness, or the
damaged rectangles of it.  The rectangles are cut out of one copy of their bounding box by the RDP
library, whose part in this is a parameter.
-/

namespace Ryll

open List DamageRect

/-- The size of a client's desktop. -/
structure DesktopSize where
  width : Nat
  height : Nat
  deriving DecidableEq

/-- A rectangle of pixels for the client.  The format is always that of the surface. -/
structure BitmapUpdate where
  x : Nat
  y : Nat
  width : Nat
  height : Nat
  data : Bytes
  stride : Nat

def nonZero (number : Nat) : Option Nat := if number = 0 then none else some number

def tryU16 (number : Nat) : Option Nat := if number < 2 ^ 16 then some number else none

def getRange {α : Type} (items : List α) (start stop : Nat) : Option (List α) :=
  if start ≤ stop ∧ stop ≤ items.length then some ((items.drop start).take (stop - start))
  else none

variable (surface : DisplaySurface)

def surfaceDesktopSize : Option DesktopSize :=
  if surface.width = 0 ∨ surface.height = 0 then
    none
  else
    some ⟨min surface.width (2 ^ 16 - 1), min surface.height (2 ^ 16 - 1)⟩

def rowBytes : Outcome Empty Nat := mulUsize surface.width 4

variable (size : DesktopSize)

def wholeDesktop (data : Bytes) :
    Outcome Empty (Option BitmapUpdate) := do
  let rowBytes ← rowBytes surface
  return do
    let width ← nonZero size.width
    let height ← nonZero size.height
    let stride ← nonZero rowBytes
    return ⟨0, 0, width, height, data, stride⟩

def fullBitmap : Outcome Empty (Option BitmapUpdate) :=
  wholeDesktop surface size surface.pixels.items

def darken : Bytes → Bytes
  | r :: g :: b :: a :: rest => r / 2 :: g / 2 :: b / 2 :: a :: darken rest
  | _ => []

def darkenedBitmap : Outcome Empty (Option BitmapUpdate) :=
  wholeDesktop surface size (darken surface.pixels.items)

def intersect (a b : DamageRect) : DamageRect :=
  ⟨max a.left b.left, max a.top b.top, min a.right b.right, min a.bottom b.bottom⟩

def copyRectRow (pixels : Bytes) (srcStride left right row : Nat) :
    Option Bytes → Outcome Empty (Option Bytes)
  | none => return none
  | some data => do
    let start ← mulUsize row srcStride
    let first ← addUsize start left
    let last ← addUsize start right
    return (getRange pixels first last).map (data ++ ·)

def copyRect (rect : DamageRect) :
    Outcome Empty (Option BitmapUpdate) := do
  let srcStride ← rowBytes surface
  let left ← mulUsize rect.left 4
  let right ← mulUsize rect.right 4
  let rowLength ← subChecked right left
  let _capacity ← mulUsize rowLength (← subChecked rect.bottom rect.top)
  let data ← forIndex (copyRectRow surface.pixels.items srcStride left right) rect.top
    (rect.bottom - rect.top) (some [])
  return do
    let data ← data
    let x ← tryU16 rect.left
    let y ← tryU16 rect.top
    let width ← nonZero (← tryU16 rect.width)
    let height ← nonZero (← tryU16 rect.height)
    let stride ← nonZero rowLength
    return ⟨x, y, width, height, data, stride⟩

/-- What the RDP library cuts out of a bitmap, by the corner and the sides of a rectangle. -/
abbrev SubBitmap := BitmapUpdate → (x y width height : Nat) → Option BitmapUpdate

def damageBitmap (sub : SubBitmap) (bounds : DamageRect) (copy : BitmapUpdate)
    (rect : DamageRect) : Outcome Empty (Option BitmapUpdate) := do
  let right ← subChecked rect.left bounds.left
  let down ← subChecked rect.top bounds.top
  return do
    let x ← tryU16 right
    let y ← tryU16 down
    let width ← nonZero (← tryU16 rect.width)
    let height ← nonZero (← tryU16 rect.height)
    sub copy x y width height

def clippedRects (rects : List DamageRect) : List DamageRect :=
  (rects.map fun rect => intersect rect ⟨0, 0, size.width, size.height⟩).filter fun rect =>
    !rect.isEmpty

def damageBitmaps (sub : SubBitmap) (surface : DisplaySurface) (size : DesktopSize)
    (rects : List DamageRect) : Outcome Empty (List BitmapUpdate) := do
  match DamageRegion.boundingBox (clippedRects size rects) with
  | none => return []
  | some bounds =>
    match ← copyRect surface bounds with
    | none => return []
    | some copy => do
      let bitmaps ← (clippedRects size rects).mapM (damageBitmap sub bounds copy)
      return bitmaps.reduceOption

/-! ## What bitmaps show -/

namespace BitmapUpdate

variable (bitmap : BitmapUpdate)

def rect : DamageRect :=
  ⟨bitmap.x, bitmap.y, bitmap.x + bitmap.width, bitmap.y + bitmap.height⟩

def colour (point : Point) : Option Rgba :=
  colourAt bitmap.data
    (cellOffset bitmap.stride (point.y - bitmap.y) ((point.x - bitmap.x) * 4))

/-- The bitmap agrees with a picture. -/
def Shows (field : Point → Option Rgba) : Prop :=
  ∀ point, bitmap.rect.covers point → bitmap.colour point = field point

/-- There are no gaps between the rows. -/
structure Packed (bitmap : BitmapUpdate) : Prop where
  stride : bitmap.stride = bitmap.width * 4
  length : bitmap.data.length = bitmap.height * bitmap.stride

end BitmapUpdate

/-- The RDP library cuts out a rectangle inside a bitmap. -/
def CutsOut (sub : SubBitmap) : Prop :=
  ∀ (bitmap : BitmapUpdate) (x y width height : Nat), bitmap.Packed → 0 < width → 0 < height →
    x + width ≤ bitmap.width → y + height ≤ bitmap.height →
    ∃ piece, sub bitmap x y width height = some piece ∧
      piece.rect = ⟨bitmap.x + x, bitmap.y + y, bitmap.x + x + width, bitmap.y + y + height⟩ ∧
      ∀ point, piece.rect.covers point → piece.colour point = bitmap.colour point

def Rgba.darkened (colour : Rgba) : Rgba :=
  ⟨colour.r / 2, colour.g / 2, colour.b / 2, colour.a⟩

variable {surface : DisplaySurface} {top : Nat} {rects : List DamageRect}
  {size : DesktopSize} {left : Nat} {rect : DamageRect}

theorem surfaceDesktopSize_eq (sized : surfaceDesktopSize surface = some size) :
    size = ⟨surface.width, surface.height⟩ ∧ 0 < surface.width ∧ 0 < surface.height := by
  obtain ⟨width_le, height_le⟩ := surface.bounded
  rw [surfaceDesktopSize] at sized
  split at sized
  · cases sized
  · cases sized
    refine ⟨?_, by omega, by omega⟩
    rw [Nat.min_eq_left (by omega), Nat.min_eq_left (by omega)]

theorem nonZero_ok {number : Nat} (positive : 0 < number) : nonZero number = some number :=
  if_neg (Nat.ne_of_gt positive)

theorem tryU16_ok {number : Nat} (small : number < 2 ^ 16) : tryU16 number = some number :=
  if_pos small

theorem rowBytes_ok (surface : DisplaySurface) : rowBytes surface = .ok (surface.width * 4) := by
  have width_le : surface.width ≤ 16384 := surface.width_le
  exact mulUsize_ok (by omega)

theorem wholeDesktop_ok (sized : surfaceDesktopSize surface = some size) (data : Bytes) :
    wholeDesktop surface size data =
      .ok (some ⟨0, 0, surface.width, surface.height, data, surface.width * 4⟩) := by
  obtain ⟨rfl, wide, tall⟩ := surfaceDesktopSize_eq sized
  rw [wholeDesktop, rowBytes_ok, ok_bind]
  simp (disch := omega) only [nonZero_ok, Option.bind_eq_bind, Option.bind_some]
  rfl

open DamageRect

theorem fullBitmap_shows (sized : surfaceDesktopSize surface = some size) :
    ∃ bitmap, fullBitmap surface size = .ok (some bitmap) ∧
      bitmap.rect = ⟨0, 0, size.width, size.height⟩ ∧ bitmap.Shows surface.colour := by
  refine ⟨_, wholeDesktop_ok sized _, ?_, fun point inside => ?_⟩
  · obtain ⟨rfl, -, -⟩ := surfaceDesktopSize_eq sized
    simp [BitmapUpdate.rect]
  · rw [covers_iff] at inside
    simp only [BitmapUpdate.rect, Nat.zero_add] at inside
    rw [DisplaySurface.colour, if_pos (DisplaySurface.holds_iff.mpr ⟨by omega, by omega⟩)]
    rfl

theorem colourAt_darken (bytes : Bytes) (index : Nat) :
    colourAt (darken bytes) (index * 4) = (colourAt bytes (index * 4)).map Rgba.darkened := by
  induction bytes using darken.induct generalizing index with
  | case1 r g b a rest ih =>
    rw [darken]
    cases index with
    | zero => rfl
    | succ index =>
      have shift (first second third fourth : UInt8) (bytes : Bytes) :
          colourAt (first :: second :: third :: fourth :: bytes) ((index + 1) * 4) =
            colourAt bytes (index * 4) := by
        apply colourAt_congr
        intro channel _
        rw [show (index + 1) * 4 + channel = index * 4 + channel + 1 + 1 + 1 + 1 by omega]
        simp only [getElem?_cons_succ]
      rw [shift, shift, ih]
  | case2 bytes short =>
    have length : bytes.length < 4 := by
      rcases bytes with _ | ⟨r, _ | ⟨g, _ | ⟨b, _ | ⟨a, rest⟩⟩⟩⟩
      · decide
      · exact (by decide : 1 < 4)
      · exact (by decide : 2 < 4)
      · exact (by decide : 3 < 4)
      · exact absurd rfl (short r g b a rest)
    have missing : colourAt bytes (index * 4) = none := by
      rw [Option.eq_none_iff_forall_ne_some]
      intro colour found
      obtain ⟨-, -, -, alpha⟩ := colourAt_eq_some.mp found
      have := (List.getElem?_eq_some_iff.mp alpha).1
      omega
    rw [missing, darken]
    · rfl
    · exact short

theorem darkenedBitmap_shows (sized : surfaceDesktopSize surface = some size) :
    ∃ bitmap, darkenedBitmap surface size = .ok (some bitmap) ∧
      bitmap.rect = ⟨0, 0, size.width, size.height⟩ ∧
      bitmap.Shows fun point => (surface.colour point).map Rgba.darkened := by
  refine ⟨_, wholeDesktop_ok sized _, ?_, fun point inside => ?_⟩
  · obtain ⟨rfl, -, -⟩ := surfaceDesktopSize_eq sized
    simp [BitmapUpdate.rect]
  · rw [covers_iff] at inside
    simp only [BitmapUpdate.rect, Nat.zero_add] at inside
    have position : cellOffset (surface.width * 4) point.y (point.x * 4) =
        (point.y * surface.width + point.x) * 4 := by
      rw [cellOffset]
      ring
    have known : surface.colour point =
        colourAt surface.pixels.items (cellOffset (surface.width * 4) point.y (point.x * 4)) :=
      if_pos (DisplaySurface.holds_iff.mpr ⟨by omega, by omega⟩)
    dsimp only
    rw [known, position, ← colourAt_darken, ← position]
    rfl

/-! ## Rectangles of the surface -/

theorem copyRectRows_ensures {right count : Nat} (ordered : left ≤ right)
    (on_x : right ≤ surface.width) (on_y : top + count ≤ surface.height) :
    (forIndex (copyRectRow surface.pixels.items (surface.width * 4) (left * 4) (right * 4)) top
      count (some [])).Ensures fun result => ∃ data, result = some data ∧
        RowsGathered surface.pixels.items (surface.width * 4) (left * 4) ((right - left) * 4) top
          count data := by
  refine (forIndex_ensures (fun row result => ∃ data, result = some data ∧
    RowsGathered surface.pixels.items (surface.width * 4) (left * 4) ((right - left) * 4) top
      (row - top) data) ?_ ?_).mono fun result copied => ?_
  · rintro row result begun inside ⟨data, rfl, gathered⟩
    obtain ⟨rows, rfl⟩ := Nat.exists_eq_add_of_le begun
    rw [Nat.add_sub_cancel_left] at gathered
    rw [Nat.add_assoc, Nat.add_sub_cancel_left]
    obtain ⟨width_le, height_le⟩ := surface.bounded
    have start_le : (top + rows) * (surface.width * 4) ≤ 16384 * 65536 :=
      Nat.mul_le_mul (by omega) (by omega)
    have inside := cellOffset_add_le (show top + rows < surface.height by omega)
      (show right * 4 + 0 ≤ surface.width * 4 by omega)
    rw [← surface.pixels_length, cellOffset] at inside
    simp (disch := omega) only [copyRectRow, mulUsize_ok, addUsize_ok, ok_bind]
    rw [getRange, if_pos (by omega)]
    rw [show (top + rows) * (surface.width * 4) + right * 4 -
      ((top + rows) * (surface.width * 4) + left * 4) = (right - left) * 4 by omega]
    exact ⟨_, rfl, gathered.succ (by rw [cellOffset]; omega)⟩
  · exact ⟨[], rfl, by simp, by simp⟩
  · rwa [Nat.add_sub_cancel_left] at copied

theorem copyRect_shows (proper : rect.isEmpty = false) (on : surface.bounds.contains rect) :
    ∃ bitmap, copyRect surface rect = .ok (some bitmap) ∧ bitmap.Packed ∧ bitmap.rect = rect ∧
      bitmap.Shows surface.colour := by
  obtain ⟨width_le, height_le⟩ := surface.bounded
  have ordered : rect.left < rect.right ∧ rect.top < rect.bottom := by
    simpa [DamageRect.isEmpty] using proper
  have ends : rect.right ≤ surface.width ∧ rect.bottom ≤ surface.height := by
    rw [DamageRect.contains_iff] at on
    exact on.2.2
  have area : (rect.right - rect.left) * 4 * (rect.bottom - rect.top) ≤ 65536 * 16384 :=
    Nat.mul_le_mul (by omega) (by omega)
  obtain ⟨result, copied, data, rfl, gathered⟩ := (copyRectRows_ensures
    (Nat.le_of_lt ordered.1) ends.1
    (show rect.top + (rect.bottom - rect.top) ≤ surface.height by omega)).returns
  have row : rect.right * 4 - rect.left * 4 = (rect.right - rect.left) * 4 := by omega
  have corner : (⟨rect.left, rect.top, rect.left + (rect.right - rect.left),
      rect.top + (rect.bottom - rect.top)⟩ : DamageRect) = rect := by
    rw [Nat.add_sub_cancel' (Nat.le_of_lt ordered.1), Nat.add_sub_cancel' (Nat.le_of_lt ordered.2)]
  refine ⟨⟨rect.left, rect.top, rect.right - rect.left, rect.bottom - rect.top, data,
    (rect.right - rect.left) * 4⟩, ?_, ⟨rfl, gathered.length⟩, corner, fun point inside => ?_⟩
  · rw [copyRect, rowBytes_ok, ok_bind]
    simp (disch := omega) only [mulUsize_ok, subChecked_ok, ok_bind, row, copied, tryU16_ok,
      nonZero_ok, width, height, Option.bind_eq_bind, Option.bind_some]
    rfl
  · change (⟨rect.left, rect.top, rect.left + (rect.right - rect.left),
      rect.top + (rect.bottom - rect.top)⟩ : DamageRect).covers point = true at inside
    rw [corner, covers_iff] at inside
    rw [DisplaySurface.colour, if_pos (DisplaySurface.holds_iff.mpr ⟨by omega, by omega⟩)]
    apply colourAt_congr
    intro channel listed
    have byte := gathered.bytes (point.y - rect.top) (by omega)
      ((point.x - rect.left) * 4 + channel) (by omega)
    rw [cellOffset, cellOffset, ← Nat.add_assoc] at byte
    rw [cellOffset, cellOffset, byte]
    congr 1
    rw [show rect.top + (point.y - rect.top) = point.y by omega]
    omega

/-! ## The damaged rectangles -/

theorem mem_clippedRects : rect ∈ clippedRects size rects ↔ rect.isEmpty = false ∧
      ∃ damaged ∈ rects, intersect damaged ⟨0, 0, size.width, size.height⟩ = rect := by
  simp only [clippedRects, mem_filter, mem_map, Bool.not_eq_true']
  exact and_comm

theorem bounds_contains_clipped (sized : surfaceDesktopSize surface = some size)
    (listed : rect ∈ clippedRects size rects) : surface.bounds.contains rect := by
  obtain ⟨rfl, -, -⟩ := surfaceDesktopSize_eq sized
  obtain ⟨-, damaged, -, rfl⟩ := mem_clippedRects.mp listed
  rw [contains_iff]
  simp only [DisplaySurface.bounds, intersect]
  omega

theorem damageBitmap_shows {sub : SubBitmap} (cuts : CutsOut sub) {bounds : DamageRect}
    {copy : BitmapUpdate} (packed : copy.Packed) (place : copy.rect = bounds)
    (copied : copy.Shows surface.colour) (on : surface.bounds.contains bounds)
    (within : bounds.contains rect) (proper : rect.isEmpty = false) :
    ∃ bitmap, damageBitmap sub bounds copy rect = .ok (some bitmap) ∧ bitmap.rect = rect ∧
      bitmap.Shows surface.colour := by
  obtain ⟨width_le, height_le⟩ := surface.bounded
  have ordered : rect.left < rect.right ∧ rect.top < rect.bottom := by
    simpa [DamageRect.isEmpty] using proper
  have nested := DamageRect.contains_iff.mp within
  have ends := (contains_iff.mp on).2.2
  subst place
  simp only [BitmapUpdate.rect, DisplaySurface.bounds] at nested ends
  obtain ⟨piece, cut, corner, colours⟩ := cuts copy (rect.left - copy.x) (rect.top - copy.y)
    (rect.right - rect.left) (rect.bottom - rect.top) packed (by omega) (by omega) (by omega)
    (by omega)
  have piece_rect : piece.rect = rect := by
    rw [corner, mk.injEq]
    omega
  refine ⟨piece, ?_, piece_rect, fun point inside => ?_⟩
  · rw [damageBitmap]
    simp (disch := omega) only [BitmapUpdate.rect, subChecked_ok, ok_bind, tryU16_ok,
      nonZero_ok, width, height, Option.bind_eq_bind, Option.bind_some, cut]
    rfl
  · rw [colours point inside]
    rw [piece_rect] at inside
    exact copied point (covers_of_contains within inside)

theorem boundingBox_eq_none (unbounded : DamageRegion.boundingBox rects = none) : rects = [] := by
  cases rects with
  | nil => rfl
  | cons => cases unbounded

theorem damageBitmaps_show {sub : SubBitmap} (cuts : CutsOut sub)
    (sized : surfaceDesktopSize surface = some size) (rects : List DamageRect) :
    (damageBitmaps sub surface size rects).Ensures fun bitmaps =>
      (∀ bitmap ∈ bitmaps, surface.bounds.contains bitmap.rect ∧ bitmap.Shows surface.colour) ∧
      ∀ point, surface.holds point → (rects.any fun rect => rect.covers point) →
        ∃ bitmap ∈ bitmaps, bitmap.rect.covers point := by
  have clipped (point : Point) (on : surface.holds point)
      (damaged : rects.any fun rect => rect.covers point) :
      ∃ rect ∈ clippedRects size rects, rect.covers point := by
    obtain ⟨rect, listed, covered⟩ := any_eq_true.mp damaged
    have inside : (intersect rect ⟨0, 0, size.width, size.height⟩).covers point := by
      obtain ⟨rfl, -, -⟩ := surfaceDesktopSize_eq sized
      have on' := DisplaySurface.holds_iff.mp on
      simp only [intersect, covers_iff] at covered ⊢
      omega
    refine ⟨_, mem_clippedRects.mpr ⟨?_, rect, listed, rfl⟩, inside⟩
    rw [DamageRect.covers_iff] at inside
    rw [← Bool.not_eq_true, DamageRect.isEmpty_iff]
    omega
  rw [damageBitmaps]
  cases bounded : DamageRegion.boundingBox (clippedRects size rects) with
  | none =>
    refine ⟨nofun, fun point on damaged => ?_⟩
    obtain ⟨rect, listed, -⟩ := clipped point on damaged
    rw [boundingBox_eq_none bounded] at listed
    cases listed
  | some bounds =>
    have grown := DamageRegion.boundingBox_grown bounded
    have within (rect : DamageRect) (listed : rect ∈ clippedRects size rects) :
        bounds.contains rect := by
      obtain ⟨larger, single, holds⟩ := grown.held rect listed
      rwa [mem_singleton.mp single] at holds
    have on : surface.bounds.contains bounds :=
      grown.framed surface.bounds (fun rect listed => bounds_contains_clipped sized listed) bounds
        mem_cons_self
    obtain ⟨first, listed⟩ : ∃ first, first ∈ clippedRects size rects := by
      refine exists_mem_of_ne_nil _ fun empty => ?_
      rw [empty] at bounded
      cases bounded
    have proper : bounds.isEmpty = false := by
      have inner := (mem_clippedRects.mp listed).1
      have outer := DamageRect.contains_iff.mp (within first listed)
      rw [← Bool.not_eq_true, DamageRect.isEmpty_iff] at inner ⊢
      omega
    obtain ⟨copy, copies, packed, place, copied⟩ := copyRect_shows proper on
    dsimp only
    rw [copies, ok_bind]
    have each : ∀ rect ∈ clippedRects size rects,
        (damageBitmap sub bounds copy rect).Ensures fun result =>
          ∃ bitmap, result = some bitmap ∧ bitmap.rect = rect ∧ bitmap.Shows surface.colour := by
      intro rect listed
      obtain ⟨bitmap, cut, facts⟩ := damageBitmap_shows cuts packed place copied on
        (within rect listed) (mem_clippedRects.mp listed).1
      rw [cut]
      exact ⟨bitmap, rfl, facts⟩
    refine (mapM_relates each).bind fun results ⟨made, mapped⟩ => ⟨fun bitmap listed => ?_,
      fun point held damaged => ?_⟩
    · obtain ⟨rect, listed', bitmap', same, place', shown⟩ :=
        made (some bitmap) (reduceOption_mem_iff.mp listed)
      cases same
      rw [place']
      exact ⟨bounds_contains_clipped sized listed', shown⟩
    · obtain ⟨rect, listed, covered⟩ := clipped point held damaged
      obtain ⟨result, listed', bitmap, rfl, place', -⟩ := mapped rect listed
      exact ⟨bitmap, reduceOption_mem_iff.mpr listed', place' ▸ covered⟩

def viewBitmap : SubBitmap := fun bitmap x y width height =>
  if x + width > bitmap.width ∨ y + height > bitmap.height then
    none
  else
    let start := y * bitmap.stride + x * 4
    let length := (height - 1) * bitmap.stride + width * 4
    some ⟨bitmap.x + x, bitmap.y + y, width, height, (bitmap.data.drop start).take length,
      bitmap.stride⟩

theorem viewBitmap_cutsOut : CutsOut viewBitmap := by
  intro bitmap x y width height packed wide tall right bottom
  refine ⟨_, if_neg (by omega), rfl, fun point inside => ?_⟩
  rw [covers_iff] at inside
  simp only [BitmapUpdate.rect] at inside
  obtain ⟨row, below, above⟩ : ∃ row, point.y - (bitmap.y + y) = row ∧
      point.y - bitmap.y = y + row := ⟨_, rfl, by omega⟩
  have rows : row * bitmap.stride ≤ (height - 1) * bitmap.stride :=
    Nat.mul_le_mul_right _ (by omega)
  apply colourAt_congr
  intro channel listed
  simp only [below, above, cellOffset]
  rw [getElem?_take_of_lt (by omega), getElem?_drop, Nat.add_mul y row]
  congr 1
  omega

end Ryll
