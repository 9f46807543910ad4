import Ryll.Display.Damage
import Ryll.Foundation.Spans
import Ryll.Protocol.Display

/-!
# The part of a destination that a clip leaves

A clip is a list of rectangles, which may overlap, repeat or reach outside the destination of a
draw.  They are cut to the destination and their union is given as disjoint rectangles, band by
band, so that a draw touches each pixel at most once.
-/

namespace Ryll

open List DamageRect

/-- The most distinct rectangles a clip may keep, and the most its union may take. -/
def maxClipRects : Nat := 1024

/-- A rectangle by its left, top, right and bottom edges, the last two excluded. -/
abbrev Ltrb := DamageRect

/-- What is left of a destination. -/
inductive ClipArea
  | whole
  | rects (boxes : List Ltrb)
  /-- The clip and the destination do not meet. -/
  | nothing
  /-- The clip needs too many rectangles; `sent` is how many were listed. -/
  | tooComplex (sent : Nat)

def ClipArea.shape : ClipArea → ClipArea
  | .tooComplex _ => .tooComplex 0
  | area => area

def Ltrb.le (first second : Ltrb) : Bool :=
  first.left < second.left || first.left = second.left &&
    (first.top < second.top || first.top = second.top &&
      (first.right < second.right || first.right = second.right && first.bottom ≤ second.bottom))

open Ltrb

theorem Ltrb.le_iff {first second : Ltrb} : le first second = true ↔
    first.left < second.left ∨ first.left = second.left ∧
      (first.top < second.top ∨ first.top = second.top ∧
        (first.right < second.right ∨ first.right = second.right ∧
          first.bottom ≤ second.bottom)) := by
  simp [le]

namespace Clip

def clamp (rect : Rect) (dest : Ltrb) : Option Ltrb :=
  let left := max rect.left.toInt dest.left
  let top := max rect.top.toInt dest.top
  let right := min rect.right.toInt dest.right
  let bottom := min rect.bottom.toInt dest.bottom
  if left ≥ right ∨ top ≥ bottom then none
  else some ⟨left.toNat, top.toNat, right.toNat, bottom.toNat⟩

/-- The state of the walk over the bands. -/
structure Banding where
  /-- The rectangles so far. -/
  out : List Ltrb
  /-- The merged spans of the last band. -/
  prevSpans : List (Span Nat)
  /-- The indices in `out` of the rectangles they became. -/
  prevBoxes : List Nat
  /-- The bottom edge of the last band. -/
  prevBottom : Option Nat

def bandSpans (rects : List Ltrb) (top bottom : Nat) : List (Span Nat) :=
  Span.merge (Span.sort ((rects.filter fun rect => rect.top ≤ top && rect.bottom ≥ bottom).map
    fun rect => ⟨rect.left, rect.right⟩))

def row (spans : List (Span Nat)) (top bottom : Nat) : List Ltrb :=
  spans.map fun span => ⟨span.left, top, span.right, bottom⟩

def addBand (rects : List Ltrb) (top bottom : Nat) (state : Banding) : Option Banding :=
  let merged := bandSpans rects top bottom
  if state.prevBottom = some top ∧ merged = state.prevSpans then
    some { state with
      out := state.prevBoxes.foldl (fun out index => out.modify index ({ · with bottom })) state.out
      prevBottom := some bottom }
  else
    let prevBoxes := List.range' state.out.length merged.length
    let out := state.out ++ row merged top bottom
    if out.length > maxClipRects then none
    else some ⟨out, merged, prevBoxes, some bottom⟩

def addBands (rects : List Ltrb) : List Nat → Banding → Option Banding
  | top :: bottom :: edges, state => do
    let state ← addBand rects top bottom state
    addBands rects (bottom :: edges) state
  | _, state => some state

/-- The union of rectangles as disjoint ones, unless that takes too many. -/
def union (rects : List Ltrb) : Option (List Ltrb) := do
  let edges := cuts (rects.flatMap fun rect => [rect.top, rect.bottom])
  let state ← addBands rects edges ⟨[], [], [], none⟩
  return state.out

def distinctRects (dest : Ltrb) : List Rect → List Ltrb → Option (List Ltrb)
  | [], distinct => some distinct
  | rect :: rects, distinct =>
    match clamp rect dest with
    | none => distinctRects dest rects distinct
    | some clamped =>
      let distinct := distinct.insert clamped
      if distinct.length > maxClipRects then none else distinctRects dest rects distinct

/-- Reduce a clip to the part of a destination that it leaves. -/
def clipArea (clip : Clip) (dest : Ltrb) : ClipArea :=
  if clip.clipType ≠ clipTypeRects then
    .whole
  else
    match distinctRects dest clip.rects [] with
    | none => .tooComplex clip.rects.length
    | some distinct =>
      if distinct.isEmpty then
        .nothing
      else
        match union (distinct.mergeSort Ltrb.le) with
        | some boxes => .rects boxes
        | none => .tooComplex clip.rects.length

/-! ## Bands -/

/-- Two rectangles share no pixel. -/
def Apart (first second : Ltrb) : Prop :=
  ∀ point, ¬(first.covers point ∧ second.covers point)

/-- A rectangle of the list has the pixel. -/
def Covered (rects : List Ltrb) (point : Point) : Prop := ∃ rect ∈ rects, rect.covers point

/-- The boxes cover the rectangles above an edge. -/
structure Banded (rects : List Ltrb) (edge : Nat) (boxes : List Ltrb) : Prop where
  apart : boxes.Pairwise Apart
  above : ∀ box ∈ boxes, box.bottom ≤ edge
  covers : ∀ point, Covered boxes point ↔ point.y < edge ∧ Covered rects point

variable {point : Point} {spans : List (Span Nat)} {top bottom : Nat}
  {rects boxes distinct : List Ltrb} {edges : List Nat} {dest : Ltrb}

theorem covered_append {first second : List Ltrb} :
    Covered (first ++ second) point ↔ Covered first point ∨ Covered second point := by
  simp [Covered, or_and_right, exists_or]

theorem covered_row : Covered (row spans top bottom) point ↔
      (∃ span ∈ spans, span.Holds point.x) ∧ top ≤ point.y ∧ point.y < bottom := by
  simp only [Covered, row, mem_map]
  constructor
  · rintro ⟨_, ⟨span, listed, rfl⟩, covered⟩
    rw [covers_iff] at covered
    exact ⟨⟨span, listed, covered.1, covered.2.1⟩, covered.2.2⟩
  · rintro ⟨⟨span, listed, within⟩, rows⟩
    refine ⟨_, ⟨span, listed, rfl⟩, covers_iff.mpr ⟨within.1, within.2, rows⟩⟩

theorem pairwise_apart_row (separate : Span.Separate spans) (top bottom : Nat) :
    (row spans top bottom).Pairwise Apart := by
  rw [row, pairwise_map]
  refine separate.apart.imp fun {first second} gap point => ?_
  simp only [covers_iff]
  omega

theorem Banded.descend {above : List Ltrb} {base : Nat}
    (banded : Banded rects top (above ++ row spans base top)) (started : base ≤ top)
    (down : top ≤ bottom) (separate : Span.Separate spans)
    (band : ∀ point : Point, top ≤ point.y → point.y < bottom →
      ((∃ span ∈ spans, span.Holds point.x) ↔ Covered rects point)) :
    Banded rects bottom (above ++ row spans base bottom) where
  apart := by
    obtain ⟨old, -, between⟩ := pairwise_append.mp banded.apart
    refine pairwise_append.mpr ⟨old, pairwise_apart_row separate base bottom, ?_⟩
    intro box listed other among point both
    obtain ⟨span, spanned, rfl⟩ := mem_map.mp among
    -- A rectangle above ends at the old edge, so a common point lies in the old row as well.
    have ended := banded.above box (mem_append_left _ listed)
    refine between box listed ⟨span.left, base, span.right, top⟩ (mem_map.mpr ⟨span, spanned, rfl⟩)
      point ⟨both.1, ?_⟩
    simp only [covers_iff] at both ⊢
    omega
  above := by
    intro box listed
    rcases mem_append.mp listed with older | among
    · exact Nat.le_trans (banded.above box (mem_append_left _ older)) down
    · obtain ⟨span, -, rfl⟩ := mem_map.mp among
      exact Nat.le_refl bottom
  covers := by
    intro point
    have earlier := banded.covers point
    rw [covered_append, covered_row] at earlier ⊢
    by_cases high : point.y < top
    · have : point.y < bottom := by omega
      simp only [high, this, and_true, true_and] at earlier ⊢
      exact earlier
    have outside : ¬Covered above point := fun covered =>
      high (earlier.mp (.inl covered)).1
    have low : top ≤ point.y := Nat.le_of_not_lt high
    simp only [outside, false_or]
    constructor
    · rintro ⟨spanned, -, rows⟩
      exact ⟨rows, (band point low rows).mp spanned⟩
    · rintro ⟨rows, covered⟩
      exact ⟨(band point low rows).mpr covered, by omega, rows⟩

theorem modify_append_length {α : Type} (before rest : List α) (item : α) (change : α → α) :
    (before ++ item :: rest).modify before.length change = before ++ change item :: rest := by
  induction before with
  | nil => rfl
  | cons first before ih => simp [ih]

theorem extend_row (above : List Ltrb) (spans : List (Span Nat)) (base top bottom : Nat) :
    (List.range' above.length spans.length).foldl
        (fun out index => out.modify index ({ · with bottom })) (above ++ row spans base top) =
      above ++ row spans base bottom := by
  induction spans generalizing above with
  | nil => rfl
  | cons span spans ih =>
    have grown := ih (above ++ [⟨span.left, base, span.right, bottom⟩])
    simp only [length_append, length_singleton, append_assoc, singleton_append] at grown
    simp only [length_cons, range'_succ, foldl_cons, row, map_cons]
    rw [modify_append_length]
    exact grown

/-- What holds of the state of building a union, once it is complete down to an edge. -/
structure Laid (rects : List Ltrb) (edge : Nat) (state : Banding) : Prop where
  banded : Banded rects edge state.out
  proper : ∀ box ∈ state.out, box.left < box.right ∧ box.top < box.bottom
  small : state.out.length ≤ maxClipRects
  /-- The rectangles of the last band stand at the end. -/
  last : state.prevBottom = some edge → ∃ above base, base < edge ∧
    state.out = above ++ row state.prevSpans base edge ∧
    state.prevBoxes = List.range' above.length state.prevSpans.length

/-- Every top and bottom edge is at or above the first edge, or among the others. -/
def Edged (rects : List Ltrb) (first : Nat) (edges : List Nat) : Prop :=
  ∀ rect ∈ rects, ∀ edge ∈ [rect.top, rect.bottom], edge ≤ first ∨ edge ∈ edges

theorem holds_bandSpans (proper : ∀ rect ∈ rects, rect.left < rect.right)
    (edged : Edged rects top (bottom :: edges)) (sorted : (bottom :: edges).Pairwise (· < ·))
    (low : top ≤ point.y) (high : point.y < bottom) :
    (∃ span ∈ bandSpans rects top bottom, span.Holds point.x) ↔ Covered rects point := by
  have beyond : ∀ edge ∈ bottom :: edges, bottom ≤ edge := by
    intro edge listed
    rcases mem_cons.mp listed with rfl | later
    · exact Nat.le_refl _
    · exact Nat.le_of_lt ((pairwise_cons.mp sorted).1 edge later)
  rw [bandSpans, Span.holds_merge_sort]
  · simp only [mem_map, mem_filter, Covered, covers_iff]
    constructor
    · rintro ⟨_, ⟨rect, ⟨listed, across⟩, rfl⟩, within⟩
      simp only [ge_iff_le, Bool.and_eq_true, decide_eq_true_eq] at across
      exact ⟨rect, listed, within.1, within.2, by omega, by omega⟩
    · rintro ⟨rect, listed, left, right, starts, ends⟩
      refine ⟨_, ⟨rect, ⟨listed, ?_⟩, rfl⟩, left, right⟩
      -- No edge lies inside the band, so a rectangle that meets a row of it spans it.
      have topmost : rect.top ≤ top := by
        rcases edged rect listed rect.top (by simp) with upper | lower
        · exact upper
        · have := beyond _ lower
          omega
      have bottommost : bottom ≤ rect.bottom := by
        rcases edged rect listed rect.bottom (by simp) with upper | lower
        · omega
        · exact beyond _ lower
      simp [topmost, bottommost]
  · intro span listed
    obtain ⟨rect, among, rfl⟩ := mem_map.mp listed
    exact proper rect (mem_filter.mp among).1

theorem separate_bandSpans (proper : ∀ rect ∈ rects, rect.left < rect.right) (top bottom : Nat) :
    Span.Separate (bandSpans rects top bottom) := by
  refine Span.separate_merge_sort fun span listed => ?_
  obtain ⟨rect, among, rfl⟩ := mem_map.mp listed
  exact proper rect (mem_filter.mp among).1

theorem Banded.flat {edge : Nat} (banded : Banded rects edge boxes) (spans : List (Span Nat)) :
    Banded rects edge (boxes ++ row spans edge edge) where
  apart := by
    have empty : ∀ box ∈ row spans edge edge, ∀ point, ¬box.covers point := by
      intro box listed point
      obtain ⟨span, -, rfl⟩ := mem_map.mp listed
      simp only [covers_iff]
      omega
    refine pairwise_append.mpr ⟨banded.apart, ?_, ?_⟩
    · refine pairwise_of_forall_mem_list fun first listed second _ point both => ?_
      exact empty first listed point both.1
    · exact fun box _ other among point both => empty other among point both.2
  above := by
    intro box listed
    rcases mem_append.mp listed with older | among
    · exact banded.above box older
    · obtain ⟨span, -, rfl⟩ := mem_map.mp among
      exact Nat.le_refl edge
  covers := by
    intro point
    rw [covered_append, covered_row, ← banded.covers]
    refine or_iff_left ?_
    rintro ⟨-, low, high⟩
    omega

theorem proper_append_row {base : Nat}
    (proper : ∀ box ∈ boxes, box.left < box.right ∧ box.top < box.bottom)
    (separate : Span.Separate spans) (down : base < bottom) :
    ∀ box ∈ boxes ++ row spans base bottom, box.left < box.right ∧ box.top < box.bottom := by
  intro box listed
  rcases mem_append.mp listed with older | among
  · exact proper box older
  · obtain ⟨span, spanned, rfl⟩ := mem_map.mp among
    exact ⟨separate.proper span spanned, down⟩

section

variable {state state' : Banding} (laid : Laid rects top state)
  (proper : ∀ rect ∈ rects, rect.left < rect.right)
include laid proper

theorem Laid.addBand (edged : Edged rects top (bottom :: edges))
    (sorted : (top :: bottom :: edges).Pairwise (· < ·))
    (added : Clip.addBand rects top bottom state = some state') : Laid rects bottom state' := by
  obtain ⟨first, rest⟩ := pairwise_cons.mp sorted
  have down : top < bottom := first bottom mem_cons_self
  have separate := separate_bandSpans proper top bottom
  have band : ∀ point : Point, top ≤ point.y → point.y < bottom →
      ((∃ span ∈ bandSpans rects top bottom, span.Holds point.x) ↔ Covered rects point) :=
    fun point low high => holds_bandSpans proper edged rest low high
  simp only [Clip.addBand] at added
  split at added
  · next like =>
    obtain ⟨reached, spans⟩ := like
    obtain ⟨above, base, started, out, boxes⟩ := laid.last reached
    cases added
    have extended : state.prevBoxes.foldl
        (fun out index => out.modify index ({ · with bottom })) state.out =
          above ++ row state.prevSpans base bottom := by
      rw [out, boxes]
      exact extend_row above state.prevSpans base top bottom
    rw [spans] at separate band
    have banded := laid.banded
    rw [out] at banded
    refine ⟨?_, ?_, ?_, fun _ => ⟨above, base, by omega, extended, boxes⟩⟩
    · rw [extended]
      exact banded.descend (Nat.le_of_lt started) (Nat.le_of_lt down) separate band
    · rw [extended]
      exact proper_append_row (fun box listed => laid.proper box (by simp [out, listed])) separate
        (by omega)
    · have small := laid.small
      rw [out] at small
      rw [extended]
      simpa [row] using small
  · obtain ⟨fits, ⟨⟩⟩ := Option.ite_none_left_eq_some.mp added
    refine ⟨?_, ?_, Nat.le_of_not_lt fits, fun _ => ⟨state.out, top, down, rfl, rfl⟩⟩
    · exact (laid.banded.flat _).descend (Nat.le_refl top) (Nat.le_of_lt down) separate band
    · exact proper_append_row laid.proper separate down

theorem Laid.addBands (edged : Edged rects top edges) (sorted : (top :: edges).Pairwise (· < ·))
    (added : Clip.addBands rects (top :: edges) state = some state') :
    ∃ edge, Laid rects edge state' ∧ Edged rects edge [] := by
  induction edges generalizing top state with
  | nil =>
    cases added
    exact ⟨top, laid, edged⟩
  | cons bottom edges ih =>
    obtain ⟨middle, first, rest⟩ := Option.bind_eq_some_iff.mp added
    refine ih (laid.addBand proper edged sorted first) ?_ (pairwise_cons.mp sorted).2 rest
    intro rect listed edge among
    have down := (pairwise_cons.mp sorted).1 bottom mem_cons_self
    rcases edged rect listed edge among with upper | lower
    · exact .inl (by omega)
    · rcases mem_cons.mp lower with rfl | later
      · exact .inl (Nat.le_refl _)
      · exact .inr later

end

theorem laid_empty {first : Nat} {rest : List Nat} (sorted : (first :: rest).Pairwise (· < ·))
    (listed : ∀ rect ∈ rects, ∀ edge ∈ [rect.top, rect.bottom], edge ∈ first :: rest) :
    Laid rects first ⟨[], [], [], none⟩ where
  banded := by
    refine ⟨List.Pairwise.nil, nofun, fun point => iff_of_false nofun ?_⟩
    rintro ⟨high, rect, among, covered⟩
    rw [covers_iff] at covered
    rcases mem_cons.mp (listed rect among rect.top (by simp)) with same | later
    · omega
    · have := (pairwise_cons.mp sorted).1 _ later
      omega
  proper := nofun
  small := Nat.zero_le _
  last := nofun

/-- The boxes are the union of the rectangles. -/
structure Union (rects boxes : List Ltrb) : Prop where
  proper : ∀ box ∈ boxes, box.left < box.right ∧ box.top < box.bottom
  apart : boxes.Pairwise Apart
  small : boxes.length ≤ maxClipRects
  covers : ∀ point, Covered boxes point ↔ Covered rects point

theorem union_ensures (proper : ∀ rect ∈ rects, rect.left < rect.right)
    (joined : union rects = some boxes) : Union rects boxes := by
  obtain ⟨state, added, returned⟩ := Option.bind_eq_some_iff.mp joined
  cases returned
  let edges := cuts (rects.flatMap fun rect => [rect.top, rect.bottom])
  have listed : ∀ rect ∈ rects, ∀ edge ∈ [rect.top, rect.bottom], edge ∈ edges :=
    fun rect among edge own => mem_cuts.mpr (mem_flatMap.mpr ⟨rect, among, own⟩)
  have sorted : edges.Pairwise (· < ·) := pairwise_cuts _
  change addBands rects edges _ = some state at added
  cases cut : edges with
  | nil =>
    rw [cut] at added listed
    cases added
    refine ⟨nofun, List.Pairwise.nil, Nat.zero_le _, fun point => iff_of_false nofun ?_⟩
    rintro ⟨rect, among, -⟩
    cases listed rect among rect.top (by simp)
  | cons first rest =>
    rw [cut] at added listed sorted
    have edged : Edged rects first rest := by
      intro rect among edge own
      rcases mem_cons.mp (listed rect among edge own) with rfl | later
      · exact .inl (Nat.le_refl _)
      · exact .inr later
    obtain ⟨edge, laid, ended⟩ :=
      (laid_empty sorted listed).addBands proper edged sorted added
    refine ⟨laid.proper, laid.banded.apart, laid.small, fun point => ?_⟩
    rw [laid.banded.covers]
    refine and_iff_right_of_imp ?_
    rintro ⟨rect, among, covered⟩
    rw [covers_iff] at covered
    have := (ended rect among rect.bottom (by simp)).resolve_right (by simp)
    omega

/-! ## The clip within the destination -/

/-- A rectangle of the wire has the pixel. -/
def Holds (rect : Rect) (point : Point) : Prop :=
  rect.left.toInt ≤ point.x ∧ point.x < rect.right.toInt ∧
    rect.top.toInt ≤ point.y ∧ point.y < rect.bottom.toInt

theorem clamp_proper {rect : Rect} {clamped : Ltrb} (meets : clamp rect dest = some clamped) :
    clamped.left < clamped.right ∧ clamped.top < clamped.bottom := by
  simp only [clamp] at meets
  split at meets
  · cases meets
  · cases meets
    dsimp only
    omega

theorem clamp_covers (rect : Rect) (dest : Ltrb) (point : Point) :
    (∃ clamped, clamp rect dest = some clamped ∧ clamped.covers point) ↔
      dest.covers point ∧ Holds rect point := by
  simp only [clamp, Holds, covers_iff]
  split
  · simp only [reduceCtorEq, false_and, exists_false, false_iff]
    omega
  · simp only [Option.some.injEq, exists_eq_left']
    omega

/-- The distinct rectangles of a clip within the destination, however many. -/
def clampedRects (dest : Ltrb) : List Rect → List Ltrb → List Ltrb
  | [], distinct => distinct
  | rect :: rects, distinct =>
    match clamp rect dest with
    | none => clampedRects dest rects distinct
    | some clamped => clampedRects dest rects (distinct.insert clamped)

theorem mem_clampedRects {clamped : Ltrb} {rects : List Rect} :
    clamped ∈ clampedRects dest rects distinct ↔
      clamped ∈ distinct ∨ ∃ rect ∈ rects, clamp rect dest = some clamped := by
  induction rects generalizing distinct with
  | nil => simp [clampedRects]
  | cons rect rects ih =>
    rw [clampedRects, exists_mem_cons_iff, ← or_assoc]
    cases meets : clamp rect dest with
    | none => simp [ih]
    | some other => simp [ih, eq_comm, or_comm]

theorem nodup_clampedRects (dest : Ltrb) (rects : List Rect) (nodup : distinct.Nodup) :
    (clampedRects dest rects distinct).Nodup := by
  induction rects generalizing distinct with
  | nil => exact nodup
  | cons rect rects ih =>
    rw [clampedRects]
    cases clamp rect dest with
    | none => exact ih nodup
    | some other => exact ih nodup.insert

theorem length_le_clampedRects (dest : Ltrb) (rects : List Rect) (distinct : List Ltrb) :
    distinct.length ≤ (clampedRects dest rects distinct).length := by
  induction rects generalizing distinct with
  | nil => exact Nat.le_refl _
  | cons rect rects ih =>
    rw [clampedRects]
    cases clamp rect dest with
    | none => exact ih distinct
    | some other => exact Nat.le_trans length_le_length_insert (ih _)

theorem distinctRects_eq (dest : Ltrb) (rects : List Rect) (few : distinct.length ≤ maxClipRects) :
    distinctRects dest rects distinct =
      if (clampedRects dest rects distinct).length > maxClipRects then none
      else some (clampedRects dest rects distinct) := by
  induction rects generalizing distinct with
  | nil => exact (if_neg (Nat.not_lt.mpr few)).symm
  | cons rect rects ih =>
    rw [distinctRects, clampedRects]
    cases clamp rect dest with
    | none => exact ih few
    | some clamped =>
      dsimp only
      split
      · next many =>
        have grown := length_le_clampedRects dest rects (distinct.insert clamped)
        exact (if_pos (Nat.lt_of_lt_of_le many grown)).symm
      · next fits => exact ih (Nat.le_of_not_lt fits)

theorem covered_clampedRects {rects : List Rect} : Covered (clampedRects dest rects []) point ↔
      dest.covers point ∧ ∃ rect ∈ rects, Holds rect point := by
  simp only [Covered, mem_clampedRects, not_mem_nil, false_or]
  constructor
  · rintro ⟨clamped, ⟨rect, among, meets⟩, covered⟩
    obtain ⟨inside, held⟩ := (clamp_covers rect dest point).mp ⟨clamped, meets, covered⟩
    exact ⟨inside, rect, among, held⟩
  · rintro ⟨inside, rect, among, held⟩
    obtain ⟨clamped, meets, covered⟩ := (clamp_covers rect dest point).mpr ⟨inside, held⟩
    exact ⟨clamped, ⟨rect, among, meets⟩, covered⟩

theorem contains_of_covers {box : Ltrb} (wide : box.left < box.right) (tall : box.top < box.bottom)
    (inside : ∀ point, box.covers point → dest.covers point) : dest.contains box := by
  have first := inside ⟨box.left, box.top⟩
  have last := inside ⟨box.right - 1, box.bottom - 1⟩
  simp only [covers_iff, contains_iff] at first last ⊢
  omega

theorem mergeSort_eq_of_perm {first second : List Ltrb} (same : first.Perm second) :
    first.mergeSort le = second.mergeSort le := by
  have sorted (rects : List Ltrb) : (rects.mergeSort le).Pairwise
      fun first second => le first second = true := by
    apply pairwise_mergeSort
    · intro first second third early late
      rw [le_iff] at early late ⊢
      omega
    · intro first second
      rw [Bool.or_eq_true, le_iff, le_iff]
      omega
  refine List.Perm.eq_of_pairwise ?_ (sorted first) (sorted second) ?_
  · intro rect other _ _ before after
    rw [le_iff] at before after
    cases rect
    cases other
    grind
  · exact (mergeSort_perm first _).trans (same.trans (mergeSort_perm second _).symm)

theorem clipArea_eq (rects : List Rect) (dest : Ltrb) :
    clipArea ⟨clipTypeRects, rects⟩ dest =
      if (clampedRects dest rects []).length > maxClipRects then .tooComplex rects.length
      else if (clampedRects dest rects []).isEmpty then .nothing
      else (union ((clampedRects dest rects []).mergeSort le)).elim
        (.tooComplex rects.length) .rects := by
  simp only [clipArea, ne_eq, not_true_eq_false, if_false]
  rw [distinctRects_eq dest rects (Nat.zero_le _)]
  by_cases many : (clampedRects dest rects []).length > maxClipRects
  · rw [if_pos many, if_pos many]
  · rw [if_neg many, if_neg many]
    dsimp only
    split
    · rfl
    · cases union _ <;> rfl

variable {rects : List Rect}

theorem clipArea_eq_rects
    (reduced : clipArea ⟨clipTypeRects, rects⟩ dest = .rects boxes) :
    union ((clampedRects dest rects []).mergeSort le) = some boxes := by
  rw [clipArea_eq] at reduced
  split at reduced
  · cases reduced
  split at reduced
  · cases reduced
  cases joined : union ((clampedRects dest rects []).mergeSort le) with
  | none =>
    rw [joined] at reduced
    cases reduced
  | some result =>
    rw [joined] at reduced
    exact congrArg some (ClipArea.rects.inj reduced)

theorem clipArea_eq_nothing :
    clipArea ⟨clipTypeRects, rects⟩ dest = .nothing ↔ clampedRects dest rects [] = [] := by
  rw [clipArea_eq]
  constructor
  · intro reduced
    split at reduced
    · cases reduced
    split at reduced
    · next empty => exact isEmpty_iff.mp empty
    · revert reduced
      cases union ((clampedRects dest rects []).mergeSort le) <;> nofun
  · intro empty
    rw [empty]
    rfl

/-- The boxes of a clip are proper, disjoint and few, and cover its pixels in the destination. -/
theorem clipArea_boxes
    (reduced : clipArea ⟨clipTypeRects, rects⟩ dest = .rects boxes) :
    (∀ box ∈ boxes, box.isEmpty = false ∧ dest.contains box) ∧ boxes.Pairwise Apart ∧
      boxes.length ≤ maxClipRects ∧
      ∀ point, Covered boxes point ↔ dest.covers point ∧ ∃ rect ∈ rects, Holds rect point := by
  have proper : ∀ rect ∈ (clampedRects dest rects []).mergeSort le,
      rect.left < rect.right := by
    intro clamped listed
    obtain ⟨rect, -, meets⟩ := (mem_clampedRects.mp (mem_mergeSort.mp listed)).resolve_left
      not_mem_nil
    exact (clamp_proper meets).1
  have sorted (point : Point) : Covered ((clampedRects dest rects []).mergeSort le) point ↔
      dest.covers point ∧ ∃ rect ∈ rects, Holds rect point := by
    rw [← covered_clampedRects]
    simp only [Covered, mem_mergeSort]
  have union := union_ensures proper (clipArea_eq_rects reduced)
  have covers (point : Point) := (union.covers point).trans (sorted point)
  refine ⟨fun box listed => ?_, union.apart, union.small, covers⟩
  obtain ⟨wide, tall⟩ := union.proper box listed
  refine ⟨by simp [DamageRect.isEmpty, wide, tall], contains_of_covers wide tall ?_⟩
  exact fun point covered => ((covers point).mp ⟨box, listed, covered⟩).1

theorem clipArea_nothing_iff : clipArea ⟨clipTypeRects, rects⟩ dest = .nothing ↔
      ∀ point, ¬(dest.covers point ∧ ∃ rect ∈ rects, Holds rect point) := by
  rw [clipArea_eq_nothing]
  constructor
  · intro none_left point
    rw [← covered_clampedRects, none_left]
    nofun
  · intro uncovered
    refine eq_nil_iff_forall_not_mem.mpr fun clamped listed => ?_
    obtain ⟨rect, -, meets⟩ := (mem_clampedRects.mp listed).resolve_left not_mem_nil
    have ends := clamp_proper meets
    refine uncovered ⟨clamped.left, clamped.top⟩ (covered_clampedRects.mp ⟨clamped, listed, ?_⟩)
    simp [covers_iff, ends]

theorem clipArea_eq_whole {clip : Clip} (area : clip.clipArea dest = .whole) :
    clip.clipType ≠ clipTypeRects := by
  rw [clipArea] at area
  split at area
  · assumption
  · split at area
    · cases area
    · split at area
      · cases area
      · split at area <;> cases area

theorem clipArea_boxes_ne_nil
    (reduced : clipArea ⟨clipTypeRects, rects⟩ dest = .rects boxes) : boxes ≠ [] := by
  rintro rfl
  obtain ⟨-, -, -, covers⟩ := clipArea_boxes reduced
  have nothing : clipArea ⟨clipTypeRects, rects⟩ dest = .nothing := by
    refine clipArea_nothing_iff.mpr fun point inside => ?_
    obtain ⟨box, listed, -⟩ := (covers point).mpr inside
    cases listed
  rw [nothing] at reduced
  cases reduced

/-- A list of clip rectangles reduces to disjoint boxes that cover exactly its pixels in the
destination, whatever the order and repetition of the rectangles. -/
theorem clipArea_exact (rects : List Rect) (dest : Ltrb) :
    (∀ boxes, clipArea ⟨clipTypeRects, rects⟩ dest = .rects boxes →
      (∀ box ∈ boxes, box.isEmpty = false ∧ dest.contains box) ∧ boxes.Pairwise Apart ∧
      boxes.length ≤ maxClipRects ∧
      ∀ point, Covered boxes point ↔ dest.covers point ∧ ∃ rect ∈ rects, Holds rect point) ∧
    (clipArea ⟨clipTypeRects, rects⟩ dest = .nothing ↔
      ∀ point, ¬(dest.covers point ∧ ∃ rect ∈ rects, Holds rect point)) ∧
    ∀ others : List Rect, (∀ rect, rect ∈ others ↔ rect ∈ rects) →
      ClipArea.shape (clipArea ⟨clipTypeRects, others⟩ dest) =
        ClipArea.shape (clipArea ⟨clipTypeRects, rects⟩ dest) := by
  refine ⟨fun boxes reduced => clipArea_boxes reduced, clipArea_nothing_iff, fun others same => ?_⟩
  have perm : (clampedRects dest others []).Perm (clampedRects dest rects []) := by
    rw [perm_ext_iff_of_nodup (nodup_clampedRects dest others nodup_nil)
      (nodup_clampedRects dest rects nodup_nil)]
    intro clamped
    simp only [mem_clampedRects, same]
  have empty : (clampedRects dest others []).isEmpty = (clampedRects dest rects []).isEmpty := by
    rw [Bool.eq_iff_iff, isEmpty_iff_length_eq_zero, isEmpty_iff_length_eq_zero, perm.length_eq]
  rw [clipArea_eq, clipArea_eq, mergeSort_eq_of_perm perm, perm.length_eq, empty]
  split
  · rfl
  split
  · rfl
  · cases union ((clampedRects dest rects []).mergeSort le) <;> rfl

end Clip

end Ryll
