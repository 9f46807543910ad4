import Ryll.Foundation.Outcome

/-!
# Damage

The parts of a surface written since a consumer last looked, as a bounded list of rectangles.
Adding a rectangle only ever grows the region, and the region never leaves a box that holds
everything added to it.
-/

namespace Ryll

open List

/-- A pixel by its place. -/
structure Point where
  x : Nat
  /-- Row, counted from the top edge. -/
  y : Nat

/-- A rectangle of pixels, its right and bottom edges excluded. -/
structure DamageRect where
  left : Nat
  top : Nat
  right : Nat
  bottom : Nat
  deriving DecidableEq

open DamageRect

namespace DamageRect

variable (rect : DamageRect)

def covers (point : Point) : Bool :=
  rect.left ≤ point.x && point.x < rect.right && rect.top ≤ point.y && point.y < rect.bottom

def isEmpty : Bool :=
  rect.left ≥ rect.right || rect.top ≥ rect.bottom

def width : Nat := rect.right - rect.left

def height : Nat := rect.bottom - rect.top

def area : Nat := rect.width * rect.height

variable (other : DamageRect)

def contains : Bool :=
  rect.left ≤ other.left && rect.top ≤ other.top && rect.right ≥ other.right &&
    rect.bottom ≥ other.bottom

def union : DamageRect where
  left := min rect.left other.left
  top := min rect.top other.top
  right := max rect.right other.right
  bottom := max rect.bottom other.bottom

/-- The bounding box adds no pixel beyond the combined area, whose sum saturates at 64 bits. -/
def mergesWith : Bool :=
  (rect.union other).area ≤ min (rect.area + other.area) (2 ^ 64 - 1)

theorem covers_iff {rect : DamageRect} {point : Point} : rect.covers point ↔
      rect.left ≤ point.x ∧ point.x < rect.right ∧ rect.top ≤ point.y ∧ point.y < rect.bottom := by
  simp [covers, and_assoc]

theorem isEmpty_iff {rect : DamageRect} :
    rect.isEmpty ↔ rect.left ≥ rect.right ∨ rect.top ≥ rect.bottom := by
  simp [isEmpty]

theorem contains_iff {rect other : DamageRect} :
    rect.contains other ↔ rect.left ≤ other.left ∧ rect.top ≤ other.top ∧
      rect.right ≥ other.right ∧ rect.bottom ≥ other.bottom := by
  simp [contains, and_assoc]

theorem covers_of_contains {rect other : DamageRect} {point : Point} (inside : rect.contains other)
    (covered : other.covers point) : rect.covers point := by
  rw [contains_iff] at inside
  rw [covers_iff] at covered ⊢
  omega

theorem contains_refl : rect.contains rect := by
  simp [contains]

theorem contains_trans {rect middle inner : DamageRect} (outer : rect.contains middle)
    (inside : middle.contains inner) : rect.contains inner := by
  rw [contains_iff] at *
  omega

theorem contains_union_left : (rect.union other).contains rect := by
  rw [contains_iff]
  simp only [union]
  omega

theorem contains_union_right : (rect.union other).contains other := by
  rw [contains_iff]
  simp only [union]
  omega

/-! ### Areas of rectangles with 32-bit edges -/

/-- Every edge is a 32-bit word. -/
def Fits : Prop :=
  rect.left < 2 ^ 32 ∧ rect.top < 2 ^ 32 ∧ rect.right < 2 ^ 32 ∧ rect.bottom < 2 ^ 32

def mergesWithChecked {ε : Type} : Outcome ε Bool := do
  let box ← mulChecked 64 (rect.union other).width (rect.union other).height
  let first ← mulChecked 64 rect.width rect.height
  let second ← mulChecked 64 other.width other.height
  return box ≤ min (first + second) (2 ^ 64 - 1)

theorem Fits.union {rect other : DamageRect} (fits : rect.Fits) (fits' : other.Fits) :
    (rect.union other).Fits := by
  unfold Fits DamageRect.union at *
  dsimp only
  omega

theorem Fits.area_lt {rect : DamageRect} (fits : rect.Fits) :
    rect.width * rect.height < 2 ^ 64 := by
  have wide : rect.width < 2 ^ 32 := Nat.lt_of_le_of_lt (Nat.sub_le _ _) fits.2.2.1
  have high : rect.height < 2 ^ 32 := Nat.lt_of_le_of_lt (Nat.sub_le _ _) fits.2.2.2
  calc rect.width * rect.height < 2 ^ 32 * 2 ^ 32 := Nat.mul_lt_mul'' wide high
    _ = 2 ^ 64 := rfl

theorem Fits.mergesWithChecked {ε : Type} {rect other : DamageRect} (fits : rect.Fits)
    (fits' : other.Fits) :
    (rect.mergesWithChecked other : Outcome ε Bool) = .ok (rect.mergesWith other) := by
  unfold DamageRect.mergesWithChecked
  rw [mulChecked_ok (fits.union fits').area_lt, mulChecked_ok fits.area_lt,
    mulChecked_ok fits'.area_lt]
  rfl

theorem union_comm : rect.union other = other.union rect := by
  simp only [union, Nat.min_comm, Nat.max_comm]

theorem mergesWith_comm : rect.mergesWith other = other.mergesWith rect := by
  rw [mergesWith, mergesWith, union_comm, Nat.add_comm]

theorem isEmpty_of_contains {rect other : DamageRect} (inside : rect.contains other)
    (empty : rect.isEmpty) : other.isEmpty := by
  rw [contains_iff] at inside
  rw [isEmpty_iff] at *
  omega

end DamageRect

def maxDamageRects : Nat := 32

/-- The rectangles written since the last look. -/
structure DamageRegion where
  rects : List DamageRect
  /-- A region nobody takes stays small. -/
  bounded : rects.length ≤ maxDamageRects

def swapRemove {α : Type} (items : List α) (index : Nat) : List α :=
  match items.getLast? with
  | some last => (items.set index last).dropLast
  | none => []

theorem perm_swapRemove {α : Type} {items : List α} {index : Nat} {item : α}
    (present : items[index]? = some item) : items.Perm (item :: swapRemove items index) := by
  rcases eq_nil_or_concat' items with rfl | ⟨front, last, rfl⟩
  · simp at present
  obtain ⟨inside, value⟩ := List.getElem?_eq_some_iff.mp present
  rw [length_append, length_singleton] at inside
  rcases Nat.lt_succ_iff_lt_or_eq.mp inside with before | rfl
  · have removed : swapRemove (front ++ [last]) index = front.set index last := by
      simp [swapRemove, set_append_left _ _ before]
    rw [getElem_append_left before] at value
    rw [removed, set_eq_take_append_cons_drop, if_pos before, ← value]
    calc (front ++ [last]).Perm (last :: front) := perm_append_singleton last front
      _ = last :: (front.take index ++ front[index] :: front.drop (index + 1)) := by simp
      _ |>.Perm (last :: front[index] :: (front.take index ++ front.drop (index + 1))) :=
        perm_middle.cons last
      _ |>.Perm (front[index] :: last :: (front.take index ++ front.drop (index + 1))) :=
        List.Perm.swap _ _ _
      _ |>.Perm (front[index] :: (front.take index ++ last :: front.drop (index + 1))) :=
        perm_middle.symm.cons _
  · have whole : item = last := by simpa using value.symm
    have removed : swapRemove (front ++ [last]) front.length = front := by
      simp [swapRemove]
    rw [removed, whole]
    exact perm_append_singleton last front

namespace DamageRegion

def covers (region : DamageRegion) (point : Point) : Bool :=
  region.rects.any fun rect => rect.covers point

def empty : DamageRegion := ⟨[], Nat.zero_le _⟩

def boundingBox (rects : List DamageRect) : Option DamageRect :=
  match rects with
  | [] => none
  | first :: rest => some (rest.foldl DamageRect.union first)

def mergeRound {ε : Type} (state : List DamageRect × DamageRect) :
    Outcome ε (Flow (List DamageRect × DamageRect) (List DamageRect × DamageRect)) :=
  match state.1.findIdx? (fun rect => rect.mergesWith state.2) with
  | none => .ok (.leave state)
  | some index =>
    match state.1[index]? with
    | none => .fault .bounds
    | some rect => .ok (.next (swapRemove state.1 index, state.2.union rect))

def collapse (rects : List DamageRect) : DamageRegion :=
  if within : rects.length ≤ maxDamageRects then
    ⟨rects, within⟩
  else
    match boundingBox rects with
    | some box => ⟨[box], Nat.succ_le_succ (Nat.zero_le _)⟩
    | none => empty

def add {ε : Type} (region : DamageRegion) (rect : DamageRect) : Outcome ε DamageRegion :=
  if rect.isEmpty || region.rects.any (fun held => held.contains rect) then
    .ok region
  else do
    let (rects, grown) ← loop mergeRound (region.rects.length + 1) (region.rects, rect)
    pure (collapse (rects ++ [grown]))

def full {ε : Type} (width height : Nat) : Outcome ε DamageRegion :=
  empty.add ⟨0, 0, width, height⟩

/-- Rectangles that hold everything in `before`, and reach no further than they must. -/
structure Grown (before after : List DamageRect) : Prop where
  held : ∀ rect ∈ before, ∃ larger ∈ after, larger.contains rect
  /-- A box that holds all of the old rectangles holds all of the new ones. -/
  framed : ∀ frame : DamageRect, (∀ rect ∈ before, frame.contains rect) →
    ∀ rect ∈ after, frame.contains rect

variable {before rects : List DamageRect} {after : List DamageRect}

theorem Grown.of_perm (same : before.Perm after) : Grown before after where
  held rect listed := ⟨rect, same.mem_iff.mp listed, rect.contains_refl⟩
  framed _ inside rect listed := inside rect (same.mem_iff.mpr listed)

theorem Grown.trans {first second third : List DamageRect} (one : Grown first second)
    (two : Grown second third) : Grown first third where
  held rect listed := by
    obtain ⟨larger, listed', inside⟩ := one.held rect listed
    obtain ⟨largest, listed'', inside'⟩ := two.held larger listed'
    exact ⟨largest, listed'', contains_trans inside' inside⟩
  framed frame inside := two.framed frame (one.framed frame inside)

theorem Grown.union (rect other : DamageRect) (rest : List DamageRect) :
    Grown (rect :: other :: rest) (rect.union other :: rest) where
  held := by
    simp only [mem_cons]
    rintro held (rfl | rfl | listed)
    · exact ⟨_, .inl rfl, contains_union_left held other⟩
    · exact ⟨_, .inl rfl, contains_union_right rect held⟩
    · exact ⟨held, .inr listed, held.contains_refl⟩
  framed frame inside := by
    simp only [mem_cons] at inside ⊢
    rintro held (rfl | listed)
    · have first := inside rect (.inl rfl)
      have second := inside other (.inr (.inl rfl))
      rw [DamageRect.contains_iff] at first second ⊢
      simp only [DamageRect.union]
      omega
    · exact inside held (.inr (.inr listed))

/-- What merging a rectangle gives. -/
structure Merged (held : List DamageRect) (rect : DamageRect)
    (merged : List DamageRect × DamageRect) : Prop where
  grown : Grown (rect :: held) (merged.2 :: merged.1)
  kept : merged.1.Subperm held
  contains : merged.2.contains rect

/-- The loop ends, and the rectangle it grew merges with none that is left. -/
theorem mergeLoop_ensures {ε : Type} (rects : List DamageRect) (rect : DamageRect) :
    (loop mergeRound (rects.length + 1) (rects, rect) : Outcome ε _).Ensures fun merged =>
      Merged rects rect merged ∧ ∀ other ∈ merged.1, ¬ other.mergesWith merged.2 := by
  refine loop_ensures (Merged rects rect) (fun state => state.1.length) ?_
    ⟨Grown.of_perm (List.Perm.refl _), List.Subperm.refl _, rect.contains_refl⟩
    (Nat.lt_succ_self _)
  rintro ⟨held, grown⟩ kept
  rw [mergeRound]
  cases found : held.findIdx? (fun other => other.mergesWith grown) with
  | none => exact ⟨kept, by simpa using findIdx?_eq_none_iff.mp found⟩
  | some index =>
    obtain ⟨inside, -⟩ := findIdx?_eq_some_iff_getElem.mp found
    have present : held[index]? = some held[index] := getElem?_eq_getElem inside
    have same := perm_swapRemove present
    simp only [present]
    refine ⟨⟨?_, ?_, ?_⟩, ?_⟩
    · exact kept.grown.trans ((Grown.of_perm (same.cons grown)).trans (Grown.union _ _ _))
    · exact ((sublist_cons_self _ _).subperm.trans same.symm.subperm).trans kept.kept
    · exact contains_trans (contains_union_left _ _) kept.contains
    · have := same.length_eq
      simp only [length_cons] at this ⊢
      omega

theorem boundingBox_grown {box : DamageRect} (bounded : boundingBox rects = some box) :
    Grown rects [box] := by
  cases rects with
  | nil => simp [boundingBox] at bounded
  | cons first rest =>
    obtain rfl := Option.some.inj bounded
    -- Each step of the fold joins the next rectangle to the box so far.
    induction rest generalizing first with
    | nil => exact Grown.of_perm (List.Perm.refl _)
    | cons next rest ih => exact (Grown.union first next rest).trans (ih (first.union next) rfl)

theorem collapse_grown (rects : List DamageRect) : Grown rects (collapse rects).rects := by
  unfold collapse
  split
  · exact Grown.of_perm (List.Perm.refl _)
  rename_i excess
  split
  · exact boundingBox_grown (by assumption)
  · cases rects with
    | nil => exact absurd (Nat.zero_le _) excess
    | cons first rest => simp_all [boundingBox]

/-- A rectangle was added. -/
structure Recorded (before : DamageRegion) (rect : DamageRect) (after : DamageRegion) : Prop where
  covered : ∀ point, before.covers point ∨ rect.covers point → after.covers point
  /-- A box around the old damage and the rectangle is still one. -/
  framed : ∀ frame : DamageRect, frame.contains rect →
    (∀ held ∈ before.rects, frame.contains held) → ∀ held ∈ after.rects, frame.contains held

theorem Grown.any_covers {point : Point} (grown : Grown before after)
    (covered : before.any fun rect => rect.covers point) :
    after.any fun rect => rect.covers point := by
  obtain ⟨held, listed, inside⟩ := any_eq_true.mp covered
  obtain ⟨larger, listed', holds⟩ := grown.held held listed
  exact any_eq_true.mpr ⟨larger, listed', covers_of_contains holds inside⟩

/-- Recording a rectangle never fails, forgets nothing and covers the rectangle. -/
theorem add_ensures {ε : Type} (region : DamageRegion) (rect : DamageRect) :
    (region.add rect : Outcome ε _).Ensures (Recorded region rect) := by
  unfold add
  split
  · rename_i dropped
    refine ⟨fun point inside => ?_, fun _ _ => id⟩
    rcases inside with old | new
    · exact old
    rw [Bool.or_eq_true] at dropped
    rcases dropped with none | held
    · rw [DamageRect.isEmpty_iff] at none
      rw [DamageRect.covers_iff] at new
      omega
    · obtain ⟨larger, listed, holds⟩ := any_eq_true.mp held
      exact any_eq_true.mpr ⟨larger, listed, covers_of_contains holds new⟩
  · refine (mergeLoop_ensures region.rects rect).bind ?_
    rintro ⟨rects, grown⟩ ⟨merged, -⟩
    have appended := merged.grown.trans (Grown.of_perm (perm_append_singleton grown rects).symm)
    have whole := appended.trans (collapse_grown (rects ++ [grown]))
    refine ⟨fun point inside => whole.any_covers ?_, ?_⟩
    · rw [any_cons, Bool.or_eq_true]
      exact inside.symm
    · intro frame inside all
      exact whole.framed frame (forall_mem_cons.mpr ⟨inside, all⟩)

/-! ## Runs of additions -/

/-- No rectangle held is empty, and no two of them qualify to merge. -/
structure Settled (region : DamageRegion) : Prop where
  filled : ∀ rect ∈ region.rects, ¬ rect.isEmpty
  apart : region.rects.Pairwise fun rect other => ¬ rect.mergesWith other

theorem Settled.collapse (filled : ∀ rect ∈ rects, ¬ rect.isEmpty)
    (apart : rects.Pairwise fun rect other => ¬ rect.mergesWith other) :
    (collapse rects).Settled := by
  have grown := collapse_grown rects
  unfold DamageRegion.collapse at *
  split
  · exact ⟨filled, apart⟩
  rename_i excess
  rw [dif_neg excess] at grown
  split
  · rename_i box bounded
    simp only [bounded] at grown
    refine ⟨?_, pairwise_singleton _ _⟩
    obtain ⟨first, listed⟩ := exists_mem_of_length_pos (by omega : 0 < rects.length)
    obtain ⟨larger, listed', inside⟩ := grown.held first listed
    rw [mem_singleton] at listed'
    intro rect listed'' empty
    rw [mem_singleton.mp listed'', ← listed'] at empty
    exact filled first listed (isEmpty_of_contains inside empty)
  · exact ⟨by simp [empty], List.Pairwise.nil⟩

theorem add_settled {ε : Type} {region : DamageRegion} (settled : region.Settled)
    (rect : DamageRect) : (region.add rect : Outcome ε _).Ensures Settled := by
  unfold add
  split
  · exact settled
  rename_i taken
  rw [Bool.not_eq_true, Bool.or_eq_false_iff] at taken
  refine (mergeLoop_ensures region.rects rect).bind ?_
  rintro ⟨rects, grown⟩ ⟨merged, alone⟩
  obtain ⟨left, same, within⟩ := merged.kept
  have apart : rects.Pairwise fun rect other => ¬ rect.mergesWith other :=
    same.pairwise (settled.apart.sublist within)
      fun {first second} apart => mergesWith_comm second first ▸ apart
  refine Settled.collapse ?_ ?_
  · intro held listed
    rw [mem_append, mem_singleton] at listed
    rcases listed with old | rfl
    · exact settled.filled held (merged.kept.subset old)
    · exact fun empty => absurd (isEmpty_of_contains merged.contains empty)
        (by rw [taken.1]; exact Bool.false_ne_true)
  · rw [pairwise_append]
    refine ⟨apart, pairwise_singleton _ _, fun held listed other single => ?_⟩
    rw [mem_singleton.mp single]
    exact alone held listed

/-- An operation on a region. -/
inductive DamageStep
  | add (rect : DamageRect)
  | take

/-- A region with the rectangles added to it. -/
structure History where
  region : DamageRegion := empty
  added : List DamageRect := []

def History.step (history : History) : DamageStep → Outcome Empty History
  | .add rect => do
    let region ← history.region.add rect
    return ⟨region, history.added ++ [rect]⟩
  | .take => return {}

/-- What the rectangles held owe to the rectangles added. -/
structure History.Sound (history : History) : Prop where
  settled : history.region.Settled
  covered : ∀ rect ∈ history.added, ∀ point, rect.covers point → history.region.covers point
  /-- A box that holds every non-empty rectangle added holds the region. -/
  framed : ∀ frame : DamageRect, (∀ rect ∈ history.added, ¬ rect.isEmpty → frame.contains rect) →
    ∀ held ∈ history.region.rects, frame.contains held

theorem History.sound_start : ({} : History).Sound where
  settled := ⟨by simp [empty], List.Pairwise.nil⟩
  covered := by simp
  framed := by simp [empty]

theorem History.step_sound {history : History} (sound : history.Sound) (step : DamageStep) :
    (history.step step).Ensures Sound := by
  cases step with
  | take => exact sound_start
  | add rect =>
    obtain ⟨region, returned, recorded⟩ := (history.region.add_ensures (ε := Empty) rect).returns
    have settled := (add_settled sound.settled rect).of_eq_ok returned
    rw [step, returned]
    refine ⟨settled, fun other listed point inside => ?_, fun frame holds => ?_⟩
    · rw [mem_append, mem_singleton] at listed
      rcases listed with old | rfl
      · exact recorded.covered point (.inl (sound.covered other old point inside))
      · exact recorded.covered point (.inr inside)
    · have old := sound.framed frame fun other listed => holds other (mem_append_left _ listed)
      by_cases skipped : rect.isEmpty
      · -- An empty rectangle leaves the region as it was.
        rw [add, if_pos (by simp [skipped])] at returned
        cases returned
        exact old
      · exact recorded.framed frame (holds rect (by simp) skipped) old

/-- Every addition returns, and the rectangles held are at most 32, not empty, cover those added
since the last take, lie in their bounding box, and no two of them merge. -/
theorem damage_settles (steps : List DamageStep) :
    (∃ history, steps.foldlM History.step {} = .ok history ∧
      (∀ held ∈ history.region.rects, ¬ held.isEmpty) ∧ history.region.rects.length ≤ 32 ∧
      (∀ rect ∈ history.added, ¬ rect.isEmpty →
        ∀ point, rect.covers point → history.region.covers point) ∧ (∀ held ∈ history.region.rects,
        ∃ box, boundingBox (history.added.filter fun rect => !rect.isEmpty) = some box ∧
          box.contains held) ∧ history.region.rects.Pairwise fun rect other =>
        ¬ rect.mergesWith other ∧ ¬ other.mergesWith rect) ∧
    ∀ rect other : DamageRect, rect.Fits → other.Fits → (rect.union other).Fits ∧
      (rect.mergesWithChecked other : Outcome Empty Bool) = .ok (rect.mergesWith other) := by
  refine ⟨?_, fun rect other fits fits' => ⟨fits.union fits', fits.mergesWithChecked fits'⟩⟩
  obtain ⟨history, returned, sound⟩ := (foldlM_ensures History.Sound
    (fun history step _ sound => History.step_sound sound step) History.sound_start).returns
  refine ⟨history, returned, sound.settled.filled, history.region.bounded,
    fun rect listed _ => sound.covered rect listed, fun held listed => ?_,
    sound.settled.apart.imp fun {rect other} apart =>
      ⟨apart, mergesWith_comm rect other ▸ apart⟩⟩
  cases boxed : boundingBox (history.added.filter fun rect => !rect.isEmpty) with
  | none =>
    -- Without a rectangle to hold, even an empty box would hold the region.
    have unfilled : ∀ rect ∈ history.added, ¬ rect.isEmpty → False := by
      intro rect added filled
      cases rest : history.added.filter fun rect => !rect.isEmpty with
      | nil => exact filter_eq_nil_iff.mp rest rect added (by simp [filled])
      | cons => simp [rest, boundingBox] at boxed
    have inside := sound.framed ⟨0, 0, 0, 0⟩
      (fun rect added filled => (unfilled rect added filled).elim) held listed
    exact absurd (isEmpty_of_contains inside rfl) (sound.settled.filled held listed)
  | some box =>
    refine ⟨box, rfl, sound.framed box (fun rect added filled => ?_) held listed⟩
    obtain ⟨larger, single, inside⟩ := (boundingBox_grown boxed).held rect (by simp [added, filled])
    rwa [mem_singleton.mp single] at inside

end DamageRegion

end Ryll
