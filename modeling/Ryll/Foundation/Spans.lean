import Mathlib

/-!
# Spans of an ordered type

Half-open spans sorted by their left ends merge into separate ones that hold the same points, and
the distinct values of a sorted list cut the type into bands.
-/

namespace Ryll

open List

variable {α : Type} [LinearOrder α]

/-- The points from `left` up to, but not including, `right`. -/
structure Span (α : Type) where
  left : α
  /-- The point past the last one. -/
  right : α
  deriving DecidableEq

namespace Span

/-- The point is in the span. -/
def Holds (span : Span α) (point : α) : Prop := span.left ≤ point ∧ point < span.right

def le (first second : Span α) : Bool :=
  first.left < second.left || (first.left = second.left && first.right ≤ second.right)

theorem le_iff {first second : Span α} : first.le second = true ↔
    first.left < second.left ∨ first.left = second.left ∧ first.right ≤ second.right := by
  simp [le]

def sort (spans : List (Span α)) : List (Span α) := spans.mergeSort le

variable {span : Span α} {spans : List (Span α)}

theorem mem_sort : span ∈ sort spans ↔ span ∈ spans :=
  mem_mergeSort

theorem pairwise_sort (spans : List (Span α)) :
    (sort spans).Pairwise fun first second => first.left ≤ second.left := by
  have sorted : (sort spans).Pairwise fun first second => first.le second = true := by
    apply pairwise_mergeSort
    · intro first second third early late
      rw [le_iff] at early late ⊢
      grind
    · intro first second
      rw [Bool.or_eq_true, le_iff, le_iff]
      grind
  refine sorted.imp fun {first second} before => ?_
  rcases le_iff.mp before with lower | ⟨same, -⟩
  · exact lower.le
  · exact same.le

def mergeFrom (last : Span α) : List (Span α) → List (Span α)
  | [] => [last]
  | span :: spans =>
    if span.left ≤ last.right then
      mergeFrom ⟨last.left, max last.right span.right⟩ spans
    else
      last :: mergeFrom span spans

def merge : List (Span α) → List (Span α)
  | [] => []
  | span :: spans => mergeFrom span spans

/-- Spans that are not empty and leave gaps between each other. -/
structure Separate (spans : List (Span α)) : Prop where
  proper : ∀ span ∈ spans, span.left < span.right
  apart : spans.Pairwise fun first second => first.right < second.left

/-- Proper spans in the order of their left ends. -/
structure Ready (last : Span α) (spans : List (Span α)) : Prop where
  proper : ∀ span ∈ last :: spans, span.left < span.right
  sorted : (last :: spans).Pairwise fun first second => first.left ≤ second.left

variable {last : Span α}

theorem Ready.join (ready : Ready last (span :: spans)) :
    Ready ⟨last.left, max last.right span.right⟩ spans where
  proper := by
    simp only [forall_mem_cons]
    refine ⟨?_, fun other listed => ready.proper other (by simp [listed])⟩
    exact lt_of_lt_of_le (ready.proper last mem_cons_self) (le_max_left _ _)
  sorted := by
    obtain ⟨first, rest⟩ := pairwise_cons.mp ready.sorted
    refine pairwise_cons.mpr ⟨?_, (pairwise_cons.mp rest).2⟩
    exact fun other listed => first other (mem_cons_of_mem span listed)

theorem Ready.skip (ready : Ready last (span :: spans)) : Ready span spans where
  proper := fun other listed => ready.proper other (mem_cons_of_mem last listed)
  sorted := (pairwise_cons.mp ready.sorted).2

theorem holds_mergeFrom (ready : Ready last spans) (point : α) :
    (∃ span ∈ mergeFrom last spans, span.Holds point) ↔
      ∃ span ∈ last :: spans, span.Holds point := by
  induction spans generalizing last with
  | nil => rfl
  | cons span spans ih =>
    have ordered : last.left ≤ span.left :=
      (pairwise_cons.mp ready.sorted).1 span mem_cons_self
    rw [mergeFrom]
    split
    · next touching =>
      have joined : (Span.mk last.left (max last.right span.right)).Holds point ↔
          last.Holds point ∨ span.Holds point := by
        simp only [Holds]
        grind
      rw [ih ready.join]
      simp only [exists_mem_cons_iff, joined, or_assoc]
    · simp only [exists_mem_cons_iff, ih ready.skip]

theorem separate_mergeFrom (ready : Ready last spans) :
    Separate (mergeFrom last spans) ∧ ∀ span ∈ mergeFrom last spans, last.left ≤ span.left := by
  induction spans generalizing last with
  | nil =>
    simp only [mergeFrom, forall_mem_singleton]
    exact ⟨⟨by simpa using ready.proper, pairwise_singleton _ _⟩, le_rfl⟩
  | cons span spans ih =>
    rw [mergeFrom]
    split
    · exact ih ready.join
    next apart =>
    obtain ⟨⟨proper, separate⟩, right⟩ := ih ready.skip
    have beyond : ∀ other ∈ mergeFrom span spans, last.right < other.left :=
      fun other listed => lt_of_lt_of_le (not_le.mp apart) (right other listed)
    have ends := ready.proper last mem_cons_self
    refine ⟨⟨?_, pairwise_cons.mpr ⟨beyond, separate⟩⟩, ?_⟩
    · exact forall_mem_cons.mpr ⟨ends, proper⟩
    · refine forall_mem_cons.mpr ⟨le_rfl, fun other listed => ?_⟩
      exact (ends.trans (beyond other listed)).le

section Merge

variable {spans : List (Span α)} (proper : ∀ span ∈ spans, span.left < span.right)
include proper

theorem holds_merge_sort (point : α) :
    (∃ span ∈ merge (sort spans), span.Holds point) ↔ ∃ span ∈ spans, span.Holds point := by
  have same : (∃ span ∈ sort spans, span.Holds point) ↔ ∃ span ∈ spans, span.Holds point := by
    simp only [mem_sort]
  rw [← same]
  have sorted := pairwise_sort spans
  cases listed : sort spans with
  | nil => rfl
  | cons last rest =>
    rw [listed] at sorted
    refine holds_mergeFrom ⟨fun span among => proper span ?_, sorted⟩ point
    rwa [← mem_sort, listed]

theorem separate_merge_sort : Separate (merge (sort spans)) := by
  have sorted := pairwise_sort spans
  cases listed : sort spans with
  | nil => exact ⟨nofun, List.Pairwise.nil⟩
  | cons last rest =>
    rw [listed] at sorted
    refine (separate_mergeFrom ⟨fun span among => proper span ?_, sorted⟩).1
    rwa [← mem_sort, listed]

end Merge

end Span

/-! ## Cuts -/

def cuts (values : List α) : List α :=
  (values.mergeSort fun first second => first ≤ second).destutter (· ≠ ·)

variable {values : List α}

theorem mem_destutter' {value first : α} :
    value ∈ values.destutter' (· ≠ ·) first ↔ value ∈ first :: values := by
  induction values generalizing first with
  | nil => rfl
  | cons next values ih =>
    rw [destutter'_cons]
    split
    · simp only [mem_cons, ih]
    · next same =>
      simp_all

theorem mem_cuts {value : α} : value ∈ cuts values ↔ value ∈ values := by
  rw [cuts]
  have sorted : value ∈ values.mergeSort (fun first second => first ≤ second) ↔ value ∈ values :=
    mem_mergeSort
  rw [← sorted]
  cases values.mergeSort fun first second => first ≤ second with
  | nil => rfl
  | cons first rest => exact mem_destutter'

theorem pairwise_lt_of_chain (sorted : values.Pairwise (· ≤ ·))
    (distinct : values.IsChain (· ≠ ·)) : values.Pairwise (· < ·) := by
  rw [← isChain_iff_pairwise] at sorted ⊢
  induction values with
  | nil => exact .nil
  | cons first values ih =>
    cases values with
    | nil => exact .singleton first
    | cons second values =>
      obtain ⟨ordered, sorted⟩ := isChain_cons_cons.mp sorted
      obtain ⟨different, distinct⟩ := isChain_cons_cons.mp distinct
      exact isChain_cons_cons.mpr
        ⟨lt_of_le_of_ne ordered different, ih sorted distinct⟩

theorem pairwise_cuts (values : List α) : (cuts values).Pairwise (· < ·) := by
  have sorted : (values.mergeSort fun first second => first ≤ second).Pairwise
      fun first second => decide (first ≤ second) = true := by
    apply pairwise_mergeSort
    · intro first second third early late
      exact decide_eq_true ((of_decide_eq_true early).trans (of_decide_eq_true late))
    · intro first second
      simpa using le_total first second
  refine pairwise_lt_of_chain ?_ (isChain_destutter _ _)
  exact (sorted.imp of_decide_eq_true).sublist (destutter_sublist _ _)

end Ryll
