import Mathlib

/-!
# Copying regions in place

A field assigns a value to every point.  Copying a region in place gives each of its points the
value of another point, all at once.  Copying several regions one after the other is the same as
copying their union at once exactly when no copy disturbs what a later one reads.
-/

namespace Ryll

open List

variable {π α : Type} (source : π → π)

def copyRegion (region : π → Bool) (field : π → α) : π → α :=
  fun point => if region point then field (source point) else field point

variable (regions : List (π → Bool)) (field : π → α)

def copyRegions : π → α :=
  regions.foldl (fun field region => copyRegion source region field) field

def movedRegions : π → α :=
  copyRegion source (fun point => regions.any fun region => region point) field

/-- Where a later region reads from an earlier one, the earlier copy changes nothing. -/
def Undisturbed : Prop :=
  regions.Pairwise fun earlier later => ∀ point, later point → earlier (source point) →
    field (source (source point)) = field (source point)

/-- No point lies in two of the regions. -/
def DisjointRegions : Prop :=
  regions.Pairwise fun earlier later => ∀ point, earlier point → ¬ later point

variable {source}

theorem copyRegions_concat (last : π → Bool) (field : π → α) :
    copyRegions source (regions ++ [last]) field =
      copyRegion source last (copyRegions source regions field) := by
  rw [copyRegions, foldl_append]
  rfl

variable {regions : List (π → Bool)} {field : π → α} {point : π}

theorem copyRegions_of_not_any (outside : ∀ region ∈ regions, ¬ region point) :
    copyRegions source regions field point = field point := by
  induction regions using List.reverseRecOn with
  | nil => rfl
  | append_singleton regions last ih =>
    have last_outside := outside last (by simp)
    rw [copyRegions_concat, copyRegion, if_neg last_outside]
    exact ih fun region listed => outside region (by simp [listed])

theorem movedRegions_of_mem {region : π → Bool} (listed : region ∈ regions)
    (inside : region point) : movedRegions source regions field point = field (source point) :=
  if_pos (any_eq_true.mpr ⟨region, listed, inside⟩)

theorem movedRegions_of_not_any (outside : ∀ region ∈ regions, ¬ region point) :
    movedRegions source regions field point = field point := by
  refine if_neg fun inside => ?_
  obtain ⟨region, listed, covers⟩ := any_eq_true.mp inside
  exact outside region listed covers

theorem movedRegions_concat {last : π → Bool} (outside : ¬ last point) :
    movedRegions source (regions ++ [last]) field point =
      movedRegions source regions field point := by
  simp [movedRegions, copyRegion, outside]

theorem copyRegions_eq_moved_iff (disjoint : DisjointRegions regions) :
    copyRegions source regions field = movedRegions source regions field ↔
      Undisturbed source regions field := by
  induction regions using List.reverseRecOn with
  | nil => exact iff_of_true rfl List.Pairwise.nil
  | append_singleton regions last ih =>
    obtain ⟨disjoint_init, -, apart⟩ := pairwise_append.mp disjoint
    have apart_last : ∀ point, last point → ∀ region ∈ regions, ¬ region point :=
      fun point inside region listed covers =>
        apart region listed last (mem_singleton_self last) point covers inside
    -- The first copies agree with the copy of their union whenever all copies do.
    have init : copyRegions source (regions ++ [last]) field =
          movedRegions source (regions ++ [last]) field →
        copyRegions source regions field = movedRegions source regions field := by
      intro equal
      funext point
      by_cases inside : last point
      · rw [copyRegions_of_not_any (apart_last point inside),
          movedRegions_of_not_any (apart_last point inside)]
      · have here := congrFun equal point
        rwa [copyRegions_concat, copyRegion, if_neg inside, movedRegions_concat inside] at here
    constructor
    · intro equal
      have first := init equal
      refine pairwise_append.mpr ⟨(ih disjoint_init).mp first, pairwise_singleton _ _, ?_⟩
      intro earlier listed later only point inside reads
      rw [mem_singleton] at only
      subst only
      have here := congrFun equal point
      rw [copyRegions_concat, copyRegion, if_pos inside, first, movedRegions_of_mem listed reads,
        movedRegions_of_mem (mem_append_right _ (mem_singleton_self later)) inside]
        at here
      exact here
    · intro undisturbed
      obtain ⟨undisturbed_init, -, later_reads⟩ := pairwise_append.mp undisturbed
      funext point
      rw [copyRegions_concat, copyRegion, (ih disjoint_init).mpr undisturbed_init]
      split
      · rename_i inside
        rw [movedRegions_of_mem (mem_append_right _ (mem_singleton_self last)) inside]
        by_cases reads : ∃ region ∈ regions, region (source point)
        · obtain ⟨region, listed, covers⟩ := reads
          rw [movedRegions_of_mem listed covers]
          exact later_reads region listed last (mem_singleton_self last) point inside covers
        · exact movedRegions_of_not_any fun region listed covers => reads ⟨region, listed, covers⟩
      · rename_i outside
        exact (movedRegions_concat outside).symm

end Ryll
