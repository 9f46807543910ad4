import Mathlib

/-!
# Ledgers of queued items

A ledger lists the items a queue has accepted, each with what became of it.  The oldest waiting
item is settled first, and waiting items may be cancelled from the back.  What is settled is then
settled in the order of acceptance, and nothing that was settled or cancelled changes again.
-/

namespace Ryll

open List

/-- What became of an accepted item. -/
inductive Fate
  | waiting
  | settled
  | cancelled
  deriving DecidableEq

/-- Accepted items, oldest first, with their fates. -/
abbrev Ledger (α : Type) := List (α × Fate)

namespace Ledger

variable {α : Type}

def withFate (fate : Fate) : Ledger α → List α
  | [] => []
  | (item, other) :: rest => if other = fate then item :: withFate fate rest else withFate fate rest

variable (ledger : Ledger α)

def post (item : α) : Ledger α := ledger ++ [(item, .waiting)]

def settle : Ledger α → Ledger α
  | [] => []
  | (item, .waiting) :: rest => (item, .settled) :: rest
  | (item, .settled) :: rest => (item, .settled) :: settle rest
  | (item, .cancelled) :: rest => (item, .cancelled) :: settle rest

/-- Cancel all but the `keep` oldest waiting items. -/
def cancel : Nat → Ledger α → Ledger α
  | _, [] => []
  | 0, (item, .waiting) :: rest => (item, .cancelled) :: cancel 0 rest
  | keep + 1, (item, .waiting) :: rest => (item, .waiting) :: cancel keep rest
  | keep, (item, .settled) :: rest => (item, .settled) :: cancel keep rest
  | keep, (item, .cancelled) :: rest => (item, .cancelled) :: cancel keep rest

/-- Nothing was settled before an item that waits and was accepted earlier. -/
def InOrder : Prop :=
  ledger.Pairwise fun earlier later => earlier.2 = .waiting → later.2 ≠ .settled

/-- A later state of the ledger: settled and cancelled items are as they were. -/
def Advances (ledger later : Ledger α) : Prop :=
  ∀ (index : Nat) (item : α) (fate : Fate), ledger[index]? = some (item, fate) →
    ∃ fate', later[index]? = some (item, fate') ∧ (fate = .waiting ∨ fate' = fate)

/-- A later state of the ledger that was reached without cancelling anything. -/
def Delivers (ledger later : Ledger α) : Prop :=
  ∀ (index : Nat) (item : α) (fate : Fate), ledger[index]? = some (item, fate) →
    ∃ fate', later[index]? = some (item, fate') ∧
      (fate' = fate ∨ fate = .waiting ∧ fate' = .settled)

theorem withFate_post (item : α) (fate : Fate) :
    (ledger.post item).withFate fate =
      ledger.withFate fate ++ if fate = .waiting then [item] else [] := by
  induction ledger with
  | nil => cases fate <;> rfl
  | cons entry rest ih =>
    rw [post] at ih
    rw [post, cons_append, withFate, withFate, ih]
    split <;> simp

variable {ledger : Ledger α} {fate : Fate} {item : α} {rest : Ledger α}

theorem mem_withFate : item ∈ ledger.withFate fate ↔ (item, fate) ∈ ledger := by
  induction ledger with
  | nil => simp [withFate]
  | cons entry rest ih =>
    obtain ⟨first, other⟩ := entry
    rw [withFate]
    split
    · next same => simp [ih, same]
    · next different => simp [ih, Ne.symm different]

theorem InOrder.post (ordered : ledger.InOrder) (item : α) : (ledger.post item).InOrder := by
  refine pairwise_append.mpr ⟨ordered, pairwise_singleton _ _, ?_⟩
  rintro earlier - later listed -
  obtain rfl := mem_singleton.mp listed
  simp

theorem withFate_settled_of_waiting
    (ordered : InOrder ((item, .waiting) :: rest)) : rest.withFate .settled = [] := by
  refine eq_nil_iff_forall_not_mem.mpr fun other listed => ?_
  exact (pairwise_cons.mp ordered).1 _ (mem_withFate.mp listed) rfl rfl

theorem withFate_waiting_settle (ledger : Ledger α) :
    ledger.settle.withFate .waiting = (ledger.withFate .waiting).tail := by
  induction ledger with
  | nil => rfl
  | cons entry rest ih =>
    obtain ⟨item, _ | _ | _⟩ := entry <;> simp [settle, withFate, ih]

theorem withFate_settled_settle (ordered : ledger.InOrder) : ledger.settle.withFate .settled =
      ledger.withFate .settled ++ (ledger.withFate .waiting).take 1 := by
  induction ledger with
  | nil => rfl
  | cons entry rest ih =>
    obtain ⟨item, _ | _ | _⟩ := entry
    · simp [settle, withFate, withFate_settled_of_waiting ordered]
    · simp [settle, withFate, ih (pairwise_cons.mp ordered).2]
    · simp [settle, withFate, ih (pairwise_cons.mp ordered).2]

variable (keep : Nat)

theorem withFate_waiting_cancel (ledger : Ledger α) :
    (ledger.cancel keep).withFate .waiting = (ledger.withFate .waiting).take keep := by
  fun_induction cancel keep ledger <;> simp_all [withFate]

theorem withFate_settled_cancel (ledger : Ledger α) :
    (ledger.cancel keep).withFate .settled = ledger.withFate .settled := by
  fun_induction cancel keep ledger <;> simp_all [withFate]

theorem InOrder.settle (ordered : ledger.InOrder) : ledger.settle.InOrder := by
  induction ledger with
  | nil => exact ordered
  | cons entry rest ih =>
    obtain ⟨-, rest_ordered⟩ := pairwise_cons.mp ordered
    obtain ⟨item, _ | _ | _⟩ := entry
    · exact pairwise_cons.mpr ⟨nofun, rest_ordered⟩
    · exact pairwise_cons.mpr ⟨nofun, ih rest_ordered⟩
    · exact pairwise_cons.mpr ⟨nofun, ih rest_ordered⟩

theorem InOrder.cancel (ordered : ledger.InOrder) (keep : Nat) : (ledger.cancel keep).InOrder := by
  fun_induction Ledger.cancel keep ledger with
  | case1 => exact ordered
  | case2 item rest ih =>
    exact pairwise_cons.mpr ⟨nofun, ih (pairwise_cons.mp ordered).2⟩
  | case3 keep item rest ih =>
    refine pairwise_cons.mpr ⟨?_, ih (pairwise_cons.mp ordered).2⟩
    rintro ⟨later, _⟩ listed - rfl
    have settled := mem_withFate.mpr listed
    rw [withFate_settled_cancel, withFate_settled_of_waiting ordered] at settled
    exact absurd settled not_mem_nil
  | case4 keep item rest ih | case5 keep item rest ih =>
    exact pairwise_cons.mpr ⟨nofun, ih (pairwise_cons.mp ordered).2⟩

variable {first second third : Ledger α}

theorem Advances.trans (early : first.Advances second)
    (late : second.Advances third) : first.Advances third := by
  intro index item fate listed
  obtain ⟨fate', listed', same⟩ := early index item fate listed
  obtain ⟨fate'', listed'', same'⟩ := late index item fate' listed'
  refine ⟨fate'', listed'', ?_⟩
  rcases same with waiting | rfl
  · exact .inl waiting
  · exact same'

theorem Advances.length_le {later : Ledger α} (advances : ledger.Advances later) :
    ledger.length ≤ later.length := by
  by_contra shorter
  have inside : later.length < ledger.length := Nat.not_le.mp shorter
  obtain ⟨fate, listed, -⟩ := advances later.length ledger[later.length].1
    ledger[later.length].2 (getElem?_eq_getElem inside)
  simp at listed

theorem Delivers.refl (ledger : Ledger α) : ledger.Delivers ledger :=
  fun _ _ fate listed => ⟨fate, listed, .inl rfl⟩

theorem Delivers.advances {later : Ledger α} (delivers : ledger.Delivers later) :
    ledger.Advances later := by
  intro index item fate listed
  obtain ⟨fate', listed', same⟩ := delivers index item fate listed
  exact ⟨fate', listed', same.symm.imp And.left id⟩

theorem Delivers.trans (early : first.Delivers second)
    (late : second.Delivers third) : first.Delivers third := by
  intro index item fate listed
  obtain ⟨fate', listed', same⟩ := early index item fate listed
  obtain ⟨fate'', listed'', same'⟩ := late index item fate' listed'
  refine ⟨fate'', listed'', ?_⟩
  rcases same with rfl | ⟨rfl, rfl⟩
  · exact same'
  · rcases same' with rfl | ⟨impossible, -⟩
    · exact .inr ⟨rfl, rfl⟩
    · cases impossible

theorem Delivers.cons {fate' : Fate} {rest' : Ledger α}
    (head : fate' = fate ∨ fate = .waiting ∧ fate' = .settled) (tail : Delivers rest rest') :
    Delivers ((item, fate) :: rest) ((item, fate') :: rest') := by
  rintro (_ | index) other fate'' listed
  · obtain ⟨rfl, rfl⟩ := Prod.mk.inj (Option.some.inj listed)
    exact ⟨fate', rfl, head⟩
  · exact tail index other fate'' listed

theorem Advances.cons {fate' : Fate} {rest' : Ledger α}
    (head : fate = .waiting ∨ fate' = fate) (tail : Advances rest rest') :
    Advances ((item, fate) :: rest) ((item, fate') :: rest') := by
  rintro (_ | index) other fate'' listed
  · obtain ⟨rfl, rfl⟩ := Prod.mk.inj (Option.some.inj listed)
    exact ⟨fate', rfl, head⟩
  · exact tail index other fate'' listed

variable (ledger : Ledger α)

theorem delivers_post (item : α) : ledger.Delivers (ledger.post item) := by
  intro index other fate listed
  have inside : index < ledger.length := (List.getElem?_eq_some_iff.mp listed).1
  exact ⟨fate, by rw [post, getElem?_append_left inside, listed], .inl rfl⟩

theorem delivers_settle : ledger.Delivers ledger.settle := by
  induction ledger with
  | nil => exact .refl []
  | cons entry rest ih =>
    obtain ⟨item, _ | _ | _⟩ := entry
    · exact .cons (.inr ⟨rfl, rfl⟩) (.refl rest)
    · exact .cons (.inl rfl) ih
    · exact .cons (.inl rfl) ih

theorem advances_cancel (ledger : Ledger α) :
    ledger.Advances (ledger.cancel keep) := by
  fun_induction Ledger.cancel keep ledger with
  | case1 => exact (Delivers.refl []).advances
  | case2 item rest ih => exact .cons (.inl rfl) ih
  | case3 keep item rest ih | case4 keep item rest ih | case5 keep item rest ih =>
    exact .cons (.inr rfl) ih

theorem items_settle : ledger.settle.map Prod.fst = ledger.map Prod.fst := by
  fun_induction Ledger.settle ledger <;> simp_all

theorem items_cancel (ledger : Ledger α) :
    (ledger.cancel keep).map Prod.fst = ledger.map Prod.fst := by
  fun_induction Ledger.cancel keep ledger <;> simp_all

end Ledger

end Ryll
