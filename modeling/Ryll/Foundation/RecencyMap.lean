import Mathlib

/-!
# Maps that remember the order of use

An association list whose most recently used entry comes first.  Looking an entry up, storing it
and dropping the least recently used one are the operations of a least-recently-used cache.
-/

namespace Ryll

open List

variable {κ ν : Type}

/-- A key is stored, and only the given keys were used after it. -/
def Held (recent : Finset κ) (key : κ) (entries : List (κ × ν)) : Prop :=
  ∃ newer value older, entries = newer ++ (key, value) :: older ∧ ∀ entry ∈ newer, entry.1 ∈ recent

variable {recent : Finset κ} {entries : List (κ × ν)} {capacity : Nat} {key other : κ}

theorem Held.mem (held : Held recent key entries) : key ∈ entries.map Prod.fst := by
  obtain ⟨newer, value, older, rfl, -⟩ := held
  simp

theorem Held.mono {recent' : Finset κ} (held : Held recent key entries)
    (more : recent ⊆ recent') : Held recent' key entries := by
  obtain ⟨newer, value, older, split, used⟩ := held
  exact ⟨newer, value, older, split, fun entry listed => more (used entry listed)⟩

variable [DecidableEq κ]

def peek (key : κ) : List (κ × ν) → Option ν
  | [] => none
  | (key', value) :: entries => if key' = key then some value else peek key entries

def pop (key : κ) (entries : List (κ × ν)) : List (κ × ν) :=
  entries.filter fun entry => entry.1 ≠ key

def put (key : κ) (value : ν) (entries : List (κ × ν)) : List (κ × ν) :=
  (key, value) :: pop key entries

def putBounded (capacity : Nat) (key : κ) (value : ν) (entries : List (κ × ν)) : List (κ × ν) :=
  (put key value entries).take capacity

@[simp]
theorem peek_nil (key : κ) : peek key ([] : List (κ × ν)) = none := rfl

theorem peek_pop (key key' : κ) (entries : List (κ × ν)) :
    peek key' (pop key entries) = if key' = key then none else peek key' entries := by
  induction entries with
  | nil => simp [pop]
  | cons entry entries ih =>
    obtain ⟨stored, value⟩ := entry
    by_cases dropped : stored = key
    · subst dropped
      have removed : pop stored ((stored, value) :: entries) = pop stored entries := by
        simp [pop]
      rw [removed, ih, peek]
      split
      · rfl
      · rename_i other
        rw [if_neg (fun same => other same.symm)]
    · have kept : pop key ((stored, value) :: entries) = (stored, value) :: pop key entries := by
        simp [pop, dropped]
      rw [kept, peek, peek, ih]
      split
      · rename_i found
        subst found
        rw [if_neg dropped]
      · rfl

theorem peek_put (key key' : κ) (value : ν) (entries : List (κ × ν)) :
    peek key' (put key value entries) = if key' = key then some value else peek key' entries := by
  rw [put, peek, peek_pop]
  by_cases same : key' = key
  · subst same
    simp
  · rw [if_neg (fun eq => same eq.symm), if_neg same, if_neg same]

theorem peek_of_prefix {value : ν} {entries' : List (κ × ν)} (kept : entries <+: entries')
    (found : peek key entries = some value) : peek key entries' = some value := by
  induction entries generalizing entries' with
  | nil => simp at found
  | cons entry entries ih =>
    obtain ⟨rest, rfl⟩ := kept
    rw [cons_append, peek]
    rw [peek] at found
    split at found
    · rename_i same
      rw [if_pos same, found]
    · rename_i other
      rw [if_neg other]
      exact ih (prefix_append entries rest) found

theorem isSome_peek_iff : (peek key entries).isSome ↔ key ∈ entries.map Prod.fst := by
  induction entries with
  | nil => simp
  | cons entry entries ih =>
    rw [peek, map_cons, mem_cons]
    split
    · next same => simp [same]
    · next other => rw [ih, or_iff_right (fun same => other same.symm)]

theorem peek_eq_none_iff : peek key entries = none ↔ key ∉ entries.map Prod.fst := by
  rw [← isSome_peek_iff, Option.not_isSome_iff_eq_none]

theorem mem_keys_pop :
    other ∈ (pop key entries).map Prod.fst ↔ other ≠ key ∧ other ∈ entries.map Prod.fst := by
  rw [← isSome_peek_iff, ← isSome_peek_iff, peek_pop]
  split
  · next same => simp [same]
  · next apart => simp [apart]

theorem pop_of_not_mem (absent : key ∉ entries.map Prod.fst) : pop key entries = entries := by
  apply filter_eq_self.mpr
  intro entry listed
  exact decide_eq_true fun same => absent (mem_map.mpr ⟨entry, listed, same⟩)

section

variable (distinct : (entries.map Prod.fst).Nodup)
include distinct

theorem nodup_pop (key : κ) : ((pop key entries).map Prod.fst).Nodup :=
  distinct.sublist (filter_sublist.map Prod.fst)

theorem nodup_put (key : κ) (value : ν) : ((put key value entries).map Prod.fst).Nodup := by
  apply nodup_cons.mpr
  exact ⟨fun listed => (mem_keys_pop.mp listed).1 rfl, nodup_pop distinct key⟩

theorem nodup_putBounded (capacity : Nat) (key : κ)
    (value : ν) : ((putBounded capacity key value entries).map Prod.fst).Nodup :=
  (nodup_put distinct key value).sublist ((take_sublist capacity _).map Prod.fst)

end

/-! ## Recently used keys -/

theorem Held.pop (held : Held recent key entries) (apart : key ≠ other) :
    Held recent key (pop other entries) := by
  obtain ⟨newer, value, older, rfl, used⟩ := held
  refine ⟨Ryll.pop other newer, value, Ryll.pop other older, ?_, ?_⟩
  · simp [Ryll.pop, apart]
  · exact fun entry listed => used entry (mem_of_mem_filter listed)

theorem held_putBounded_self (room : 0 < capacity) (recent : Finset κ) (key : κ) (value : ν)
    (entries : List (κ × ν)) : Held recent key (putBounded capacity key value entries) := by
  obtain ⟨capacity, rfl⟩ := Nat.exists_eq_succ_of_ne_zero (Nat.ne_of_gt room)
  exact ⟨[], value, (pop key entries).take capacity, rfl, nofun⟩

theorem Held.putBounded (held : Held recent key entries)
    (distinct : (entries.map Prod.fst).Nodup) (used : other ∈ recent) (few : recent.card < capacity)
    (value : ν) : Held recent key (putBounded capacity other value entries) := by
  by_cases same : other = key
  · subst same
    exact held_putBounded_self (Nat.zero_lt_of_lt few) recent other value entries
  obtain ⟨newer, stored, older, rfl, newer_used⟩ := held
  -- All that is now used after the key is a set of `recent` keys, so the key is not cut off.
  have after_used : ∀ entry ∈ put other value newer, entry.1 ∈ recent := by
    intro entry listed
    rcases mem_cons.mp listed with rfl | later
    · exact used
    · exact newer_used entry (mem_of_mem_filter later)
  have after_distinct : ((put other value newer).map Prod.fst).Nodup := by
    apply nodup_put
    rw [map_append] at distinct
    exact distinct.of_append_left
  have short : (put other value newer).length ≤ recent.card := by
    rw [← length_map Prod.fst, ← toFinset_card_of_nodup after_distinct]
    apply Finset.card_le_card
    intro used_key listed
    obtain ⟨entry, stored, rfl⟩ := mem_map.mp (mem_toFinset.mp listed)
    exact after_used entry stored
  have split : put other value (newer ++ (key, stored) :: older) =
      put other value newer ++ (key, stored) :: Ryll.pop other older := by
    simp [put, Ryll.pop, Ne.symm same]
  obtain ⟨room, space⟩ := Nat.exists_eq_add_of_lt (Nat.lt_of_le_of_lt short few)
  refine ⟨put other value newer, stored, (Ryll.pop other older).take room, ?_, after_used⟩
  rw [Ryll.putBounded, split, space, Nat.add_assoc, take_length_add_append]
  rfl

/-! ## Several keys in turn -/

def putAll (capacity : Nat) (value : ν) (keys : List κ) (entries : List (κ × ν)) : List (κ × ν) :=
  keys.foldl (fun entries key => putBounded capacity key value entries) entries

section Several

variable {capacity : Nat} {value : ν} {keys : List κ} {entries : List (κ × ν)}

theorem nodup_putAll (distinct : (entries.map Prod.fst).Nodup) :
    ((putAll capacity value keys entries).map Prod.fst).Nodup := by
  induction keys generalizing entries with
  | nil => exact distinct
  | cons key keys ih => exact ih (nodup_putBounded distinct capacity key value)

theorem mem_keys_putAll {other : κ}
    (listed : other ∈ (putAll capacity value keys entries).map Prod.fst) :
    other ∈ keys ∨ other ∈ entries.map Prod.fst := by
  induction keys generalizing entries with
  | nil => exact .inr listed
  | cons key keys ih =>
    rcases ih listed with later | stored
    · exact .inl (mem_cons_of_mem key later)
    · have put : other ∈ (put key value entries).map Prod.fst :=
        ((take_sublist capacity _).map Prod.fst).subset stored
      rcases mem_cons.mp put with rfl | later
      · exact .inl mem_cons_self
      · exact .inr (mem_keys_pop.mp later).2

theorem Held.putAll {key : κ} (held : Held recent key entries)
    (distinct : (entries.map Prod.fst).Nodup) (used : ∀ other ∈ keys, other ∈ recent)
    (few : recent.card < capacity) : Held recent key (putAll capacity value keys entries) := by
  induction keys generalizing entries with
  | nil => exact held
  | cons other keys ih =>
    apply ih
    · exact held.putBounded distinct (used other mem_cons_self) few value
    · exact nodup_putBounded distinct capacity other value
    · exact fun later listed => used later (mem_cons_of_mem other listed)

theorem held_putAll {earlier later : List κ} {key : κ}
    (distinct : (entries.map Prod.fst).Nodup) (used : ∀ other ∈ later, other ∈ recent)
    (few : recent.card < capacity) :
    Held recent key (Ryll.putAll capacity value (earlier ++ key :: later) entries) := by
  rw [Ryll.putAll, foldl_append, foldl_cons]
  have before : ((Ryll.putAll capacity value earlier entries).map Prod.fst).Nodup :=
    nodup_putAll distinct
  apply Held.putAll _ _ used few
  · exact held_putBounded_self (Nat.zero_lt_of_lt few) recent key value _
  · exact nodup_putBounded before capacity key value

end Several

end Ryll
