import Ryll.Foundation.Bytes
import Ryll.Foundation.RecencyMap

/-!
# The byte-bounded cache

Entries are kept in order of use and the least recently used ones are evicted until the stored
bytes and the number of entries are within their caps.
-/

namespace Ryll

variable {ε : Type}

def perEntryOverheadBytes : Nat := 96

/-- What an insertion did. -/
inductive InsertOutcome
  | inserted
  /-- `evicted` is a `u32` in the source: a cache is taken to hold fewer than `2 ^ 32` entries. -/
  | insertedAfterEviction (evicted freedBytes : Nat)
  /-- Not stored, as the entry alone exceeds the byte cap. -/
  | refused
  deriving DecidableEq

/-- A cache from image ids to pixel bytes. -/
structure ByteBoundedLru where
  /-- The entries, most recently used first. -/
  inner : List (Nat × Slice)
  bytes : Nat
  capBytes : Nat
  maxEntries : Nat
  /-- Entries evicted by the caps so far. -/
  evictionsTotal : Nat
  evictedBytesTotal : Nat

namespace ByteBoundedLru

def withCaps (capBytes maxEntries : Nat) : Outcome ε ByteBoundedLru :=
  if capBytes > 0 ∧ maxEntries > 0 then
    .ok { inner := [], bytes := 0, capBytes, maxEntries, evictionsTotal := 0,
          evictedBytesTotal := 0 }
  else
    .fault .assertion

def new (capBytes : Nat) : Outcome ε ByteBoundedLru :=
  withCaps capBytes (max (capBytes / perEntryOverheadBytes) 1)

/-- A cache under eviction, with what this insertion has evicted so far. -/
structure Eviction where
  lru : ByteBoundedLru
  evicted : Nat
  freedBytes : Nat
  evictedKeys : List Nat

def evictRound (state : Eviction) : Outcome ε (Flow Eviction Eviction) :=
  let lru := state.lru
  if lru.bytes > lru.capBytes ∨ lru.inner.length > lru.maxEntries then
    match lru.inner.getLast? with
    | none => .fault .assertion
    | some (key, value) =>
      .ok (.next {
        lru := { lru with
          inner := lru.inner.dropLast
          bytes := lru.bytes - value.length
          evictionsTotal := lru.evictionsTotal + 1
          evictedBytesTotal := lru.evictedBytesTotal + value.length }
        evicted := state.evicted + 1
        freedBytes := state.freedBytes + value.length
        evictedKeys := state.evictedKeys ++ [key] })
  else
    .ok (.leave state)

variable (lru : ByteBoundedLru)

def insertRecordingEvicted (key : Nat) (value : Slice) :
    Outcome ε (ByteBoundedLru × InsertOutcome × List Nat) := do
  if value.length > lru.capBytes then
    return (lru, .refused, [])
  else
    let displaced := (peek key lru.inner).elim 0 Slice.length
    let stored := { lru with
      inner := put key value lru.inner
      bytes := lru.bytes - displaced + value.length }
    let result ← loop evictRound (stored.inner.length + 2)
      { lru := stored, evicted := 0, freedBytes := 0, evictedKeys := [] }
    if result.evicted > 0 then
      return (result.lru, .insertedAfterEviction result.evicted result.freedBytes,
        result.evictedKeys)
    else
      return (result.lru, .inserted, result.evictedKeys)

def get (key : Nat) : Option Slice × ByteBoundedLru :=
  match peek key lru.inner with
  | none => (none, lru)
  | some value => (some value, { lru with inner := put key value lru.inner })

def remove (key : Nat) : Bool × ByteBoundedLru :=
  match peek key lru.inner with
  | none => (false, lru)
  | some value =>
    (true, { lru with inner := pop key lru.inner, bytes := lru.bytes - value.length })

def clear : ByteBoundedLru := { lru with inner := [], bytes := 0 }

def retainKeys (keep : Nat → Bool) : Nat × ByteBoundedLru :=
  let victims := (lru.inner.filter fun entry => !keep entry.1).map Prod.fst
  victims.foldl
    (fun state key =>
      let (present, lru) := state.2.remove key
      (if present then state.1 + 1 else state.1, lru))
    (0, lru)

/-- An eviction drops entries from the end, or leaves the cache as it was. -/
theorem evicted_of_loop {start result : Eviction} {rounds : Nat}
    (returned : (loop evictRound rounds start : Outcome ε Eviction) = .ok result) :
    result.lru.inner <+: start.lru.inner ∧ (result.evicted = 0 → result = start) := by
  let kept (state : Eviction) : Prop :=
    state.lru.inner <+: start.lru.inner ∧ (state.evicted = 0 → state = start)
  refine loop_returns kept kept (fun state flow before round => ?_)
    ⟨List.prefix_rfl, fun _ => rfl⟩ returned
  simp only [evictRound] at round
  split at round
  · split at round
    · cases round
    · cases round
      exact ⟨(List.dropLast_prefix _).trans before.1, nofun⟩
  · cases round
    exact before

variable {lru' : ByteBoundedLru}

section

variable {lru : ByteBoundedLru} {key : Nat} {value : Slice} {outcome : InsertOutcome}
  {keys : List Nat}

/-- An insertion refuses its entry, or puts it first and evicts from the end. -/
theorem insert_of_returned (inserted : (lru.insertRecordingEvicted key value :
      Outcome ε (ByteBoundedLru × InsertOutcome × List Nat)) = .ok (lru', outcome, keys)) :
    (lru' = lru ∧ outcome = .refused) ∨ (lru'.inner <+: put key value lru.inner ∧
      (outcome = .inserted → lru'.inner = put key value lru.inner ∧ keys = [])) := by
  rw [insertRecordingEvicted] at inserted
  split at inserted
  · cases inserted
    exact .inl ⟨rfl, rfl⟩
  obtain ⟨result, returned, rest⟩ := bind_eq_ok.mp inserted
  obtain ⟨shorter, untouched⟩ := evicted_of_loop returned
  split at rest
  · cases rest
    exact .inr ⟨shorter, by rintro ⟨⟩⟩
  · next quiet =>
    obtain rfl := untouched (Nat.eq_zero_of_not_pos quiet)
    cases rest
    exact .inr ⟨shorter, fun _ => ⟨rfl, rfl⟩⟩

theorem peek_of_insert (inserted : (lru.insertRecordingEvicted key value :
      Outcome ε (ByteBoundedLru × InsertOutcome × List Nat)) = .ok (lru', outcome, keys))
    {key' : Nat} {value' : Slice} (found : peek key' lru'.inner = some value') :
    key' = key ∨ peek key' lru.inner = some value' := by
  rcases insert_of_returned inserted with ⟨rfl, -⟩ | ⟨shorter, -⟩
  · exact .inr found
  · have before := peek_of_prefix shorter found
    rw [peek_put] at before
    split at before
    · next inserted_key => exact .inl inserted_key
    · exact .inr before

end

theorem peek_get (key key' : Nat) : peek key' (lru.get key).2.inner = peek key' lru.inner := by
  rw [get]
  cases found : peek key lru.inner with
  | none => rfl
  | some value =>
    rw [peek_put]
    split
    · rename_i same
      rw [same, found]
    · rfl

theorem peek_remove (key key' : Nat) :
    peek key' (lru.remove key).2.inner = if key' = key then none else peek key' lru.inner := by
  rw [remove]
  cases found : peek key lru.inner with
  | none =>
    by_cases same : key' = key
    · rw [if_pos same, same]
      exact found
    · rw [if_neg same]
  | some value => exact peek_pop key key' lru.inner

theorem peek_foldl_remove (victims : List Nat) (state : Nat × ByteBoundedLru) (key : Nat) :
    peek key (victims.foldl
        (fun state key =>
          let (present, lru) := state.2.remove key
          (if present then state.1 + 1 else state.1, lru)) state).2.inner =
      if key ∈ victims then none else peek key state.2.inner := by
  induction victims generalizing state with
  | nil => simp
  | cons victim victims ih =>
    rw [List.foldl_cons, ih]
    rw [peek_remove]
    by_cases first : key = victim <;> by_cases later : key ∈ victims <;> simp [first, later]

theorem peek_retainKeys (keep : Nat → Bool) (key : Nat) :
    peek key (lru.retainKeys keep).2.inner = if keep key then peek key lru.inner else none := by
  rw [retainKeys, peek_foldl_remove]
  by_cases kept : keep key
  · rw [if_pos kept, if_neg]
    simp only [List.mem_map, List.mem_filter]
    rintro ⟨entry, ⟨_, dropped⟩, rfl⟩
    simp [kept] at dropped
  · rw [if_neg kept]
    split
    · rfl
    · rename_i spared
      apply peek_eq_none_iff.mpr
      intro member
      obtain ⟨entry, stored, rfl⟩ := List.mem_map.mp member
      exact spared (List.mem_map.mpr ⟨entry, List.mem_filter.mpr ⟨stored, by simp [kept]⟩, rfl⟩)

end ByteBoundedLru

end Ryll
