import Ryll.Compression.ByteBoundedLru

/-!
# The byte-bounded cache over whole runs

Through every sequence of operations the byte count is that of the entries, both caps hold, and an
insertion evicts as few of the least recently used entries as it can.
-/

namespace Ryll

open List ByteBoundedLru

/-! ## Entries and their bytes -/

def payload (entries : List (Nat × Slice)) : Nat :=
  (entries.map fun entry => entry.2.length).sum

@[simp]
theorem payload_nil : payload [] = 0 := rfl

@[simp]
theorem payload_cons (entry : Nat × Slice) (entries : List (Nat × Slice)) :
    payload (entry :: entries) = entry.2.length + payload entries := by
  simp [payload]

@[simp]
theorem payload_append (left right : List (Nat × Slice)) :
    payload (left ++ right) = payload left + payload right := by
  simp [payload]

theorem pop_account {key : Nat} {value : Slice} {entries : List (Nat × Slice)}
    (distinct : (entries.map Prod.fst).Nodup) (stored : peek key entries = some value) :
    payload (pop key entries) + value.length = payload entries ∧
      (pop key entries).length + 1 = entries.length := by
  induction entries with
  | nil => cases stored
  | cons entry entries ih =>
    obtain ⟨key', value'⟩ := entry
    obtain ⟨first, rest⟩ := nodup_cons.mp distinct
    rw [peek] at stored
    split at stored
    · next same =>
      subst same
      obtain rfl := Option.some.inj stored
      have removed : pop key' ((key', value') :: entries) = entries := by
        rw [pop, filter_cons_of_neg (by simp)]
        exact pop_of_not_mem first
      rw [removed]
      simp [Nat.add_comm]
    · next other =>
      have kept : pop key ((key', value') :: entries) = (key', value') :: pop key entries :=
        filter_cons_of_pos (by simpa using other)
      obtain ⟨bytes, count⟩ := ih rest stored
      rw [kept]
      simp only [payload_cons, length_cons]
      omega

namespace ByteBoundedLru

/-! ## The state of the cache -/

/-- The entries are within both caps. -/
def Fits (lru : ByteBoundedLru) (entries : List (Nat × Slice)) : Prop :=
  payload entries ≤ lru.capBytes ∧ entries.length ≤ lru.maxEntries

/-- The count is right and the caps hold. -/
structure Sound (lru : ByteBoundedLru) : Prop where
  /-- A key is stored once. -/
  distinct : (lru.inner.map Prod.fst).Nodup
  counted : lru.bytes = payload lru.inner
  fits : lru.Fits lru.inner
  roomy : 0 < lru.maxEntries

variable {lru : ByteBoundedLru} {gone kept : List (Nat × Slice)} {value : Slice}

theorem new_sound {capBytes : Nat} (created : (new capBytes : Outcome Empty _) = .ok lru) :
    lru.Sound := by
  rw [new, withCaps] at created
  split at created
  · next caps =>
    cases created
    exact ⟨nodup_nil, rfl, ⟨Nat.zero_le _, Nat.zero_le _⟩, caps.2⟩
  · cases created

/-! ## Eviction -/

def evicting (start : ByteBoundedLru) (kept gone : List (Nat × Slice)) : Eviction where
  lru := { start with
    inner := kept
    bytes := payload kept
    evictionsTotal := start.evictionsTotal + gone.length
    evictedBytesTotal := start.evictedBytesTotal + payload gone }
  evicted := gone.length
  freedBytes := payload gone
  evictedKeys := (gone.map Prod.fst).reverse

/-- Entries were evicted from the least recently used on, and none of them could have stayed. -/
structure Evicted (start : ByteBoundedLru) (kept gone : List (Nat × Slice)) : Prop where
  split : start.inner = kept ++ gone
  needed : ∀ more, more <+: start.inner → kept.length < more.length → ¬start.Fits more

variable {start : ByteBoundedLru}

theorem Evicted.more {front : List (Nat × Slice)} {last : Nat × Slice}
    (evicted : start.Evicted (front ++ [last]) gone) (exceeds : ¬start.Fits (front ++ [last])) :
    start.Evicted front (last :: gone) where
  split := by rw [evicted.split, append_assoc, singleton_append]
  needed more listed longer := by
    by_cases same : more.length = (front ++ [last]).length
    · have whole : more = front ++ [last] := by
        refine prefix_of_prefix_length_le listed ?_ (Nat.le_of_eq same) |>.eq_of_length same
        rw [evicted.split]
        exact prefix_append _ _
      rw [whole]
      exact exceeds
    · refine evicted.needed more listed ?_
      rw [length_append, length_singleton] at same ⊢
      omega

section Round

variable {ε : Type} {start : ByteBoundedLru}

theorem evictRound_fits (fits : start.Fits kept) :
    (evictRound (evicting start kept gone) : Outcome ε _) =
      .ok (.leave (evicting start kept gone)) := by
  obtain ⟨bytes, count⟩ := fits
  exact if_neg (by simp only [evicting]; omega)

theorem evictRound_over {front : List (Nat × Slice)} {last : Nat × Slice}
    (exceeds : ¬start.Fits (front ++ [last])) :
    (evictRound (evicting start (front ++ [last]) gone) : Outcome ε _) =
      .ok (.next (evicting start front (last :: gone))) := by
  have excess : (evicting start (front ++ [last]) gone).lru.bytes > start.capBytes ∨
      (evicting start (front ++ [last]) gone).lru.inner.length > start.maxEntries := by
    simp only [Fits, not_and_or, Nat.not_le] at exceeds
    exact exceeds
  refine (if_pos excess).trans ?_
  simp [evicting, Nat.add_assoc, Nat.add_comm]

end Round

variable {ε : Type}

/-- The eviction loop ends, without finding the cache empty, once the entries fit. -/
theorem evictLoop_ensures (start : ByteBoundedLru) :
    (loop evictRound (start.inner.length + 2) (evicting start start.inner []) :
      Outcome ε Eviction).Ensures fun result =>
        ∃ kept gone, result = evicting start kept gone ∧ start.Evicted kept gone ∧
          start.Fits kept := by
  refine loop_ensures
    (fun state => ∃ kept gone, state = evicting start kept gone ∧ start.Evicted kept gone)
    (fun state => state.lru.inner.length) ?_ ⟨start.inner, [], rfl, ?_⟩
    (Nat.lt_add_of_pos_right (by decide))
  · rintro state ⟨kept, gone, rfl, evicted⟩
    by_cases fits : start.Fits kept
    · rw [evictRound_fits fits]
      exact ⟨kept, gone, rfl, evicted, fits⟩
    · rcases eq_nil_or_concat' kept with rfl | ⟨front, last, rfl⟩
      · exact absurd ⟨Nat.zero_le _, Nat.zero_le _⟩ fits
      · rw [evictRound_over fits]
        refine ⟨⟨front, last :: gone, rfl, evicted.more fits⟩, ?_⟩
        simp [evicting]
  · exact ⟨(append_nil _).symm, fun more listed longer =>
      absurd listed.length_le (Nat.not_le.mpr longer)⟩

/-! ## Insertion -/

/-- An insertion stores its entry as the latest and evicts the shortest run of oldest ones that
makes room. -/
structure Inserts (lru : ByteBoundedLru) (key : Nat) (value : Slice)
    (kept gone : List (Nat × Slice)) (result : ByteBoundedLru × InsertOutcome × List Nat) :
    Prop where
  others : pop key lru.inner = kept ++ gone
  /-- The entry comes first, then those that are kept, as before. -/
  stored : result.1.inner = (key, value) :: kept
  fits : lru.Fits ((key, value) :: kept)
  /-- Keeping more of the others would exceed a cap. -/
  needed : ∀ more, more <+: pop key lru.inner → kept.length < more.length →
    ¬lru.Fits ((key, value) :: more)
  /-- The evicted keys are reported, the least recently used first. -/
  keys : result.2.2 = (gone.map Prod.fst).reverse
  outcome : result.2.1 = if gone = [] then .inserted
    else .insertedAfterEviction gone.length (payload gone)
  counted : result.1.bytes = payload result.1.inner
  caps : result.1.capBytes = lru.capBytes ∧ result.1.maxEntries = lru.maxEntries
  totals : result.1.evictionsTotal = lru.evictionsTotal + gone.length ∧
    result.1.evictedBytesTotal = lru.evictedBytesTotal + payload gone

theorem Sound.put_account (sound : lru.Sound) (key : Nat) (value : Slice) :
    lru.bytes - (peek key lru.inner).elim 0 Slice.length + value.length =
      payload (put key value lru.inner) := by
  rw [sound.counted, put, payload_cons]
  cases stored : peek key lru.inner with
  | none =>
    rw [pop_of_not_mem (peek_eq_none_iff.mp stored)]
    simp [Nat.add_comm]
  | some old =>
    have := (pop_account sound.distinct stored).1
    simp only [Option.elim_some]
    omega

theorem Evicted.head {first : Nat × Slice} {others : List (Nat × Slice)}
    (evicted : start.Evicted kept gone) (listed : start.inner = first :: others)
    (alone : start.Fits [first]) : ∃ rest, kept = first :: rest ∧ others = rest ++ gone := by
  cases kept with
  | nil =>
    refine absurd alone (evicted.needed [first] ?_ (Nat.lt_succ_self 0))
    rw [listed]
    exact prefix_append [first] others
  | cons head rest =>
    have split := evicted.split
    rw [listed, cons_append] at split
    obtain ⟨rfl, rfl⟩ := List.cons.inj split
    exact ⟨rest, rfl, rfl⟩

theorem insert_ensures (sound : lru.Sound) (key : Nat)
    (small : value.length ≤ lru.capBytes) :
    (lru.insertRecordingEvicted key value : Outcome ε _).Ensures fun result =>
      ∃ kept gone, lru.Inserts key value kept gone result := by
  let start : ByteBoundedLru := { lru with
    inner := put key value lru.inner
    bytes := lru.bytes - (peek key lru.inner).elim 0 Slice.length + value.length }
  have initial : (⟨start, 0, 0, []⟩ : Eviction) = evicting start start.inner [] := by
    simp only [evicting, start, sound.put_account]
    rfl
  rw [insertRecordingEvicted, if_neg (Nat.not_lt.mpr small)]
  dsimp only
  rw [initial]
  refine (evictLoop_ensures start).bind ?_
  rintro _ ⟨all, gone, rfl, evicted, fits⟩
  have alone : start.Fits [(key, value)] := by
    refine ⟨?_, sound.roomy⟩
    simpa [payload] using small
  obtain ⟨kept, rfl, others⟩ := evicted.head rfl alone
  have needed : ∀ more, more <+: pop key lru.inner → kept.length < more.length →
      ¬lru.Fits ((key, value) :: more) := by
    intro more listed longer
    refine evicted.needed ((key, value) :: more) ?_ (Nat.succ_lt_succ longer)
    exact (cons_prefix_cons).mpr ⟨rfl, listed⟩
  split
  · next some_gone =>
    have nonempty : gone ≠ [] := ne_nil_of_length_pos some_gone
    refine ⟨kept, gone, ?_⟩
    exact ⟨others, rfl, fits, needed, rfl, (if_neg nonempty).symm, rfl, ⟨rfl, rfl⟩, rfl, rfl⟩
  · next none_gone =>
    have empty : gone = [] := eq_nil_of_length_eq_zero (Nat.eq_zero_of_not_pos none_gone)
    refine ⟨kept, gone, ?_⟩
    exact ⟨others, rfl, fits, needed, rfl, (if_pos empty).symm, rfl, ⟨rfl, rfl⟩, rfl, rfl⟩

theorem Inserts.sound {key : Nat} {result : ByteBoundedLru × InsertOutcome × List Nat}
    (inserts : lru.Inserts key value kept gone result) (sound : lru.Sound) : result.1.Sound where
  distinct := by
    rw [inserts.stored]
    have whole := nodup_put sound.distinct key value
    rw [put, inserts.others] at whole
    exact whole.sublist ((sublist_append_left ((key, value) :: kept) gone).map Prod.fst)
  counted := inserts.counted
  fits := by
    rw [inserts.stored, Fits, inserts.caps.1, inserts.caps.2]
    exact inserts.fits
  roomy := inserts.caps.2 ▸ sound.roomy

theorem Sound.insert (sound : lru.Sound) (key : Nat) (value : Slice) :
    (lru.insertRecordingEvicted key value : Outcome ε _).Ensures fun result => result.1.Sound := by
  by_cases small : value.length ≤ lru.capBytes
  · refine (insert_ensures sound key small).mono ?_
    rintro result ⟨kept, gone, inserts⟩
    exact inserts.sound sound
  · rw [insertRecordingEvicted, if_pos (Nat.not_le.mp small)]
    exact sound

theorem Sound.insert_fits (sound : lru.Sound) {key : Nat}
    (fits : lru.Fits (put key value lru.inner)) :
    (lru.insertRecordingEvicted key value : Outcome ε _).Ensures fun result =>
      result.1.Sound ∧ result.1.inner = put key value lru.inner := by
  have small : value.length ≤ lru.capBytes := by
    have bytes := fits.1
    exact Nat.le_trans (Nat.le_add_right _ _) bytes
  refine (insert_ensures sound key small).mono ?_
  rintro result ⟨kept, gone, inserts⟩
  have spared : gone = [] := by
    by_contra some_gone
    refine inserts.needed (pop key lru.inner) prefix_rfl ?_ fits
    rw [inserts.others, length_append]
    exact Nat.lt_add_of_pos_right (length_pos_of_ne_nil some_gone)
  refine ⟨inserts.sound sound, ?_⟩
  rw [inserts.stored, put, inserts.others, spared, append_nil]

/-! ## The other operations -/

/-- An operation other than an insertion leaves the caps and the eviction counters alone. -/
structure Withdraws (before after : ByteBoundedLru) : Prop where
  sound : after.Sound
  capBytes : after.capBytes = before.capBytes
  maxEntries : after.maxEntries = before.maxEntries
  evictionsTotal : after.evictionsTotal = before.evictionsTotal
  evictedBytesTotal : after.evictedBytesTotal = before.evictedBytesTotal

theorem Sound.unchanged (sound : lru.Sound) : lru.Withdraws lru :=
  ⟨sound, rfl, rfl, rfl, rfl⟩

theorem Withdraws.trans {before between after : ByteBoundedLru} (first : before.Withdraws between)
    (second : between.Withdraws after) : before.Withdraws after where
  sound := second.sound
  capBytes := second.capBytes.trans first.capBytes
  maxEntries := second.maxEntries.trans first.maxEntries
  evictionsTotal := second.evictionsTotal.trans first.evictionsTotal
  evictedBytesTotal := second.evictedBytesTotal.trans first.evictedBytesTotal

section Withdrawals

variable {lru : ByteBoundedLru}

section

variable (sound : lru.Sound)
include sound

theorem Sound.get (key : Nat) : lru.Withdraws (lru.get key).2 := by
  rw [ByteBoundedLru.get]
  cases stored : peek key lru.inner with
  | none => exact sound.unchanged
  | some value =>
    obtain ⟨bytes, count⟩ := pop_account sound.distinct stored
    have same : payload (put key value lru.inner) = payload lru.inner := by
      rw [put, payload_cons, ← bytes, Nat.add_comm]
    have same_count : (put key value lru.inner).length = lru.inner.length := count
    refine ⟨⟨nodup_put sound.distinct key value, ?_, ⟨?_, ?_⟩, sound.roomy⟩, rfl, rfl, rfl, rfl⟩
    · exact sound.counted.trans same.symm
    · exact same ▸ sound.fits.1
    · exact same_count ▸ sound.fits.2

theorem Sound.remove (key : Nat) : lru.Withdraws (lru.remove key).2 := by
  rw [ByteBoundedLru.remove]
  cases stored : peek key lru.inner with
  | none => exact sound.unchanged
  | some value =>
    obtain ⟨bytes, count⟩ := pop_account sound.distinct stored
    obtain ⟨fits_bytes, fits_count⟩ := sound.fits
    refine ⟨⟨nodup_pop sound.distinct key, ?_, ⟨?_, ?_⟩, sound.roomy⟩, rfl, rfl, rfl, rfl⟩
    · have counted := sound.counted
      dsimp only
      omega
    · exact Nat.le_trans (by dsimp only; omega) fits_bytes
    · exact Nat.le_trans (by dsimp only; omega) fits_count

theorem Sound.clear : lru.Withdraws lru.clear :=
  ⟨⟨nodup_nil, rfl, ⟨Nat.zero_le _, Nat.zero_le _⟩, sound.roomy⟩, rfl, rfl, rfl, rfl⟩

theorem Sound.retainKeys (keep : Nat → Bool) : lru.Withdraws (lru.retainKeys keep).2 := by
  rw [ByteBoundedLru.retainKeys]
  -- The victims are removed one by one; the number removed so far plays no part.
  generalize (lru.inner.filter fun entry => !keep entry.1).map Prod.fst = victims
  generalize 0 = removed
  induction victims generalizing lru removed with
  | nil => exact sound.unchanged
  | cons victim victims ih => exact (sound.remove victim).trans (ih (sound.remove victim).sound _)

end

end Withdrawals

end ByteBoundedLru

/-! ## Runs -/

def InsertOutcome.evicted : InsertOutcome → Nat
  | .insertedAfterEviction evicted _ => evicted
  | _ => 0

def InsertOutcome.freedBytes : InsertOutcome → Nat
  | .insertedAfterEviction _ freedBytes => freedBytes
  | _ => 0

/-- An operation on the cache. -/
inductive LruCall
  | insertRecordingEvicted (key : Nat) (value : Slice)
  | get (key : Nat)
  | remove (key : Nat)
  | clear
  | retainKeys (keep : Nat → Bool)

/-- A cache with what its insertions reported. -/
structure LruWorld where
  lru : ByteBoundedLru
  evicted : Nat
  /-- The bytes freed, summed over the outcomes of all insertions (history). -/
  freedBytes : Nat

namespace LruWorld

def create (capBytes maxEntries : Nat) : Outcome Empty LruWorld := do
  let lru ← withCaps capBytes maxEntries
  return ⟨lru, 0, 0⟩

def step (world : LruWorld) : LruCall → Outcome Empty LruWorld
  | .insertRecordingEvicted key value => do
    let (lru, outcome, _) ← world.lru.insertRecordingEvicted key value
    return ⟨lru, world.evicted + outcome.evicted, world.freedBytes + outcome.freedBytes⟩
  | .get key => return { world with lru := (world.lru.get key).2 }
  | .remove key => return { world with lru := (world.lru.remove key).2 }
  | .clear => return { world with lru := world.lru.clear }
  | .retainKeys keep => return { world with lru := (world.lru.retainKeys keep).2 }

def run (world : LruWorld) (calls : List LruCall) : Outcome Empty LruWorld :=
  calls.foldlM step world

/-- What holds along every run. -/
structure Faithful (capBytes maxEntries : Nat) (world : LruWorld) : Prop where
  sound : world.lru.Sound
  capBytes : world.lru.capBytes = capBytes
  maxEntries : world.lru.maxEntries = maxEntries
  evicted : world.lru.evictionsTotal = world.evicted
  freedBytes : world.lru.evictedBytesTotal = world.freedBytes

section Step

variable {capBytes maxEntries : Nat} {world : LruWorld}

section

variable (faithful : world.Faithful capBytes maxEntries)
include faithful

theorem Faithful.withdraw {lru : ByteBoundedLru}
    (withdraws : world.lru.Withdraws lru) : Faithful capBytes maxEntries { world with lru } where
  sound := withdraws.sound
  capBytes := withdraws.capBytes.trans faithful.capBytes
  maxEntries := withdraws.maxEntries.trans faithful.maxEntries
  evicted := withdraws.evictionsTotal.trans faithful.evicted
  freedBytes := withdraws.evictedBytesTotal.trans faithful.freedBytes

theorem Faithful.step (call : LruCall) :
    (world.step call).Ensures (Faithful capBytes maxEntries) := by
  cases call with
  | insertRecordingEvicted key value =>
    rw [LruWorld.step]
    by_cases small : value.length ≤ world.lru.capBytes
    · refine (insert_ensures faithful.sound key small).bind ?_
      rintro ⟨lru, outcome, keys⟩ ⟨kept, gone, inserts⟩
      have reported : outcome.evicted = gone.length ∧ outcome.freedBytes = payload gone := by
        have := inserts.outcome
        split at this
        · next empty => subst this empty; exact ⟨rfl, rfl⟩
        · subst this; exact ⟨rfl, rfl⟩
      refine ⟨inserts.sound faithful.sound, inserts.caps.1.trans faithful.capBytes,
        inserts.caps.2.trans faithful.maxEntries, ?_, ?_⟩
      · exact inserts.totals.1.trans (by rw [faithful.evicted, reported.1])
      · exact inserts.totals.2.trans (by rw [faithful.freedBytes, reported.2])
    · rw [insertRecordingEvicted, if_pos (Nat.not_le.mp small)]
      exact faithful
  | get key => exact faithful.withdraw (faithful.sound.get key)
  | remove key => exact faithful.withdraw (faithful.sound.remove key)
  | clear => exact faithful.withdraw faithful.sound.clear
  | retainKeys keep => exact faithful.withdraw (faithful.sound.retainKeys keep)

end

end Step

/-- The byte count is that of the entries, both caps hold, and the eviction counters are the sums of
what insertions reported; an insertion is refused only if its entry exceeds the cap. -/
theorem run_bounded (capBytes maxEntries : Nat) (positive : 0 < capBytes)
    (roomy : 0 < maxEntries) (calls : List LruCall) :
    ∃ world, (do (← create capBytes maxEntries).run calls) = .ok world ∧
      world.lru.bytes = payload world.lru.inner ∧ world.lru.bytes ≤ capBytes ∧
      world.lru.inner.length ≤ maxEntries ∧ (world.lru.inner.map Prod.fst).Nodup ∧
      world.lru.evictionsTotal = world.evicted ∧
      world.lru.evictedBytesTotal = world.freedBytes ∧
      (∀ key value, capBytes < value.length →
        (world.lru.insertRecordingEvicted key value : Outcome Empty _) =
          .ok (world.lru, .refused, [])) ∧
      (∀ key value, value.length ≤ capBytes → ∃ result kept gone,
        (world.lru.insertRecordingEvicted key value : Outcome Empty _) = .ok result ∧
          world.lru.Inserts key value kept gone result) ∧
      (∀ key, world.lru.Withdraws (world.lru.remove key).2) ∧
      world.lru.Withdraws world.lru.clear ∧
      ∀ keep, world.lru.Withdraws (world.lru.retainKeys keep).2 := by
  have initial : create capBytes maxEntries = .ok ⟨⟨[], 0, capBytes, maxEntries, 0, 0⟩, 0, 0⟩ := by
    rw [create, withCaps, if_pos ⟨positive, roomy⟩]
    rfl
  have ran : (do (← create capBytes maxEntries).run calls).Ensures
      (Faithful capBytes maxEntries) := by
    rw [initial]
    refine foldlM_ensures _ (fun world call _ faithful => faithful.step call) ?_
    exact ⟨⟨nodup_nil, rfl, ⟨Nat.zero_le _, Nat.zero_le _⟩, roomy⟩, rfl, rfl, rfl, rfl⟩
  obtain ⟨world, returned, faithful⟩ := ran.returns
  have sound := faithful.sound
  obtain ⟨bytes, count⟩ := sound.fits
  rw [faithful.capBytes, ← sound.counted] at bytes
  rw [faithful.maxEntries] at count
  refine ⟨world, returned, sound.counted, bytes, count, sound.distinct, faithful.evicted,
    faithful.freedBytes, fun key value large => ?_, fun key value small => ?_, sound.remove,
    sound.clear, sound.retainKeys⟩
  · exact if_pos (faithful.capBytes.symm ▸ large)
  · obtain ⟨result, stored, kept, gone, inserts⟩ :=
      (insert_ensures sound key (faithful.capBytes.symm ▸ small)).returns
    exact ⟨result, kept, gone, stored, inserts⟩

def smallCalls : List LruCall :=
  [.insertRecordingEvicted 1 ⟨[1, 2], by decide⟩, .insertRecordingEvicted 2 ⟨[3], by decide⟩,
    .insertRecordingEvicted 1 ⟨[4], by decide⟩, .get 2,
    .insertRecordingEvicted 3 ⟨[5, 6, 7], by decide⟩, .remove 2]

theorem small_run_bounded :
    ∃ world, (do (← create 4 3).run smallCalls) = .ok world ∧
      world.lru.bytes = payload world.lru.inner ∧ world.lru.bytes ≤ 4 ∧
      world.lru.inner.length ≤ 3 ∧ world.lru.evictionsTotal = world.evicted := by
  obtain ⟨world, returned, counted, bytes, count, _, evicted, _⟩ :=
    run_bounded 4 3 (by decide) (by decide) smallCalls
  exact ⟨world, returned, counted, bytes, count, evicted⟩

end LruWorld

end Ryll
