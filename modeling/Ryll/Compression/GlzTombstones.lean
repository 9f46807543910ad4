import Ryll.Compression.GlzDictionary
import Ryll.Compression.LruRuns
import Ryll.Foundation.Runs

/-!
# The tombstones of the GLZ dictionary

An insertion stores its image under one lock and updates the tombstones under another.  If another
insertion comes between the two, the tombstones can end up wrong for good; `run_truthful` says which
insertions may overlap.
-/

namespace Ryll

open List ByteBoundedLru GlzDictionary

/-- An insertion between its two critical sections. -/
structure GlzInsertion where
  imageId : Nat
  evictedKeys : List Nat

/-- What happened to an image. -/
inductive GlzEvent
  | stored (imageId : Nat)
  | evicted (imageId : Nat)
  | removed (imageId : Nat)

def evictedSince (imageId : Nat) : List GlzEvent → Option (List Nat)
  | [] => none
  | .stored other :: log | .removed other :: log =>
    if other = imageId then none else evictedSince imageId log
  | .evicted other :: log =>
    if other = imageId then some [] else (evictedSince imageId log).map (other :: ·)

/-- The dictionary with its insertions and history. -/
structure TombstoneWorld where
  dictionary : GlzDictionary
  /-- The insertions in progress, in the order in which they stored their images. -/
  inserting : List GlzInsertion
  /-- What happened to the images, latest first (history). -/
  log : List GlzEvent

/-- A step under one lock. -/
inductive TombstoneStep
  | store (imageId : Nat) (pixels : Slice)
  /-- An insertion in progress updates the tombstones; its logging and notifying are left out. -/
  | record (index : Nat)
  | lookup (imageId : Nat)
  | wasEvicted (imageId : Nat)
  | remove (imageId : Nat)
  | evictOlderThan (oldestValid : Nat)
  | clear

namespace TombstoneWorld

variable (world : TombstoneWorld)

def live : List Nat := world.dictionary.images.inner.map Prod.fst

def tombstones : List Nat := world.dictionary.evictedIds.map Prod.fst

def unrecorded : List Nat :=
  world.inserting.flatMap GlzInsertion.evictedKeys

def create (capBytes : Nat) : Outcome Empty TombstoneWorld := do
  let dictionary ← withCap capBytes
  return ⟨dictionary, [], []⟩

def withdraw (images : ByteBoundedLru) : TombstoneWorld :=
  let removed := world.live.filter fun id => (peek id images.inner).isNone
  { world with
    dictionary := { world.dictionary with images }
    log := removed.map .removed ++ world.log }

def step : TombstoneStep → Outcome Empty TombstoneWorld
  | .store imageId pixels => do
    let (images, outcome, evictedKeys) ←
      world.dictionary.images.insertRecordingEvicted imageId pixels
    return {
      dictionary := { world.dictionary with images }
      inserting := world.inserting ++ [⟨imageId, evictedKeys⟩]
      log := if outcome = .refused then world.log
        else evictedKeys.reverse.map .evicted ++ .stored imageId :: world.log }
  | .record index =>
    match world.inserting[index]? with
    | none => return world
    | some insertion =>
      return { world with
        dictionary := { world.dictionary with
          evictedIds := tombstone world.dictionary.evictedIds
            insertion.evictedKeys insertion.imageId }
        inserting := world.inserting.eraseIdx index }
  | .lookup imageId => return world.withdraw (world.dictionary.images.get imageId).2
  | .wasEvicted _ => return world
  | .remove imageId => return world.withdraw (world.dictionary.remove imageId).2.images
  | .evictOlderThan oldestValid =>
    return world.withdraw (world.dictionary.evictOlderThan oldestValid).2.images
  | .clear => return world.withdraw world.dictionary.clear.images

def run (steps : List TombstoneStep) : Outcome Empty TombstoneWorld :=
  steps.foldlM step world

/-- No stored image has a tombstone, and an evicted one has, unless as many other images as there
are tombstones were evicted since. -/
def Truthful : Prop :=
  (∀ id, world.dictionary.wasEvicted id = true → peek id world.dictionary.images.inner = none) ∧
  ∀ id others, evictedSince id world.log = some others →
    others.toFinset.card < evictedIdTombstones → world.dictionary.wasEvicted id = true

/-- An insertion does not store an image whose eviction is yet to be recorded; a refused one has no
tombstone, and another evicts nothing while one is in progress. -/
def Orderly : TombstoneStep → Prop
  | .store imageId pixels =>
    imageId ∉ world.unrecorded ∧
    if pixels.length > world.dictionary.images.capBytes then
      world.dictionary.wasEvicted imageId = false
    else
      world.inserting = [] ∨
        world.dictionary.images.Fits (put imageId pixels world.dictionary.images.inner)
  | _ => True

/-- Every step of a run is orderly. -/
abbrev OrderlyRun (steps : List TombstoneStep) : Prop := Meets (returning step) Orderly world steps

end TombstoneWorld

/-! ## The log -/

variable {others : List Nat} {log : List GlzEvent} {imageId : Nat}

/-- Among evictions, the image is found or all of them came after its own. -/
theorem evictedSince_evicted {keys : List Nat}
    (since : evictedSince imageId (keys.map .evicted ++ log) = some others) :
    (∃ older, keys = others ++ imageId :: older) ∨
      ∃ before, evictedSince imageId log = some before ∧ others = keys ++ before := by
  induction keys generalizing others with
  | nil => exact .inr ⟨others, since, rfl⟩
  | cons key keys ih =>
    rw [map_cons, cons_append, evictedSince] at since
    split at since
    · next same =>
      subst same
      cases since
      exact .inl ⟨keys, rfl⟩
    · obtain ⟨later, found, rfl⟩ := Option.map_eq_some_iff.mp since
      rcases ih found with ⟨older, rfl⟩ | ⟨before, earlier, rfl⟩
      · exact .inl ⟨older, rfl⟩
      · exact .inr ⟨before, earlier, rfl⟩

theorem evictedSince_removed {removed : List Nat}
    (since : evictedSince imageId (removed.map .removed ++ log) = some others) :
    evictedSince imageId log = some others := by
  induction removed with
  | nil => exact since
  | cons other removed ih =>
    obtain ⟨-, since⟩ := Option.ite_none_left_eq_some.mp since
    exact ih since

namespace TombstoneWorld

/-! ## The invariant -/

/-- An eviction is yet to be recorded, or recorded, with only the given images behind it. -/
def Remembers (world : TombstoneWorld) (imageId : Nat) (others : Finset Nat) : Prop :=
  (∃ earlier later, world.unrecorded = earlier ++ imageId :: later ∧ ∀ id ∈ later, id ∈ others) ∨
  Held others imageId world.dictionary.evictedIds ∧ ∀ id ∈ world.unrecorded, id ∈ others

/-- What holds along orderly steps. -/
structure Guarded (world : TombstoneWorld) : Prop where
  sound : world.dictionary.images.Sound
  distinct : world.tombstones.Nodup
  /-- Only the first insertion in progress can have evicted anything. -/
  single : world.inserting.Pairwise fun _ later => later.evictedKeys = []
  /-- No unrecorded eviction is out of date. -/
  gone : ∀ id ∈ world.live, id ∉ world.unrecorded
  cleared : ∀ id ∈ world.live, id ∈ world.tombstones →
    ∃ insertion ∈ world.inserting, insertion.imageId = id
  /-- No insertion in progress will clear a tombstone that has to stay. -/
  spared : ∀ insertion ∈ world.inserting, ∀ others,
    evictedSince insertion.imageId world.log = some others →
      evictedIdTombstones ≤ others.toFinset.card
  remembered : ∀ id others, evictedSince id world.log = some others →
    others.toFinset.card < evictedIdTombstones → world.Remembers id others.toFinset

section Step

variable {world : TombstoneWorld}

theorem wasEvicted_iff (id : Nat) : world.dictionary.wasEvicted id = true ↔ id ∈ world.tombstones :=
  isSome_peek_iff

section

variable (guarded : world.Guarded)
include guarded

theorem Guarded.truthful (finished : world.inserting = []) : world.Truthful := by
  have recorded : world.unrecorded = [] := by rw [unrecorded, finished, flatMap_nil]
  constructor
  · intro id evicted
    rw [peek_eq_none_iff]
    intro stored
    obtain ⟨insertion, listed, -⟩ := guarded.cleared id stored ((wasEvicted_iff id).mp evicted)
    rw [finished] at listed
    cases listed
  · intro id others since few
    rw [wasEvicted_iff]
    rcases guarded.remembered id others since few with ⟨earlier, later, split, -⟩ | ⟨held, -⟩
    · rw [recorded] at split
      simp at split
    · exact held.mem

theorem Guarded.withdraw {images : ByteBoundedLru}
    (withdraws : world.dictionary.images.Withdraws images)
    (fewer : ∀ id, (peek id images.inner).isSome → (peek id world.dictionary.images.inner).isSome) :
    (world.withdraw images).Guarded where
  sound := withdraws.sound
  distinct := guarded.distinct
  single := guarded.single
  gone id stored := guarded.gone id (isSome_peek_iff.mp (fewer id (isSome_peek_iff.mpr stored)))
  cleared id stored :=
    guarded.cleared id (isSome_peek_iff.mp (fewer id (isSome_peek_iff.mpr stored)))
  spared insertion listed others since :=
    guarded.spared insertion listed others (evictedSince_removed since)
  remembered id others since few :=
    guarded.remembered id others (evictedSince_removed since) few

theorem Guarded.refuse {imageId : Nat}
    (apart : imageId ∉ world.unrecorded) (bare : world.dictionary.wasEvicted imageId = false) :
    Guarded { world with inserting := world.inserting ++ [⟨imageId, []⟩] } := by
  have same : unrecorded { world with inserting := world.inserting ++ [⟨imageId, []⟩] } =
      world.unrecorded := by
    simp [unrecorded]
  constructor
  · exact guarded.sound
  · exact guarded.distinct
  · apply pairwise_append.mpr
    refine ⟨guarded.single, pairwise_singleton _ _, fun earlier _ later listed => ?_⟩
    rw [mem_singleton.mp listed]
  · rw [same]
    exact guarded.gone
  · intro id stored buried
    obtain ⟨insertion, listed, own⟩ := guarded.cleared id stored buried
    exact ⟨insertion, mem_append_left _ listed, own⟩
  · intro insertion listed others since
    rcases mem_append.mp listed with before | new
    · exact guarded.spared insertion before others since
    · rw [mem_singleton.mp new] at since
      by_contra few
      rcases guarded.remembered imageId others since (Nat.not_le.mp few) with
        ⟨earlier, later, split, -⟩ | ⟨held, -⟩
      · exact apart (by simp [split])
      · rw [Bool.eq_false_iff, Ne, wasEvicted_iff] at bare
        exact bare held.mem
  · intro id others since few
    rw [Remembers, same]
    exact guarded.remembered id others since few

def stored (world : TombstoneWorld) (imageId : Nat)
    (result : ByteBoundedLru × InsertOutcome × List Nat) : TombstoneWorld where
  dictionary := { world.dictionary with images := result.1 }
  inserting := world.inserting ++ [⟨imageId, result.2.2⟩]
  log := result.2.2.reverse.map .evicted ++ .stored imageId :: world.log

variable {kept gone : List (Nat × Slice)} {result : ByteBoundedLru × InsertOutcome × List Nat}
  {front back : List GlzInsertion} {insertion : GlzInsertion}

theorem Guarded.stored {imageId : Nat} {pixels : Slice}
    (inserts : world.dictionary.images.Inserts imageId pixels kept gone result)
    (apart : imageId ∉ world.unrecorded) (calm : world.inserting = [] ∨ gone = []) :
    (world.stored imageId result).Guarded := by
  have others_distinct : ((kept ++ gone).map Prod.fst).Nodup :=
    inserts.others ▸ nodup_pop guarded.sound.distinct imageId
  have others_live : ∀ id ∈ (kept ++ gone).map Prod.fst, id ≠ imageId ∧ id ∈ world.live := by
    rw [← inserts.others]
    exact fun id listed => mem_keys_pop.mp listed
  rw [map_append] at others_distinct others_live
  have live : (world.stored imageId result).live = imageId :: kept.map Prod.fst := by
    rw [TombstoneWorld.live, TombstoneWorld.stored, inserts.stored, map_cons]
  have unrecorded : (world.stored imageId result).unrecorded =
      world.unrecorded ++ (gone.map Prod.fst).reverse := by
    simp [TombstoneWorld.unrecorded, TombstoneWorld.stored, inserts.keys]
  have log : (world.stored imageId result).log =
      (gone.map Prod.fst).map .evicted ++ .stored imageId :: world.log := by
    rw [TombstoneWorld.stored, inserts.keys, reverse_reverse]
  -- The eviction of an image is one of this insertion or an earlier one of another image.
  have since_cases : ∀ id others, evictedSince id (world.stored imageId result).log = some others →
      id ≠ imageId ∧ ((∃ older, gone.map Prod.fst = others ++ id :: older) ∨
        ∃ before, evictedSince id world.log = some before ∧
          others = gone.map Prod.fst ++ before) := by
    intro id others since
    rw [log] at since
    rcases evictedSince_evicted since with ⟨older, split⟩ | ⟨before, earlier, joined⟩
    · have listed : id ∈ gone.map Prod.fst := by simp [split]
      exact ⟨(others_live id (mem_append_right _ listed)).1, .inl ⟨older, split⟩⟩
    · obtain ⟨other, before_found⟩ := Option.ite_none_left_eq_some.mp earlier
      exact ⟨fun same => other same.symm, .inr ⟨before, before_found, joined⟩⟩
  constructor
  · exact inserts.sound guarded.sound
  · exact guarded.distinct
  · apply pairwise_append.mpr
    refine ⟨guarded.single, pairwise_singleton _ _, fun earlier listed later new => ?_⟩
    rw [mem_singleton.mp new]
    rcases calm with none | fits
    · rw [none] at listed
      cases listed
    · simp [inserts.keys, fits]
  · rw [live, unrecorded]
    intro id stored
    rw [mem_append, mem_reverse, not_or]
    rcases mem_cons.mp stored with rfl | other
    · refine ⟨apart, fun evicted => ?_⟩
      exact (others_live id (mem_append_right _ evicted)).1 rfl
    · refine ⟨guarded.gone id (others_live id (mem_append_left _ other)).2, fun evicted => ?_⟩
      exact (nodup_append.mp others_distinct).2.2 id other id evicted rfl
  · rw [live]
    intro id stored buried
    rcases mem_cons.mp stored with rfl | other
    · exact ⟨_, mem_append_right _ mem_cons_self, rfl⟩
    · obtain ⟨insertion, listed, own⟩ :=
        guarded.cleared id (others_live id (mem_append_left _ other)).2 buried
      exact ⟨insertion, mem_append_left _ listed, own⟩
  · intro insertion listed others since
    obtain ⟨other, found⟩ := since_cases _ _ since
    rcases mem_append.mp listed with before | new
    · rcases calm with none | fits
      · rw [none] at before
        cases before
      · rcases found with ⟨older, split⟩ | ⟨earlier, found, rfl⟩
        · simp [fits] at split
        · simpa [fits] using guarded.spared insertion before earlier found
    · rw [mem_singleton.mp new] at other
      exact absurd rfl other
  · intro id others since few
    obtain ⟨-, found⟩ := since_cases _ _ since
    rw [Remembers, unrecorded]
    rcases found with ⟨older, split⟩ | ⟨before, found, rfl⟩
    · refine .inl ⟨world.unrecorded ++ older.reverse, others.reverse, ?_, ?_⟩
      · simp [split]
      · simp
    · have more : before.toFinset ⊆ (gone.map Prod.fst ++ before).toFinset := by
        rw [toFinset_append]
        exact Finset.subset_union_right
      have joined {ids : List Nat} (used : ∀ key ∈ ids, key ∈ before.toFinset) :
          ∀ key ∈ ids ++ (gone.map Prod.fst).reverse,
            key ∈ (gone.map Prod.fst ++ before).toFinset := by
        intro key listed
        rcases mem_append.mp listed with old | new
        · exact more (used key old)
        · exact mem_toFinset.mpr (mem_append_left _ (mem_reverse.mp new))
      have few_before := Nat.lt_of_le_of_lt (Finset.card_le_card more) few
      rcases guarded.remembered id before found few_before with
        ⟨earlier, later, split, used⟩ | ⟨held, used⟩
      · exact .inl ⟨earlier, later ++ (gone.map Prod.fst).reverse, by simp [split], joined used⟩
      · exact .inr ⟨held.mono more, joined used⟩

end

section

variable (guarded : world.Guarded)
include guarded

theorem Guarded.store {imageId : Nat} {pixels : Slice}
    (orderly : world.Orderly (.store imageId pixels)) :
    (world.step (.store imageId pixels)).Ensures Guarded := by
  obtain ⟨apart, room⟩ := orderly
  rw [step]
  split at room
  · next large =>
    rw [insertRecordingEvicted, if_pos large]
    exact guarded.refuse apart room
  next small =>
  apply (insert_ensures guarded.sound imageId (Nat.not_lt.mp small)).bind
  rintro ⟨images, outcome, keys⟩ ⟨kept, gone, inserts⟩
  have accepted : outcome ≠ .refused := by
    have reported := inserts.outcome
    dsimp only at reported
    rw [reported]
    split <;> rintro ⟨⟩
  dsimp only
  rw [if_neg accepted]
  refine guarded.stored inserts apart (room.imp_right fun fits => ?_)
  by_contra some_gone
  refine inserts.needed (pop imageId _) (prefix_refl _) ?_ fits
  rw [inserts.others, length_append]
  exact Nat.lt_add_of_pos_right (length_pos_iff.mpr some_gone)

theorem Guarded.record_cases (split : world.inserting = front ++ insertion :: back) :
    (insertion.evictedKeys = [] ∧
      (front ++ back).flatMap GlzInsertion.evictedKeys = world.unrecorded) ∨
    (insertion.evictedKeys = world.unrecorded ∧
      (front ++ back).flatMap GlzInsertion.evictedKeys = []) := by
  rw [unrecorded, split]
  by_cases empty : insertion.evictedKeys = []
  · left
    simp [empty]
  right
  have single := guarded.single
  rw [split] at single
  obtain ⟨-, rest, across⟩ := pairwise_append.mp single
  have first : front = [] := by
    apply eq_nil_iff_forall_not_mem.mpr
    exact fun earlier listed => empty (across earlier listed insertion mem_cons_self)
  have last : back.flatMap GlzInsertion.evictedKeys = [] :=
    flatMap_eq_nil_iff.mpr (pairwise_cons.mp rest).1
  simp [first, last]

theorem Guarded.record (split : world.inserting = front ++ insertion :: back) : Guarded { world with
      dictionary := { world.dictionary with
        evictedIds := tombstone world.dictionary.evictedIds
          insertion.evictedKeys insertion.imageId }
      inserting := front ++ back } := by
  have member : insertion ∈ world.inserting := by simp [split]
  have fewer : ∀ other ∈ front ++ back, other ∈ world.inserting := by
    intro other listed
    rw [split, mem_append, mem_cons]
    rcases mem_append.mp listed with earlier | later
    · exact .inl earlier
    · exact .inr (.inr later)
  have put_distinct : ((putAll evictedIdTombstones () insertion.evictedKeys
      world.dictionary.evictedIds).map Prod.fst).Nodup := nodup_putAll guarded.distinct
  have own_unrecorded : ∀ id ∈ insertion.evictedKeys, id ∈ world.unrecorded :=
    fun id listed => mem_flatMap.mpr ⟨insertion, member, listed⟩
  have cases := guarded.record_cases split
  constructor
  · exact guarded.sound
  · exact nodup_pop put_distinct insertion.imageId
  · have single := guarded.single
    rw [split] at single
    exact single.sublist ((sublist_cons_self insertion back).append_left front)
  · intro id stored pending
    apply guarded.gone id stored
    rcases cases with ⟨-, same⟩ | ⟨-, none⟩
    · exact same ▸ pending
    · rw [unrecorded, none] at pending
      cases pending
  · intro id stored buried
    obtain ⟨other, put⟩ := mem_keys_pop.mp buried
    rcases mem_keys_putAll put with evicted | before
    · exact absurd (own_unrecorded id evicted) (guarded.gone id stored)
    obtain ⟨clearing, listed, own⟩ := guarded.cleared id stored before
    refine ⟨clearing, ?_, own⟩
    rw [split, mem_append, mem_cons] at listed
    rcases listed with earlier | same | later
    · exact mem_append_left _ earlier
    · rw [same] at own
      exact absurd own.symm other
    · exact mem_append_right _ later
  · exact fun other listed => guarded.spared other (fewer other listed)
  · intro id others since few
    have apart : id ≠ insertion.imageId := by
      rintro rfl
      exact absurd (guarded.spared insertion member others since) (Nat.not_le.mpr few)
    rcases cases with ⟨none, same⟩ | ⟨all, none⟩
    · rcases guarded.remembered id others since few with pending | ⟨held, used⟩
      · exact .inl (by rw [unrecorded, same]; exact pending)
      · refine .inr ⟨?_, by rw [unrecorded, same]; exact used⟩
        rw [none]
        exact held.pop apart
    · refine .inr ⟨?_, by rw [unrecorded, none]; exact nofun⟩
      rcases guarded.remembered id others since few with
        ⟨earlier, later, split, used⟩ | ⟨held, used⟩
      · rw [all, split]
        exact (held_putAll guarded.distinct used few).pop apart
      · rw [all]
        exact (held.putAll guarded.distinct used few).pop apart

theorem Guarded.step {step : TombstoneStep} (orderly : world.Orderly step) :
    (world.step step).Ensures Guarded := by
  have sound := guarded.sound
  cases step with
  | store imageId pixels => exact guarded.store orderly
  | record index =>
    rw [TombstoneWorld.step]
    split
    · exact guarded
    · next insertion listed =>
      obtain ⟨inside, rfl⟩ := List.getElem?_eq_some_iff.mp listed
      rw [eraseIdx_eq_take_drop_succ]
      apply guarded.record
      rw [← drop_eq_getElem_cons inside, take_append_drop]
  | lookup imageId =>
    apply guarded.withdraw (sound.get imageId)
    intro id stored
    rwa [peek_get] at stored
  | wasEvicted imageId => exact guarded
  | remove imageId =>
    apply guarded.withdraw (sound.remove imageId)
    intro id stored
    rw [peek_remove] at stored
    split at stored
    · cases stored
    · exact stored
  | evictOlderThan oldestValid =>
    apply guarded.withdraw (sound.retainKeys fun id => decide (id ≥ oldestValid))
    intro id stored
    rw [peek_retainKeys] at stored
    split at stored
    · exact stored
    · cases stored
  | clear => exact guarded.withdraw sound.clear (by rintro _ ⟨⟩)

theorem Guarded.run {steps : List TombstoneStep} (orderly : world.OrderlyRun steps) :
    ∃ final, world.run steps = .ok final ∧ final.Guarded := by
  have enabled (world : TombstoneWorld) (step : TombstoneStep) (guarded : world.Guarded)
      (orderly : world.Orderly step) :
      ∃ next, returning TombstoneWorld.step world step = some next ∧ next.Guarded := by
    obtain ⟨next, stepped, kept⟩ := (guarded.step orderly).returns
    exact ⟨next, toOption_eq_some.mpr stepped, kept⟩
  obtain ⟨final, reached, guarded'⟩ := run_defined Guarded enabled guarded orderly
  exact ⟨final, run_returning.mp reached, guarded'⟩

end

end Step

theorem create_guarded {capBytes : Nat} (positive : 0 < capBytes) :
    (create capBytes).Ensures Guarded := by
  have roomy : 0 < max (capBytes / perEntryOverheadBytes) 1 :=
    Nat.lt_of_lt_of_le Nat.zero_lt_one (Nat.le_max_right _ _)
  rw [create, withCap, new, withCaps, if_pos ⟨positive, roomy⟩]
  change Guarded _
  constructor
  · exact ⟨nodup_nil, rfl, ⟨Nat.zero_le _, Nat.zero_le _⟩, roomy⟩
  · exact nodup_nil
  · exact .nil
  · rintro _ ⟨⟩
  · rintro _ ⟨⟩
  · rintro _ ⟨⟩
  · rintro _ _ ⟨⟩

/-- If each insertion is orderly, the tombstones are truthful whenever none is in progress. -/
theorem run_truthful (capBytes : Nat) (positive : 0 < capBytes) (steps : List TombstoneStep)
    (orderly : ∀ start, create capBytes = .ok start → start.OrderlyRun steps) :
    ∃ world, (do (← create capBytes).run steps) = .ok world ∧
      (world.inserting = [] → world.Truthful) := by
  obtain ⟨start, created, guarded⟩ := (create_guarded positive).returns
  obtain ⟨world, ran, guarded'⟩ := guarded.run (orderly start created)
  refine ⟨world, ?_, guarded'.truthful⟩
  rw [created]
  exact ran

def overlappingInserts : List TombstoneStep :=
  [.store 1 (.single 1), .store 2 (.single 2), .record 1, .record 0, .store 3 (.single 3),
    .lookup 2, .record 0]

theorem overlapping_truthful :
    ∃ world, (do (← create 192).run overlappingInserts) = .ok world ∧
      (world.inserting = [] → world.Truthful) := by
  refine run_truthful 192 (by decide) overlappingInserts fun start created => ?_
  cases created
  refine ⟨⟨by decide, .inl rfl⟩, fun _ first => ?_⟩
  cases first
  refine ⟨⟨by decide, .inr ⟨by decide, by decide⟩⟩, fun _ second => ?_⟩
  cases second
  refine ⟨trivial, fun _ recorded => ?_⟩
  cases recorded
  refine ⟨trivial, fun _ recorded => ?_⟩
  cases recorded
  refine ⟨⟨by decide, .inl rfl⟩, fun _ third => ?_⟩
  exact ⟨trivial, fun _ _ => ⟨trivial, fun _ _ => trivial⟩⟩

def exchangedInserts : List TombstoneStep :=
  [.store 1 ⟨[1], by decide⟩, .record 0, .store 2 ⟨[2], by decide⟩, .store 1 ⟨[1], by decide⟩,
    .record 1, .record 0]

def refusedInsert : List TombstoneStep :=
  [.store 1 ⟨[1], by decide⟩, .record 0, .store 2 ⟨[2], by decide⟩, .record 0,
    .store 1 ⟨[1, 1], by decide⟩, .record 0]

/-- Two insertions that evict each other's image leave one stored with a tombstone and one evicted
without, and a refused image loses its tombstone. -/
theorem tombstones_mislead :
    (∃ world, (do (← create 96).run exchangedInserts) = .ok world ∧ world.inserting = [] ∧
      world.dictionary.wasEvicted 1 = true ∧ (peek 1 world.dictionary.images.inner).isSome ∧
      evictedSince 2 world.log = some [] ∧ world.dictionary.wasEvicted 2 = false) ∧
    ∃ world, (do (← create 1).run refusedInsert) = .ok world ∧ world.inserting = [] ∧
      evictedSince 1 world.log = some [] ∧ world.dictionary.wasEvicted 1 = false :=
  ⟨⟨_, rfl, rfl, rfl, rfl, rfl, rfl⟩, _, rfl, rfl, rfl, rfl⟩

end TombstoneWorld

end Ryll
