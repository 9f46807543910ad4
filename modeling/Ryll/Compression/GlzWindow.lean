import Ryll.Compression.GlzDictionary
import Ryll.Compression.LruRuns
import Ryll.Foundation.Runs

/-!
# The GLZ window across display channels

The images of one window are spread over the display channels, each of which decodes, stores and
then evicts for its own.  An eviction goes by the window of the image just stored, so it can remove
what an older image of another channel is yet to reference; `references_kept_iff` says when it does
not.
-/

namespace Ryll

open GlzDictionary Option

/-- The images of a window as the server sends them. -/
structure GlzWindow (χ : Type) where
  /-- The id of the first image of the window. -/
  first : Nat
  /-- The display channel that an image is sent on. -/
  channel : Nat → χ
  /-- The distance from an image to the head of its window. -/
  winHeadDist : Nat → Nat
  /-- The images that an image copies pixels from, segment by segment. -/
  references : Nat → List Nat
  /-- The pixels of an image, given what was found of each reference. -/
  decode : Nat → List (Option Slice) → Slice
  /-- The head of the window never moves back. -/
  advances : ∀ older newer, first ≤ older → older ≤ newer →
    older - winHeadDist older ≤ newer - winHeadDist newer
  /-- An image references images of its window. -/
  inside : ∀ id, first ≤ id → ∀ source ∈ references id, id - winHeadDist id ≤ source ∧ source < id

/-- How far its channel has come with an image. -/
inductive GlzStage
  /-- The first references have been looked up; a missing one is skipped. -/
  | decoding (found : List (Option Slice))
  | stored (pixels : Slice)
  | settled (pixels : Slice)

namespace GlzStage

/-- The references looked up so far. -/
def found : GlzStage → List (Option Slice)
  | decoding found => found
  | stored _ | settled _ => []

/-- What was put into the dictionary. -/
def pixels : GlzStage → Option Slice
  | decoding _ => none
  | stored pixels | settled pixels => some pixels

/-- The channel may go on to its next image. -/
def isSettled : GlzStage → Bool
  | settled _ => true
  | decoding _ | stored _ => false

/-- One more reference has been looked up. -/
def note (result : Option Slice) : GlzStage → GlzStage
  | decoding found => decoding (found ++ [result])
  | stage => stage

theorem pixels_note (result : Option Slice) (stage : GlzStage) :
    (stage.note result).pixels = stage.pixels := by
  cases stage <;> rfl

end GlzStage

/-- The shared dictionary and the images on their way into it. -/
structure GlzWindowWorld where
  /-- The dictionary that the display channels share. -/
  dictionary : GlzDictionary
  /-- How far the channels have come, image by image. -/
  stage : Nat → GlzStage

/-- What the channel of an image does next with it. -/
inductive GlzWindowStep
  /-- The next reference is found in the dictionary. -/
  | fetch (id : Nat)
  /-- The next reference is given up, as it was evicted or not heard of in time. -/
  | skip (id : Nat)
  | store (id : Nat)
  | evict (id : Nat)

namespace GlzDictionary

variable (dictionary : GlzDictionary)

/-- The dictionary after an image was looked up. -/
def look (id : Nat) : GlzDictionary :=
  { dictionary with images := (dictionary.images.get id).2 }

/-- The window eviction that follows an insertion. -/
def evictWindow (imageId winHeadDist : Nat) : GlzDictionary :=
  if winHeadDist > 0 then (dictionary.evictOlderThan (imageId - winHeadDist)).2 else dictionary

variable {dictionary : GlzDictionary}

theorem peek_evictWindow (dictionary : GlzDictionary) (imageId winHeadDist id : Nat) :
    peek id (dictionary.evictWindow imageId winHeadDist).images.inner =
      if 0 < winHeadDist ∧ id < imageId - winHeadDist then none
      else peek id dictionary.images.inner := by
  rw [evictWindow]
  split
  · next windowed =>
    rw [evictOlderThan]
    rw [ByteBoundedLru.peek_retainKeys]
    by_cases old : id < imageId - winHeadDist
    · rw [if_neg (by simp only [decide_eq_true_eq]; omega), if_pos ⟨windowed, old⟩]
    · rw [if_pos (by simp only [decide_eq_true_eq]; omega), if_neg fun both => old both.2]
  · next open_ended => rw [if_neg fun both => open_ended both.1]

theorem insert_fits {ε : Type} (sound : dictionary.images.Sound) {imageId : Nat} {pixels : Slice}
    (fits : dictionary.images.Fits (put imageId pixels dictionary.images.inner)) :
    (dictionary.insert imageId pixels : Outcome ε _).Ensures fun dictionary' =>
      dictionary'.images.Sound ∧
        dictionary'.images.inner = put imageId pixels dictionary.images.inner := by
  refine (sound.insert_fits fits).bind ?_
  rintro ⟨images, outcome, evictedKeys⟩ inserted
  exact inserted

end GlzDictionary

namespace GlzWindow

variable {χ : Type} (window : GlzWindow χ)

/-- The oldest image that an image may reference. -/
def head (id : Nat) : Nat := id - window.winHeadDist id

/-- No image of the window has been decoded yet. -/
def fresh (dictionary : GlzDictionary) : GlzWindowWorld := ⟨dictionary, fun _ => .decoding []⟩

/-- The channel of an image is done with the images before it. -/
def turn (world : GlzWindowWorld) (id : Nat) : Prop :=
  window.first ≤ id ∧ ∀ earlier < id, window.first ≤ earlier →
    window.channel earlier = window.channel id → (world.stage earlier).isSettled = true

instance [DecidableEq χ] (world : GlzWindowWorld) (id : Nat) : Decidable (window.turn world id) :=
  inferInstanceAs (Decidable (_ ∧ _))

/-- The references that an image at this stage is yet to look up. -/
def pending (id : Nat) (stage : GlzStage) : List Nat :=
  if stage.pixels = none then (window.references id).drop stage.found.length else []

/-- One step of a channel with one image, if it is enabled. -/
def step [DecidableEq χ] (world : GlzWindowWorld) : GlzWindowStep → Option GlzWindowWorld
  | .fetch id =>
    if window.turn world id then
      (window.pending id (world.stage id)).head?.bind fun source =>
        (peek source world.dictionary.images.inner).map fun pixels =>
          { dictionary := world.dictionary.look source
            stage := Function.update world.stage id ((world.stage id).note (some pixels)) }
    else
      none
  | .skip id =>
    if window.turn world id ∧ window.pending id (world.stage id) ≠ [] then
      some { world with stage := Function.update world.stage id ((world.stage id).note none) }
    else
      none
  | .store id =>
    if window.turn world id ∧ (world.stage id).pixels = none ∧
        window.pending id (world.stage id) = [] then
      -- Also an image with pixels that were skipped is decoded and stored.
      let pixels := window.decode id (world.stage id).found
      (world.dictionary.insert id pixels : Outcome Empty _).toOption.map fun dictionary =>
        ⟨dictionary, Function.update world.stage id (.stored pixels)⟩
    else
      none
  | .evict id =>
    match world.stage id with
    | .stored pixels =>
      some {
        dictionary := world.dictionary.evictWindow id (window.winHeadDist id)
        stage := Function.update world.stage id (.settled pixels) }
    | _ => none

/-- What an image is yet to look up is in the dictionary once it was stored. -/
def Kept (world : GlzWindowWorld) : Prop :=
  ∀ id, window.first ≤ id → ∀ source ∈ window.pending id (world.stage id),
    ∀ pixels, (world.stage source).pixels = some pixels →
      peek source world.dictionary.images.inner = some pixels

/-- The caps have room for what is stored. -/
def Roomy (world : GlzWindowWorld) : GlzWindowStep → Prop
  | .store id => world.dictionary.images.Fits
      (put id (window.decode id (world.stage id).found) world.dictionary.images.inner)
  | _ => True

instance (world : GlzWindowWorld) : ∀ label, Decidable (window.Roomy world label)
  | .store _ => inferInstanceAs (Decidable (_ ∧ _))
  | .fetch _ | .skip _ | .evict _ => .isTrue trivial

/-- When the window moves on, no older image is yet to look up a stored one before the new head. -/
def Orderly (world : GlzWindowWorld) : GlzWindowStep → Prop
  | .evict id => 0 < window.winHeadDist id → ∀ older < id, window.first ≤ older →
      ∀ source ∈ window.pending older (world.stage older),
        (world.stage source).pixels.isSome = true → window.head id ≤ source
  | _ => True

instance (world : GlzWindowWorld) : ∀ label, Decidable (window.Orderly world label)
  | .evict id => inferInstanceAs (Decidable (0 < window.winHeadDist id → ∀ older < id,
      window.first ≤ older → ∀ source ∈ window.pending older (world.stage older),
        (world.stage source).pixels.isSome = true → window.head id ≤ source))
  | .fetch _ | .skip _ | .store _ => .isTrue trivial

/-- What every orderly run keeps. -/
structure Guarded (world : GlzWindowWorld) : Prop where
  sound : world.dictionary.images.Sound
  started : ∀ id, (world.stage id).pixels ≠ none → window.first ≤ id
  kept : window.Kept world

section Steps

variable {window} {world : GlzWindowWorld}
  {id : Nat} {world' : GlzWindowWorld} {label : GlzWindowStep}

theorem pending_note (result : Option Slice) (stage : GlzStage) :
    ∀ source ∈ window.pending id (stage.note result), source ∈ window.pending id stage := by
  intro source listed
  cases stage with
  | decoding found =>
    simp only [pending, GlzStage.note, GlzStage.pixels, GlzStage.found, if_pos,
      List.length_append, List.length_singleton, ← List.drop_drop] at listed ⊢
    exact List.mem_of_mem_drop listed
  | stored pixels | settled pixels => exact listed

theorem pending_of_pixels {stage : GlzStage} {pixels : Slice} (held : stage.pixels = some pixels) :
    window.pending id stage = [] := by
  rw [pending, held, if_neg nofun]

theorem mem_pending {stage : GlzStage} {source : Nat} (listed : source ∈ window.pending id stage) :
    source ∈ window.references id := by
  rw [pending] at listed
  split at listed
  · exact List.mem_of_mem_drop listed
  · cases listed

theorem Guarded.update (guarded : window.Guarded world) {dictionary : GlzDictionary}
    {stage : GlzStage} (sound : dictionary.images.Sound) (listed : window.first ≤ id)
    (fewer : ∀ source ∈ window.pending id stage, source ∈ window.pending id (world.stage id))
    (stored : ∀ pixels, stage.pixels = some pixels →
      peek id dictionary.images.inner = some pixels ∨ (world.stage id).pixels = some pixels)
    (holds : ∀ older, window.first ≤ older → ∀ source ∈ window.pending older (world.stage older),
      (world.stage source).pixels.isSome = true →
        peek source dictionary.images.inner = peek source world.dictionary.images.inner) :
    window.Guarded ⟨dictionary, Function.update world.stage id stage⟩ := by
  refine ⟨sound, ?_, ?_⟩
  · intro other held
    dsimp only at held
    by_cases same : other = id
    · rw [same]
      exact listed
    · rw [Function.update_of_ne same] at held
      exact guarded.started other held
  · intro older older_listed source referenced pixels held
    dsimp only at referenced held
    have pending : source ∈ window.pending older (world.stage older) := by
      by_cases same : older = id
      · subst same
        rw [Function.update_self] at referenced
        exact fewer source referenced
      · rwa [Function.update_of_ne same] at referenced
    have before (held : (world.stage source).pixels = some pixels) :
        peek source dictionary.images.inner = some pixels :=
      (holds older older_listed source pending (by rw [held]; rfl)).trans
        (guarded.kept older older_listed source pending pixels held)
    by_cases same : source = id
    · subst same
      rw [Function.update_self] at held
      exact (stored pixels held).elim (fun now => now) before
    · rw [Function.update_of_ne same] at held
      exact before held

variable [DecidableEq χ]

section

variable (guarded : window.Guarded world)
include guarded

theorem Guarded.fetch (stepped : window.step world (.fetch id) = some world') :
    window.Guarded world' := by
  obtain ⟨enabled, stepped⟩ := ite_none_right_eq_some.mp stepped
  obtain ⟨source, -, stepped⟩ := bind_eq_some_iff.mp stepped
  obtain ⟨pixels, -, rfl⟩ := map_eq_some_iff.mp stepped
  refine guarded.update (guarded.sound.get source).sound enabled.1 (pending_note _ _) ?_ ?_
  · intro pixels held
    exact .inr ((GlzStage.pixels_note _ _).symm.trans held)
  · exact fun _ _ other _ _ => ByteBoundedLru.peek_get _ source other

theorem Guarded.skip (stepped : window.step world (.skip id) = some world') :
    window.Guarded world' := by
  obtain ⟨enabled, ⟨⟩⟩ := ite_none_right_eq_some.mp stepped
  refine guarded.update guarded.sound enabled.1.1 (pending_note _ _) ?_ ?_
  · intro pixels held
    exact .inr ((GlzStage.pixels_note _ _).symm.trans held)
  · exact fun _ _ _ _ _ => rfl

theorem Guarded.store (roomy : window.Roomy world (.store id))
    (stepped : window.step world (.store id) = some world') : window.Guarded world' := by
  obtain ⟨enabled, stepped⟩ := ite_none_right_eq_some.mp stepped
  obtain ⟨dictionary, inserted, rfl⟩ := map_eq_some_iff.mp stepped
  obtain ⟨sound, inner⟩ := (insert_fits guarded.sound roomy).of_eq_ok
    (toOption_eq_some.mp inserted)
  refine guarded.update sound enabled.1.1 ?_ ?_ ?_
  · intro source listed
    rw [pending_of_pixels rfl] at listed
    cases listed
  · intro pixels held
    left
    rw [inner, peek_put, if_pos rfl]
    exact held
  · intro older _ source _ stored
    have other : source ≠ id := by
      rintro rfl
      rw [enabled.2.1] at stored
      cases stored
    rw [inner, peek_put, if_neg other]

theorem Guarded.evict (orderly : window.Orderly world (.evict id))
    (stepped : window.step world (.evict id) = some world') : window.Guarded world' := by
  rw [step] at stepped
  split at stepped
  · next pixels enabled =>
    cases stepped
    have held : (world.stage id).pixels = some pixels := by rw [enabled]; rfl
    have listed : window.first ≤ id := guarded.started id (by rw [held]; nofun)
    refine guarded.update ?_ listed ?_ ?_ ?_
    · rw [evictWindow]
      split
      · exact (guarded.sound.retainKeys fun other =>
          decide (other ≥ id - window.winHeadDist id)).sound
      · exact guarded.sound
    · intro source pending
      rw [pending_of_pixels rfl] at pending
      cases pending
    · exact fun _ same => .inr (held.trans same)
    · intro waiter waiter_listed source pending stored
      rw [peek_evictWindow, if_neg]
      rintro ⟨windowed, gone⟩
      have other : waiter ≠ id := by
        rintro rfl
        rw [pending_of_pixels held] at pending
        cases pending
      have bounds := window.inside waiter waiter_listed source (mem_pending pending)
      -- A newer image has its references in a window that has moved at least as far.
      rcases Nat.lt_or_gt_of_ne other with older | newer
      · have spared := orderly windowed waiter older waiter_listed source pending stored
        exact absurd gone (Nat.not_lt.mpr spared)
      · have moved := window.advances id waiter listed (Nat.le_of_lt newer)
        omega
  · cases stepped

theorem Guarded.step (allowed : window.Roomy world label ∧ window.Orderly world label)
    (stepped : window.step world label = some world') : window.Guarded world' := by
  cases label with
  | fetch id => exact guarded.fetch stepped
  | skip id => exact guarded.skip stepped
  | store id => exact guarded.store allowed.1 stepped
  | evict id => exact guarded.evict allowed.2 stepped

end

theorem Kept.orderly (stepped : window.step world label = some world') (kept : window.Kept world') :
    window.Orderly world label := by
  cases label with
  | fetch id => trivial
  | skip id => trivial
  | store id => trivial
  | evict id =>
    intro windowed older before listed source pending stored
    rw [GlzWindow.step] at stepped
    split at stepped
    · cases stepped
      by_contra gone
      obtain ⟨pixels, held⟩ := isSome_iff_exists.mp stored
      have source_before : source ≠ id := by
        have bounds := window.inside older listed source (mem_pending pending)
        omega
      have still := kept older listed source
        (by dsimp only; rwa [Function.update_of_ne (Nat.ne_of_lt before)]) pixels
        (by dsimp only; rwa [Function.update_of_ne source_before])
      rw [peek_evictWindow, if_pos ⟨windowed, Nat.not_le.mp gone⟩] at still
      cases still
    · cases stepped

end Steps

theorem fresh_guarded {capBytes : Nat} {dictionary : GlzDictionary}
    (created : (withCap capBytes : Outcome Empty _) = .ok dictionary) :
    window.Guarded (fresh dictionary) := by
  obtain ⟨images, empty, rest⟩ := bind_eq_ok.mp created
  cases rest
  refine ⟨ByteBoundedLru.new_sound empty, fun id held => absurd rfl held, ?_⟩
  intro id _ source _ pixels held
  cases held

/-- However the images are spread over channels, every image finds what it is yet to look up, once
that was stored, if and only if every eviction is orderly. -/
theorem references_kept_iff [DecidableEq χ] {capBytes : Nat} {dictionary : GlzDictionary}
    {labels : List GlzWindowStep} {final : GlzWindowWorld}
    (created : (withCap capBytes : Outcome Empty _) = .ok dictionary)
    (reached : run window.step (fresh dictionary) labels = some final)
    (roomy : Meets window.step window.Roomy (fresh dictionary) labels) :
    Along window.step window.Kept (fresh dictionary) labels ↔
      Meets window.step window.Orderly (fresh dictionary) labels := by
  constructor
  · intro kept
    exact kept.meets (fun _ _ _ _ stepped next => next.orderly stepped) reached
  · intro orderly
    apply Along.of_invariant window.Guarded (fun _ guarded => guarded.kept)
      (fun _ _ _ guarded allowed stepped => guarded.step allowed stepped)
      (window.fresh_guarded created) (roomy.and orderly)

/-- One pixel images on two channels, the second of which is a copy of the first. -/
def twoMonitors : GlzWindow Bool where
  first := 1
  channel id := id = 2
  winHeadDist id := if id ≤ 1 then 0 else 1
  references id := if id = 2 then [1] else []
  decode id found :=
    if id = 2 then (found.headD none).getD ⟨[0, 0, 0, 0], by decide⟩
    else ⟨[8, 8, 8, 255], by decide⟩
  advances older newer _ ordered := by
    split <;> split <;> omega
  inside id _ source referenced := by
    split at referenced
    · next second =>
      obtain rfl := List.mem_singleton.mp referenced
      subst second
      decide
    · cases referenced

def smallDictionary : GlzDictionary := ⟨⟨[], 0, 1024, 10, 0, 0⟩, []⟩

/-- The second image is late, but copies from the first before the window has moved on. -/
def promptRun : List GlzWindowStep :=
  [.store 1, .evict 1, .store 3, .fetch 2, .evict 3, .store 2, .evict 2]

theorem promptRun_kept : (run twoMonitors.step (fresh smallDictionary) promptRun).isSome ∧
      Along twoMonitors.step twoMonitors.Kept (fresh smallDictionary) promptRun := by
  have created : (withCap 1024 : Outcome Empty _) = .ok smallDictionary := rfl
  have ran : (run twoMonitors.step (fresh smallDictionary) promptRun).isSome := by decide +kernel
  obtain ⟨final, reached⟩ := isSome_iff_exists.mp ran
  exact ⟨ran, (references_kept_iff twoMonitors created reached (by decide +kernel)).mpr
    (by decide +kernel)⟩

def laggingRun : List GlzWindowStep := [.store 1, .evict 1, .store 3, .evict 3]

/-- The first image is gone before the second has copied from it, which then lacks its pixel. -/
theorem lagging_reference_lost : (run twoMonitors.step (fresh smallDictionary) laggingRun).isSome ∧
      Meets twoMonitors.step twoMonitors.Roomy (fresh smallDictionary) laggingRun ∧
      ¬ Along twoMonitors.step twoMonitors.Kept (fresh smallDictionary) laggingRun ∧
      (run twoMonitors.step (fresh smallDictionary) (laggingRun ++ [.fetch 2])) = none ∧
      (run twoMonitors.step (fresh smallDictionary) (laggingRun ++ [.skip 2, .store 2])).any
        fun world => (world.stage 2).pixels.any fun pixels => pixels.bytes = [0, 0, 0, 0] := by
  have ran : (run twoMonitors.step (fresh smallDictionary) laggingRun).isSome := by decide +kernel
  refine ⟨ran, by decide +kernel, fun kept => ?_, by decide +kernel, by decide +kernel⟩
  obtain ⟨final, reached⟩ := isSome_iff_exists.mp ran
  have lost : (run twoMonitors.step (fresh smallDictionary) laggingRun).all fun world =>
      1 ∈ twoMonitors.pending 2 (world.stage 2) ∧ (world.stage 1).pixels.isSome = true ∧
        peek 1 world.dictionary.images.inner = none := by decide +kernel
  rw [reached, all_some, decide_eq_true_eq] at lost
  obtain ⟨pixels, stored⟩ := isSome_iff_exists.mp lost.2.1
  have held := kept.last reached 2 (by decide) 1 lost.1 pixels stored
  rw [lost.2.2] at held
  cases held

end GlzWindow

end Ryll
