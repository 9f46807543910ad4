import Ryll.Compression.ByteBoundedLru
import Ryll.Compression.Glz

/-!
# The GLZ dictionary

Decoded images by id, in a byte-bounded cache, with tombstones for the ids that the caps have
evicted.  The display channel stores each image it decodes and then drops the images that have
left the sliding window.
-/

namespace Ryll

variable {ε : Type}

def evictedIdTombstones : Nat := 4096

/-- The images of a window, and the ids that were evicted. -/
structure GlzDictionary where
  images : ByteBoundedLru
  evictedIds : List (Nat × Unit)

def freshDictionary : GlzDictionary :=
  ⟨⟨[], 0, 256 * 1024 * 1024, 256 * 1024 * 1024 / 96, 0, 0⟩, []⟩

namespace GlzDictionary

def withCap (capBytes : Nat) : Outcome ε GlzDictionary := do
  let images ← ByteBoundedLru.new capBytes
  return { images, evictedIds := [] }

def tombstone (evictedIds : List (Nat × Unit)) (evictedKeys : List Nat) (imageId : Nat) :
    List (Nat × Unit) :=
  pop imageId
    (evictedKeys.foldl (fun ids id => putBounded evictedIdTombstones id () ids) evictedIds)

variable (dictionary : GlzDictionary)

variable (imageId : Nat)

def insert (pixels : Slice) : Outcome ε GlzDictionary := do
  let (images, _, evictedKeys) ← dictionary.images.insertRecordingEvicted imageId pixels
  return { images, evictedIds := tombstone dictionary.evictedIds evictedKeys imageId }

def wasEvicted : Bool :=
  (peek imageId dictionary.evictedIds).isSome

def remove (dictionary : GlzDictionary) (imageId : Nat) : Bool × GlzDictionary :=
  let (present, images) := dictionary.images.remove imageId
  (present, { dictionary with images })

def evictOlderThan (oldestValid : Nat) : Nat × GlzDictionary :=
  let (removed, images) := dictionary.images.retainKeys fun id => decide (id ≥ oldestValid)
  (removed, { dictionary with images })

def clear (dictionary : GlzDictionary) : GlzDictionary :=
  { dictionary with images := dictionary.images.clear }

/-- The answer to a reference while no other channel inserts an image. -/
def lookup : GlzLookup where
  get := (dictionary.images.get imageId).1
  wasEvicted := dictionary.wasEvicted imageId
  awaited := none

def store (image : DecompressedImage) : Outcome ε GlzDictionary := do
  let dictionary ← dictionary.insert image.imageId image.vec
  if image.winHeadDist > 0 then
    return (dictionary.evictOlderThan (image.imageId - image.winHeadDist)).2
  else
    return dictionary

theorem get_eq_peek (lru : ByteBoundedLru) (key : Nat) : (lru.get key).1 = peek key lru.inner := by
  rw [ByteBoundedLru.get]
  cases found : peek key lru.inner <;> rfl

theorem resolve_lookup :
    (dictionary.lookup imageId).resolve = peek imageId dictionary.images.inner := by
  rw [GlzLookup.resolve, lookup]
  simp only [get_eq_peek]
  cases peek imageId dictionary.images.inner <;> simp

/-- The cap evicts nothing when the image is stored. -/
def Keeps (image : DecompressedImage) : Prop :=
  ∃ images, (dictionary.images.insertRecordingEvicted image.imageId image.vec :
    Outcome StreamError _) = .ok (images, .inserted, [])

theorem store_of_keeps {dictionary : GlzDictionary} {image : DecompressedImage}
    (keeps : dictionary.Keeps image) :
    ∃ stored, (dictionary.store image : Outcome StreamError GlzDictionary) = .ok stored ∧
      ∀ id, peek id stored.images.inner =
        if image.winHeadDist = 0 ∨ image.imageId - image.winHeadDist ≤ id then
          if id = image.imageId then some image.vec else peek id dictionary.images.inner
        else none := by
  obtain ⟨images, inserted⟩ := keeps
  have inner : images.inner = put image.imageId image.vec dictionary.images.inner := by
    rcases ByteBoundedLru.insert_of_returned inserted with ⟨-, refused⟩ | ⟨-, stored⟩
    · cases refused
    · exact (stored rfl).1
  rw [store, insert, inserted]
  simp only [ok_bind, pure_eq]
  by_cases windowed : image.winHeadDist > 0
  · rw [if_pos windowed]
    refine ⟨_, rfl, fun id => ?_⟩
    rw [evictOlderThan]
    rw [ByteBoundedLru.peek_retainKeys, inner, peek_put]
    simp [Nat.ne_of_gt windowed]
  · rw [if_neg windowed]
    refine ⟨_, rfl, fun id => ?_⟩
    rw [if_pos (.inl (by omega)), ← peek_put, ← inner]

end GlzDictionary

end Ryll
