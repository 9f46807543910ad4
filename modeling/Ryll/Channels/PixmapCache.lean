import Ryll.Compression.GlzDictionary
import Ryll.Compression.LruRuns
import Ryll.Foundation.Runs
import Ryll.Protocol.Image

/-!
# The images a display channel keeps

The pixmap cache holds the images that the server asks to be cached, by the id of their descriptor,
for later draws to name.  The GLZ dictionary holds every GLZ image by the id in its own header.
-/

namespace Ryll

open Outcome DecompressedImage ByteBoundedLru

def imageFlagsCacheMe : UInt8 := (1 : UInt8) <<< (0 : UInt8)

def imageFlagsCacheReplaceMe : UInt8 := (1 : UInt8) <<< (2 : UInt8)

/-- A draw of an image. -/
structure ImageDraw where
  descriptor : ImageDescriptor
  /-- What the decoder for its type makes of the data that follows the descriptor. -/
  decoded : Option DecompressedImage

namespace ImageDraw

variable (draw : ImageDraw)

def imageType : Option ImageType :=
  ImageType.fromU8 draw.descriptor.imageType

def isGlz : Bool :=
  draw.imageType matches some .glzRgb | some .zlibGlzRgb

def isFromCache : Bool :=
  draw.imageType matches some .fromCache | some .fromCacheLossless

def cacheRequested : Bool :=
  draw.descriptor.flags &&& (imageFlagsCacheMe ||| imageFlagsCacheReplaceMe) != 0

def imageId : Nat := draw.descriptor.imageId.toNat

end ImageDraw

/-- The stores of a display channel.  The dictionary is shared with the other channels. -/
structure ImageStores where
  imageCache : ByteBoundedLru
  glzDictionary : GlzDictionary

/-- A message about images. -/
inductive ImageMessage
  | draw (draw : ImageDraw)
  | invalidateList (payload : Bytes)
  | invalAllPixmaps
  | reset
  | elsewhere (dictionary : GlzDictionary) (sound : dictionary.images.Sound)

/-- The ids listed in an invalidation, each behind a type byte, as far as they are there in full. -/
def invalidatedIds (payload : Bytes) : List Nat :=
  if payload.length ≥ 2 then
    let count := littleEndian (payload.take 2)
    ((List.range count).map fun index => 2 + index * 9 + 1).takeWhile
      (fun offset => offset + 8 ≤ payload.length)
      |>.map fun offset => littleEndian ((payload.drop offset).take 8)
  else
    []

namespace ImageStores

def create (imageCacheCapBytes glzDictionaryCapBytes : Nat) : Outcome Empty ImageStores := do
  return ⟨← new imageCacheCapBytes, ← GlzDictionary.withCap glzDictionaryCapBytes⟩

variable (stores : ImageStores)

/-- Look an image up by its id; the cache holds no dimensions, so those asked for have to fit. -/
def fromCache (descriptor : ImageDescriptor) : Option DecompressedImage × ImageStores :=
  let (cached, imageCache) := stores.imageCache.get descriptor.imageId.toNat
  let image := cached.bind fun pixels =>
    if rgbaLen descriptor.width.toNat descriptor.height.toNat = some pixels.length then
      new descriptor.width.toNat descriptor.height.toNat pixels.bytes
        descriptor.imageId.toNat
    else
      none
  (image, { stores with imageCache })

variable (draw : ImageDraw)

def decode : Option DecompressedImage × ImageStores :=
  match draw.imageType with
  | some .fromCache | some .fromCacheLossless => stores.fromCache draw.descriptor
  | some .lzPalette | some .surface | some .jpegAlpha | none => (none, stores)
  | some .pixmap | some .glzRgb | some .lzRgb | some .zlibGlzRgb | some .lz4 | some .jpeg
  | some .quic => (draw.decoded, stores)

def keep (image : DecompressedImage) :
    Outcome Empty ImageStores := do
  if draw.isGlz then
    return { stores with glzDictionary := ← stores.glzDictionary.store image }
  else if draw.cacheRequested then
    let (imageCache, _, _) ← stores.imageCache.insertRecordingEvicted draw.imageId image.vec
    return { stores with imageCache }
  else
    return stores

def drawImage :
    Outcome Empty (ImageStores × Option DecompressedImage) := do
  let (decompressed, stores) := stores.decode draw
  match decompressed with
  | none => return (stores, none)
  | some image => return (← stores.keep draw image, some image)

def invalidate (id : Nat) : ImageStores where
  imageCache := (stores.imageCache.remove id).2
  glzDictionary := (stores.glzDictionary.remove id).2

def clear : ImageStores where
  imageCache := stores.imageCache.clear
  glzDictionary := stores.glzDictionary.clear

/-- What a message does to the stores. -/
def handle : ImageMessage → Outcome Empty ImageStores
  | .draw draw => do return (← stores.drawImage draw).1
  | .invalidateList payload => return (invalidatedIds payload).foldl invalidate stores
  | .invalAllPixmaps | .reset => return stores.clear
  | .elsewhere dictionary _ => return { stores with glzDictionary := dictionary }

def step (message : ImageMessage) : Option ImageStores :=
  (stores.handle message).toOption

/-- The cache can take an image without evicting one. -/
def HasRoom (draw : ImageDraw) (image : DecompressedImage) : Prop :=
  stores.imageCache.Fits (put draw.imageId image.vec stores.imageCache.inner)

/-- The caps do not force an image out of the cache. -/
def Roomy : ImageMessage → Prop
  | .draw draw => ∀ image ∈ (stores.decode draw).1, draw.isGlz = false →
      draw.cacheRequested = true → (stores.decode draw).2.HasRoom draw image
  | _ => True

instance (stores : ImageStores) (draw : ImageDraw) (image : DecompressedImage) :
    Decidable (stores.HasRoom draw image) :=
  inferInstanceAs (Decidable (_ ∧ _))

instance (stores : ImageStores) : ∀ message, Decidable (stores.Roomy message)
  | .draw draw => inferInstanceAs (Decidable (∀ image ∈ (stores.decode draw).1,
      draw.isGlz = false → draw.cacheRequested = true → (stores.decode draw).2.HasRoom draw image))
  | .invalidateList _ | .invalAllPixmaps | .reset | .elsewhere _ _ => .isTrue trivial

/-- The image cached under an id is neither invalidated nor cleared nor cached again. -/
def Spares (id : Nat) (stores : ImageStores) : ImageMessage → Prop
  | .draw draw =>
    draw.imageId = id → draw.cacheRequested = true → (stores.decode draw).1 = none
  | .invalidateList payload => id ∉ invalidatedIds payload
  | .invalAllPixmaps => False
  | .reset => False
  | .elsewhere _ _ => True

instance (id : Nat) (stores : ImageStores) : ∀ message, Decidable (stores.Spares id message)
  | .draw draw => inferInstanceAs (Decidable (draw.imageId = id → draw.cacheRequested = true →
      (stores.decode draw).1 = none))
  | .invalidateList payload => inferInstanceAs (Decidable (id ∉ invalidatedIds payload))
  | .invalAllPixmaps | .reset => .isFalse not_false
  | .elsewhere _ _ => .isTrue trivial

/-! ## The stores throughout -/

/-- Both stores are within their caps. -/
structure Sound (stores : ImageStores) : Prop where
  imageCache : stores.imageCache.Sound
  glzDictionary : stores.glzDictionary.images.Sound

theorem fromCache_eq (stores : ImageStores) (descriptor : ImageDescriptor) :
    (stores.fromCache descriptor).2 = { stores with
      imageCache := (stores.imageCache.get descriptor.imageId.toNat).2 } := rfl

theorem decode_cases (stores : ImageStores) (draw : ImageDraw) :
    (stores.decode draw).2 = stores ∨ (stores.decode draw).2 = { stores with
        imageCache := (stores.imageCache.get draw.imageId).2 } := by
  rw [decode]
  split
  · exact .inr (stores.fromCache_eq draw.descriptor)
  · exact .inr (stores.fromCache_eq draw.descriptor)
  all_goals exact .inl rfl

variable {stores : ImageStores} {message : ImageMessage}

theorem Sound.decode (sound : stores.Sound) (draw : ImageDraw) : (stores.decode draw).2.Sound := by
  rcases stores.decode_cases draw with same | looked
  · rw [same]
    exact sound
  · rw [looked]
    exact ⟨(sound.imageCache.get draw.imageId).sound, sound.glzDictionary⟩

theorem peek_decode (stores : ImageStores) (draw : ImageDraw) (id : Nat) :
    peek id (stores.decode draw).2.imageCache.inner = peek id stores.imageCache.inner := by
  rcases stores.decode_cases draw with same | looked
  · rw [same]
  · rw [looked]
    exact peek_get stores.imageCache draw.imageId id

theorem store_sound {dictionary : GlzDictionary} (sound : dictionary.images.Sound)
    (image : DecompressedImage) :
    (dictionary.store image : Outcome Empty _).Ensures fun dictionary' =>
      dictionary'.images.Sound := by
  rw [GlzDictionary.store, GlzDictionary.insert, bind_assoc]
  refine (sound.insert image.imageId image.vec).bind ?_
  rintro ⟨images, outcome, evictedKeys⟩ inserted
  dsimp only
  split
  · have images_sound : images.Sound := inserted
    have retained := images_sound.retainKeys fun id =>
      decide (id ≥ image.imageId - image.winHeadDist)
    exact retained.sound
  · exact inserted

section

variable (sound : stores.Sound)
include sound

theorem Sound.keep (draw : ImageDraw) (image : DecompressedImage) :
    (stores.keep draw image).Ensures Sound := by
  rw [ImageStores.keep]
  split
  · refine (store_sound sound.glzDictionary image).bind fun dictionary stored => ?_
    exact ⟨sound.imageCache, stored⟩
  · split
    · refine (sound.imageCache.insert draw.imageId image.vec).bind ?_
      rintro ⟨imageCache, outcome, evictedKeys⟩ inserted
      exact ⟨inserted, sound.glzDictionary⟩
    · exact sound

theorem peek_keep {draw : ImageDraw} {image : DecompressedImage}
    (room : draw.isGlz = false → draw.cacheRequested = true → stores.HasRoom draw image)
    (id : Nat) :
    (stores.keep draw image).Ensures fun stores' => peek id stores'.imageCache.inner =
      if draw.isGlz = false ∧ draw.cacheRequested = true ∧ id = draw.imageId then some image.vec
      else peek id stores.imageCache.inner := by
  rw [keep]
  split
  · next glz =>
    refine (store_sound sound.glzDictionary image).bind fun dictionary _ => ?_
    simp [glz]
  next other =>
  have other : draw.isGlz = false := Bool.eq_false_iff.mpr other
  split
  · next requested =>
    refine (sound.imageCache.insert_fits (room other requested)).bind ?_
    rintro ⟨imageCache, outcome, evictedKeys⟩ ⟨-, stored⟩
    dsimp only at stored
    simp [stored, peek_put, other, requested]
  · next unasked => simp [unasked]

theorem Sound.drawImage (draw : ImageDraw) : (stores.drawImage draw).Ensures fun result =>
      result.1.Sound ∧ result.2 = (stores.decode draw).1 := by
  rw [ImageStores.drawImage]
  dsimp only
  split
  · next failed => exact ⟨sound.decode draw, failed.symm⟩
  · next image decoded =>
    refine ((sound.decode draw).keep draw image).bind fun stores' kept => ?_
    exact ⟨kept, decoded.symm⟩

theorem Sound.clear : stores.clear.Sound :=
  ⟨sound.imageCache.clear.sound, sound.glzDictionary.clear.sound⟩

theorem Sound.handle (message : ImageMessage) : (stores.handle message).Ensures Sound := by
  cases message with
  | draw draw => exact (sound.drawImage draw).bind fun result drawn => drawn.1
  | invalidateList payload =>
    rw [ImageStores.handle, pure_eq, ensures_ok]
    induction invalidatedIds payload generalizing stores with
    | nil => exact sound
    | cons id ids ih => exact ih (⟨(sound.imageCache.remove id).sound, (sound.glzDictionary.remove
      id).sound⟩)
  | invalAllPixmaps | reset => exact sound.clear
  | elsewhere dictionary shared => exact ⟨sound.imageCache, shared⟩

end

/-! ## From the draw that caches an image to the draw that names it -/

theorem peek_draw (sound : stores.Sound) {draw : ImageDraw} (room : stores.Roomy (.draw draw))
    (id : Nat) :
    (stores.handle (.draw draw)).Ensures fun stores' => peek id stores'.imageCache.inner =
      if draw.isGlz = false ∧ draw.cacheRequested = true ∧ id = draw.imageId ∧
          (stores.decode draw).1.isSome then
        (stores.decode draw).1.map vec
      else
        peek id stores.imageCache.inner := by
  rw [handle, drawImage]
  dsimp only
  split
  · next failed =>
    rw [pure_eq, ok_bind, pure_eq, ensures_ok, failed]
    simp [peek_decode]
  · next image decoded =>
    rw [bind_assoc]
    refine (peek_keep (sound.decode draw) (room image decoded) id).bind fun stores' kept => ?_
    rw [pure_eq, ok_bind, pure_eq, ensures_ok, kept, peek_decode, decoded]
    simp

theorem peek_foldl_invalidate {ids : List Nat} {id : Nat} (spared : id ∉ ids)
    (stores : ImageStores) :
    peek id (ids.foldl invalidate stores).imageCache.inner = peek id stores.imageCache.inner := by
  induction ids generalizing stores with
  | nil => rfl
  | cons first ids ih =>
    rw [List.mem_cons, not_or] at spared
    rw [List.foldl_cons, ih spared.2]
    exact (peek_remove _ first id).trans (if_neg spared.1)

theorem peek_handle (sound : stores.Sound) {id : Nat} (room : stores.Roomy message)
    (spares : stores.Spares id message) : (stores.handle message).Ensures fun stores' =>
      peek id stores'.imageCache.inner = peek id stores.imageCache.inner := by
  cases message with
  | draw draw =>
    refine (peek_draw sound room id).mono fun stores' drawn => ?_
    rw [drawn, if_neg]
    rintro ⟨-, requested, rfl, decoded⟩
    rw [spares rfl requested] at decoded
    cases decoded
  | invalidateList payload =>
    exact peek_foldl_invalidate spares stores
  | invalAllPixmaps | reset => cases spares
  | elsewhere dictionary shared => exact rfl

theorem create_sound {imageCacheCapBytes glzDictionaryCapBytes : Nat}
    (created : create imageCacheCapBytes glzDictionaryCapBytes = .ok stores) : stores.Sound := by
  obtain ⟨imageCache, fresh, rest⟩ := bind_eq_ok.mp created
  obtain ⟨dictionary, shared, rest⟩ := bind_eq_ok.mp rest
  obtain ⟨images, fresh', rest'⟩ := bind_eq_ok.mp shared
  cases rest
  cases rest'
  exact ⟨new_sound fresh, new_sound fresh'⟩

theorem step_sound {stores' : ImageStores} (sound : stores.Sound)
    (stepped : stores.step message = some stores') : stores'.Sound :=
  (sound.handle message).of_eq_ok (toOption_eq_some.mp stepped)

theorem Sound.step (sound : stores.Sound) (message : ImageMessage) :
    ∃ stores', stores.step message = some stores' ∧ stores'.Sound := by
  obtain ⟨stores', handled, sound'⟩ := (sound.handle message).returns
  exact ⟨stores', toOption_eq_some.mpr handled, sound'⟩

variable {messages : List ImageMessage}

theorem peek_run (sound : stores.Sound) {id : Nat}
    (kept : Meets step (fun stores message => stores.Roomy message ∧ stores.Spares id message)
      stores messages) : ∃ final, run step stores messages = some final ∧ final.Sound ∧
      peek id final.imageCache.inner = peek id stores.imageCache.inner := by
  refine run_defined
    (fun final => final.Sound ∧ peek id final.imageCache.inner = peek id stores.imageCache.inner)
    ?_ ⟨sound, rfl⟩ kept
  rintro state message ⟨state_sound, same⟩ ⟨room, spares⟩
  obtain ⟨state', stepped, state'_sound⟩ := state_sound.step message
  have handled := (peek_handle state_sound room spares).of_eq_ok
    (toOption_eq_some.mp stepped)
  exact ⟨state', stepped, state'_sound, handled.trans same⟩

theorem decode_fromCache (stores : ImageStores) {lookup : ImageDraw}
    (named : lookup.isFromCache = true) :
    (stores.decode lookup).1 = (peek lookup.imageId stores.imageCache.inner).bind fun pixels =>
      if rgbaLen lookup.descriptor.width.toNat lookup.descriptor.height.toNat =
          some pixels.length then
        new lookup.descriptor.width.toNat lookup.descriptor.height.toNat
          pixels.bytes lookup.imageId
      else
        none := by
  have looked : stores.decode lookup = stores.fromCache lookup.descriptor := by
    rw [ImageDraw.isFromCache] at named
    rw [decode]
    split at named
    · next type => rw [type]
    · next type => rw [type]
    · cases named
  rw [looked, fromCache]
  dsimp only
  rw [GlzDictionary.get_eq_peek]
  rfl

/-- An image that was decoded and cached, and whose id no message has concerned since, is what a
later draw draws.  GLZ images are not cached. -/
theorem cached_image_drawn {imageCacheCapBytes glzDictionaryCapBytes : Nat}
    {fresh before : ImageStores} {earlier later : List ImageMessage} {draw lookup : ImageDraw}
    {image : DecompressedImage}
    (created : create imageCacheCapBytes glzDictionaryCapBytes = .ok fresh)
    (reached : run step fresh earlier = some before)
    (decoded : (before.decode draw).1 = some image) (requested : draw.cacheRequested = true)
    (room : before.Roomy (.draw draw))
    (kept : ∀ cached, before.step (.draw draw) = some cached →
      Meets step (fun stores message => stores.Roomy message ∧ stores.Spares draw.imageId message)
        cached later)
    (named : lookup.isFromCache = true) (same : lookup.imageId = draw.imageId)
    (width : lookup.descriptor.width.toNat = image.width)
    (height : lookup.descriptor.height.toNat = image.height) :
    ∃ final after, run step before (.draw draw :: later) = some final ∧
      final.drawImage lookup = .ok (after, if draw.isGlz then (before.decode lookup).1
        else some { image with imageId := draw.imageId, winHeadDist := 0 }) := by
  have before_sound : before.Sound :=
    run_keeps (fun _ _ _ sound stepped => step_sound sound stepped) (create_sound created) reached
  obtain ⟨cached, stepped, cached_sound⟩ := before_sound.step (.draw draw)
  obtain ⟨final, ran, final_sound, spared⟩ := peek_run cached_sound (kept cached stepped)
  obtain ⟨⟨after, drawn⟩, returned, -, drawn_eq⟩ := (final_sound.drawImage lookup).returns
  have stored := (peek_draw before_sound room draw.imageId).of_eq_ok
    (toOption_eq_some.mp stepped)
  have held := spared.trans stored
  refine ⟨final, after, run_cons.mpr ⟨cached, stepped, ran⟩, ?_⟩
  rw [returned, show drawn = _ from drawn_eq]
  cases glz : draw.isGlz with
  | true =>
    rw [if_neg (by simp [glz])] at held
    rw [decode_fromCache final named, decode_fromCache before named, same, held]
    rfl
  | false =>
    rw [if_pos ⟨glz, requested, rfl, by rw [decoded]; rfl⟩, decoded, Option.map_some] at held
    have sized : rgbaLen image.width image.height = some image.vec.length := image.sized
    rw [decode_fromCache final named, same, held, Option.bind_some, width, height, if_pos sized]
    exact congrArg _ (congrArg _ (newGlz_of_sized image.sized _ _))

def redPixel (imageId : Nat) : DecompressedImage := ⟨1, 1, [255, 0, 0, 255], imageId, 0, rfl⟩

def redDraw (imageType : UInt8) : ImageDraw where
  descriptor := ⟨7, imageType, imageFlagsCacheMe, 1, 1⟩
  decoded := some (redPixel 3)

def redLookup : ImageDraw := ⟨⟨7, 103, 0, 1, 1⟩, none⟩

def redSpared : List ImageMessage :=
  [.draw ⟨⟨8, 101, imageFlagsCacheMe, 1, 1⟩, redPixel 0⟩,
    .invalidateList [1, 0, 1, 9, 0, 0, 0, 0, 0, 0, 0]]

def smallStores : ImageStores := ⟨⟨[], 0, 1024, 10, 0, 0⟩, ⟨⟨[], 0, 1024, 10, 0, 0⟩, []⟩⟩

/-- An uncompressed image is drawn again. -/
theorem pixmap_drawn_again : create 1024 1024 = .ok smallStores ∧ ∃ final after,
      run step smallStores (.draw (redDraw 0) :: redSpared) = some final ∧
      final.drawImage redLookup = .ok (after, some (redPixel 7)) := by
  have created : create 1024 1024 = .ok smallStores := rfl
  have reached : run step smallStores [] = some smallStores := rfl
  have decoded : (smallStores.decode (redDraw 0)).1 = some (redPixel 3) := rfl
  have named : redLookup.isFromCache = true := rfl
  have kept : ∀ cached, step smallStores (.draw (redDraw 0)) = some cached →
      Meets step (fun stores message => stores.Roomy message ∧ stores.Spares 7 message) cached
        redSpared := by
    intro cached stepped
    cases stepped
    decide
  exact ⟨created, cached_image_drawn created reached decoded rfl (by decide) kept named rfl rfl rfl⟩

/-- The same pixel decoded from GLZ data is not found again. -/
theorem glz_image_not_cached :
    (do
      let stores ← create 1024 1024
      let (stores, drawn) ← stores.drawImage (redDraw 102)
      let (_, again) ← stores.drawImage redLookup
      return (drawn.map pixels, again.map pixels)) =
        (.ok (some [255, 0, 0, 255], none) : Outcome Empty _) := by
  rfl

/-! ## Invalidations and the dictionary -/

/-- An invalidation names no dictionary image, and is of all pixmaps only if there is none. -/
def Apart (stores : ImageStores) : ImageMessage → Prop
  | .invalidateList payload => ∀ id ∈ invalidatedIds payload,
      peek id stores.glzDictionary.images.inner = none
  | .invalAllPixmaps => stores.glzDictionary.images.inner = []
  | _ => True

instance (stores : ImageStores) : ∀ message, Decidable (stores.Apart message)
  | .invalidateList _ => inferInstanceAs (Decidable (∀ _ ∈ _, _ = _))
  | .invalAllPixmaps => inferInstanceAs (Decidable (_ = _))
  | .draw _ | .reset | .elsewhere _ _ => .isTrue trivial

end ImageStores

end Ryll
