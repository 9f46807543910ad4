import Ryll.Compression.GlzDictionary
import Ryll.Compression.GlzSafety
import Ryll.Compression.GlzWire

/-!
# Decoding a sequence of GLZ images

The reference expansion of a sequence reads every match in the stream order of the image it refers
to, while the display channel stores images in the order they are shown in.  The two agree exactly
when the matched range of an image stored from the bottom and of its mirror image coincide.
-/

namespace Ryll

open List Option GlzToken

/-! ## The reference expansion -/

namespace GlzToken

def expand (find : Nat → Option (List Rgba)) (imageId : Nat) (pixels : List Rgba) :
    GlzToken → Option (List Rgba)
  | .literal run =>
    if 1 ≤ run.length ∧ run.length ≤ 32 then some (pixels ++ run.map Bgr.rgba) else none
  | .selfMatch length distance =>
    if 1 ≤ length ∧ 1 ≤ distance ∧ distance ≤ pixels.length then
      some (copyBack pixels distance length)
    else
      none
  | .crossMatch length imageDist pixelOffset =>
    if 1 ≤ length ∧ 1 ≤ imageDist ∧ imageDist ≤ imageId then
      match find (imageId - imageDist) with
      | some source =>
        if pixelOffset + length ≤ source.length then
          some (pixels ++ (source.drop pixelOffset).take length)
        else
          none
      | none => none
    else
      none

def expandAll (find : Nat → Option (List Rgba)) (imageId : Nat) :
    List GlzToken → List Rgba → Option (List Rgba)
  | [], pixels => some pixels
  | token :: tokens, pixels => do
    let pixels ← token.expand find imageId pixels
    expandAll find imageId tokens pixels

/-- Two sources give a token the same pixels. -/
def Agrees (find find' : Nat → Option (List Rgba)) (imageId : Nat) : GlzToken → Prop
  | .crossMatch length imageDist pixelOffset =>
    ∀ source source', find (imageId - imageDist) = some source →
      find' (imageId - imageDist) = some source' →
      (source.drop pixelOffset).take length = (source'.drop pixelOffset).take length
  | _ => True

section Expansion

variable {find find' : Nat → Option (List Rgba)} {imageId : Nat}
  {token : GlzToken} {pixels pixels' : List Rgba} {tokens : List GlzToken} {after : List Rgba}

theorem expand_crossMatch_iff {length imageDist pixelOffset : Nat} :
    (crossMatch length imageDist pixelOffset).expand find imageId pixels = some after ↔
      (1 ≤ length ∧ 1 ≤ imageDist ∧ imageDist ≤ imageId) ∧
        ∃ source, find (imageId - imageDist) = some source ∧ pixelOffset + length ≤ source.length ∧
          pixels ++ (source.drop pixelOffset).take length = after := by
  rw [expand, ite_none_right_eq_some]
  cases find (imageId - imageDist) with
  | none => simp
  | some source => simp

theorem expand_spec (expanded : token.expand find imageId pixels = some after) :
    token.WellFormed ∧ 1 ≤ token.length ∧ pixels <+: after ∧
      after.length = pixels.length + token.length := by
  cases token with
  | literal run =>
    obtain ⟨bounds, ⟨⟩⟩ := ite_none_right_eq_some.mp expanded
    exact ⟨bounds, bounds.1, prefix_append _ _, by simp [length]⟩
  | selfMatch length distance =>
    obtain ⟨bounds, ⟨⟩⟩ := ite_none_right_eq_some.mp expanded
    exact ⟨⟨bounds.1, bounds.2.1⟩, bounds.1, prefix_copyBack _ _ _,
      length_copyBack bounds.2.1 bounds.2.2 length⟩
  | crossMatch length imageDist pixelOffset =>
    obtain ⟨bounds, source, found, inside, rfl⟩ := expand_crossMatch_iff.mp expanded
    refine ⟨⟨bounds.1, bounds.2.1⟩, bounds.1, prefix_append _ _, ?_⟩
    simp only [length_append, length_take, length_drop, GlzToken.length]
    omega

theorem expandAll_spec (expanded : expandAll find imageId tokens pixels = some after) :
    pixels <+: after ∧ pixels.length + tokens.length ≤ after.length ∧
      ∀ token ∈ tokens, token.WellFormed ∧ token.length ≤ after.length := by
  induction tokens generalizing pixels with
  | nil =>
    cases expanded
    exact ⟨prefix_rfl, by simp, by simp⟩
  | cons token tokens ih =>
    obtain ⟨middle, first, rest⟩ := bind_eq_some_iff.mp expanded
    obtain ⟨wellFormed, nonempty, extended, grown⟩ := expand_spec first
    obtain ⟨further, counted, later⟩ := ih rest
    refine ⟨extended.trans further, by simp only [length_cons]; omega, ?_⟩
    intro other member
    rcases mem_cons.mp member with rfl | member
    · exact ⟨wellFormed, by omega⟩
    · exact later other member

theorem find_of_mem (expanded : expandAll find imageId tokens pixels = some after)
    {length imageDist pixelOffset : Nat}
    (member : .crossMatch length imageDist pixelOffset ∈ tokens) :
    ∃ source, find (imageId - imageDist) = some source := by
  induction tokens generalizing pixels with
  | nil => simp at member
  | cons token tokens ih =>
    obtain ⟨middle, first, rest⟩ := bind_eq_some_iff.mp expanded
    rcases mem_cons.mp member with rfl | later
    · obtain ⟨-, source, found, -⟩ := expand_crossMatch_iff.mp first
      exact ⟨source, found⟩
    · exact ih rest later

section

variable
  (same : ∀ id source, find id = some source →
    ∃ source', find' id = some source' ∧ source'.length = source.length)
  (lengths : pixels'.length = pixels.length)
include same lengths

theorem expand_of_expand {after : List Rgba}
    (expanded : token.expand find imageId pixels = some after) :
    ∃ after', token.expand find' imageId pixels' = some after' := by
  cases token with
  | literal run =>
    obtain ⟨bounds, -⟩ := ite_none_right_eq_some.mp expanded
    exact ⟨_, if_pos bounds⟩
  | selfMatch length distance =>
    obtain ⟨bounds, -⟩ := ite_none_right_eq_some.mp expanded
    rw [expand, lengths, if_pos bounds]
    exact ⟨_, rfl⟩
  | crossMatch length imageDist pixelOffset =>
    obtain ⟨bounds, source, found, inside, -⟩ := expand_crossMatch_iff.mp expanded
    obtain ⟨source', found', source_length⟩ := same _ _ found
    exact ⟨_, expand_crossMatch_iff.mpr ⟨bounds, source', found', source_length ▸ inside, rfl⟩⟩

theorem expandAll_of_expandAll {after : List Rgba}
    (expanded : expandAll find imageId tokens pixels = some after) :
    ∃ after', expandAll find' imageId tokens pixels' = some after' ∧
      after'.length = after.length := by
  induction tokens generalizing pixels pixels' with
  | nil =>
    cases expanded
    exact ⟨pixels', rfl, lengths⟩
  | cons token tokens ih =>
    obtain ⟨middle, first, rest⟩ := bind_eq_some_iff.mp expanded
    obtain ⟨middle', first'⟩ := expand_of_expand same lengths first
    have middle_length : middle'.length = middle.length := by
      rw [(expand_spec first).2.2.2, (expand_spec first').2.2.2, lengths]
    obtain ⟨after', rest', after_length⟩ := ih middle_length rest
    exact ⟨after', by rw [expandAll, first']; exact rest', after_length⟩

end

theorem expand_eq_iff {after' : List Rgba}
    (expanded : token.expand find imageId pixels = some after)
    (expanded' : token.expand find' imageId pixels = some after') :
    after' = after ↔ token.Agrees find find' imageId := by
  cases token with
  | literal run | selfMatch length distance =>
    have same : after' = after := some.inj (expanded'.symm.trans expanded)
    exact iff_of_true same trivial
  | crossMatch length imageDist pixelOffset =>
    obtain ⟨-, source, found, -, rfl⟩ := expand_crossMatch_iff.mp expanded
    obtain ⟨-, source', found', -, rfl⟩ := expand_crossMatch_iff.mp expanded'
    rw [append_cancel_left_eq, Agrees]
    constructor
    · intro same left right left_found right_found
      obtain rfl := some.inj (found.symm.trans left_found)
      obtain rfl := some.inj (found'.symm.trans right_found)
      exact same.symm
    · intro agrees
      exact (agrees source source' found found').symm

theorem expandAll_eq_iff {after' : List Rgba}
    (expanded : expandAll find imageId tokens pixels = some after)
    (expanded' : expandAll find' imageId tokens pixels = some after') :
    after' = after ↔ ∀ token ∈ tokens, token.Agrees find find' imageId := by
  induction tokens generalizing pixels with
  | nil =>
    have same : after' = after := some.inj (expanded'.symm.trans expanded)
    exact iff_of_true same (by simp)
  | cons token tokens ih =>
    obtain ⟨middle, first, rest⟩ := bind_eq_some_iff.mp expanded
    obtain ⟨middle', first', rest'⟩ := bind_eq_some_iff.mp expanded'
    have agrees := expand_eq_iff first first'
    rw [forall_mem_cons, ← agrees]
    by_cases same : middle' = middle
    · subst same
      rw [ih rest rest']
      simp
    have front := (expandAll_spec rest).1
    have front' := (expandAll_spec rest').1
    have lengths : middle'.length = middle.length := by
      rw [(expand_spec first).2.2.2, (expand_spec first').2.2.2]
    refine iff_of_false ?_ (fun both => same both.1)
    rintro rfl
    exact same (List.IsPrefix.eq_of_length (prefix_of_prefix_length_le front' front
      lengths.le) lengths)

section

variable {window : Window}
  (resolves : ∀ reference imageDist, imageDist ≤ imageId →
    window.source reference imageDist = find (imageId - imageDist))
include resolves

theorem drawSegment_segment {ε : Type} {total : Nat} {after : List Rgba}
    (expanded : token.expand find imageId pixels = some after) (fits : after.length ≤ total)
    (reference : Nat) :
    (drawSegment window total reference pixels token.segment : Outcome ε (List Rgba)) =
      .ok after := by
  have grown := (expand_spec expanded).2.2.2
  cases token with
  | literal run =>
    obtain ⟨-, ⟨⟩⟩ := ite_none_right_eq_some.mp expanded
    simp only [GlzToken.length] at grown
    rw [segment, drawSegment, take_of_length_le (by rw [length_map]; omega)]
  | selfMatch length distance =>
    obtain ⟨bounds, ⟨⟩⟩ := ite_none_right_eq_some.mp expanded
    simp only [GlzToken.length] at grown
    rw [segment, drawSegment, selfCopy, if_pos bounds.2.2, Nat.min_eq_left (by omega)]
  | crossMatch length imageDist pixelOffset =>
    obtain ⟨bounds, source, found, -, rfl⟩ := expand_crossMatch_iff.mp expanded
    simp only [GlzToken.length] at grown
    simp only [segment, drawSegment, resolves reference imageDist bounds.2.2, found]
    rw [take_of_length_le (by
      simp only [length_take, length_drop]
      omega)]

theorem drawSegments_segment {ε : Type} {after : List Rgba}
    (expanded : expandAll find imageId tokens pixels = some after) (reference : Nat) :
    (drawSegments window after.length (tokens.map segment) reference pixels :
      Outcome ε (List Rgba)) = .ok after := by
  induction tokens generalizing pixels reference with
  | nil =>
    cases expanded
    rfl
  | cons token tokens ih =>
    have room := (expandAll_spec expanded).2.1
    obtain ⟨middle, first, rest⟩ := bind_eq_some_iff.mp expanded
    have fits := (expandAll_spec rest).1.length_le
    simp only [length_cons] at room
    rw [map_cons, drawSegments, if_pos (by omega),
      drawSegment_segment resolves first fits reference, ok_bind]
    exact ih rest _

end

end Expansion

end GlzToken

/-! ## Decoding one image -/

namespace GlzImage

/-- The stream pixels of an image, with `find` giving the pixels of other images. -/
def expand (image : GlzImage) (find : Nat → Option (List Rgba)) : Option (List Rgba) :=
  GlzToken.expandAll find image.imageId image.tokens []

/-- A result is the image of the stream. -/
def Shows (image : GlzImage) (stream : List Rgba) (result : Outcome StreamError DecompressedImage) :
    Prop :=
  ∃ decoded, result = .ok decoded ∧ decoded.width = image.width ∧ decoded.height = image.height ∧
    decoded.imageId = image.imageId ∧ decoded.winHeadDist = image.winHeadDist ∧
    decoded.pixels = flat (displayOrder image.topDown image.width image.height stream)

variable {image : GlzImage}

theorem decompressGlz_refused {data : Slice} (encoded : image.encode = some data)
    (refused : rgbaLen image.width image.height = none) (dictionary : Nat → Nat → GlzLookup) :
    decompressGlz data dictionary = .error (.dimensionsRefused image.width image.height) := by
  obtain ⟨bytes, -, contents, fits⟩ := encode_eq_some encoded
  have refused' : rgbaLen image.header.width image.header.height = none := refused
  rw [decompressGlz, contents, read_encodeHeader fits, ok_bind, refused']
  rfl

theorem decompressGlz_shows {data : Slice} (encoded : image.encode = some data) {length : Nat}
    (accepted : rgbaLen image.width image.height = some length)
    {find : Nat → Option (List Rgba)} {dictionary : Nat → Nat → GlzLookup}
    (resolves : ∀ reference id,
      (dictionary reference id).resolve.map (fun pixels => pixelsOf pixels.bytes) = find id)
    {stream : List Rgba} (expanded : image.expand find = some stream)
    (sized : stream.length = image.width * image.height) :
    image.Shows stream (decompressGlz data dictionary) := by
  obtain ⟨bytes, tokens, contents, fits⟩ := encode_eq_some encoded
  have read : GlzHeader.read data.bytes = .ok image.header := by
    rw [contents, read_encodeHeader fits]
  have pixels_le : image.width * image.height ≤ 67108864 :=
    (rgbaLen_eq_some.mp accepted).2.2.2.2.1
  have segments : glzSegments (data.bytes.drop glzHeaderLen) =
      image.tokens.map GlzToken.segment := by
    rw [contents, drop_left' (length_encodeHeader image)]
    refine segmentsOf_encodeAll (fun token member => ?_) tokens (Nat.le_refl _)
    obtain ⟨wellFormed, short⟩ := (GlzToken.expandAll_spec expanded).2.2 token member
    exact ⟨wellFormed, by omega⟩
  have source : ∀ reference imageDist, imageDist ≤ image.imageId →
      (glzWindow image.imageId dictionary).source reference imageDist =
        find (image.imageId - imageDist) := by
    intro reference imageDist within
    rw [Window.source, ← resolves reference]
    simp only [glzWindow, wrappingSub_of_le within fits.2.2.1]
  have drawn := drawSegments_segment (ε := StreamError) source expanded 0
  have refines := decompressGlz_refines dictionary read accepted
  rw [segments] at refines
  rw [sized] at drawn
  have drawn' : drawSegments (glzWindow image.header.imageId dictionary)
      (image.header.width * image.header.height) (image.tokens.map GlzToken.segment) 0 [] =
        (.ok stream : Outcome StreamError (List Rgba)) := drawn
  rw [drawn'] at refines
  cases result : decompressGlz data dictionary with
  | ok decoded =>
    rw [result] at refines
    obtain ⟨width, height, imageId, winHeadDist, pixels⟩ := refines
    refine ⟨decoded, rfl, width, height, imageId, winHeadDist, ?_⟩
    have whole : padded (image.width * image.height) stream = stream := by
      rw [padded, sized, Nat.sub_self, replicate_zero, append_nil]
    rw [pixels]
    exact congrArg (fun shown => flat (displayOrder image.topDown image.width image.height shown))
      whole
  | error reason | fault cause => simp [result, Outcome.Refines] at refines

theorem shows_unique {stream stream' : List Rgba} {result : Outcome StreamError DecompressedImage}
    (sized : stream.length = image.width * image.height)
    (sized' : stream'.length = image.width * image.height) (shows' : image.Shows stream' result) :
    image.Shows stream result ↔ stream' = stream := by
  constructor
  · rintro ⟨decoded, returned, -, -, -, -, pixels⟩
    obtain ⟨decoded', returned', -, -, -, -, pixels'⟩ := shows'
    obtain rfl := Outcome.ok.inj (returned.symm.trans returned')
    exact displayOrder_inj sized' sized (flat_injective (pixels'.symm.trans pixels))
  · rintro rfl
    exact shows'

end GlzImage

/-! ## Decoding a sequence -/

/-- The earlier images of a sequence with their stream pixels, latest first. -/
abbrev GlzHistory := List (GlzImage × List Rgba)

def entryOf (earlier : GlzHistory) (id : Nat) : Option (GlzImage × List Rgba) :=
  earlier.find? fun entry => entry.1.imageId = id

namespace GlzImage

variable (image : GlzImage)

/-- The oldest id that images from this one on may refer to; negative before the first. -/
def windowHead : Int := (image.imageId : Int) - image.winHeadDist

variable (earlier : GlzHistory)

def streamOf (id : Nat) : Option (List Rgba) :=
  if image.windowHead ≤ id then (entryOf earlier id).map Prod.snd else none

/-- Matches into an image that is stored from the bottom cover what its mirror image shares. -/
def Harmless : Prop :=
  ∀ length imageDist pixelOffset source stream,
    .crossMatch length imageDist pixelOffset ∈ image.tokens →
    entryOf earlier (image.imageId - imageDist) = some (source, stream) →
    source.topDown = false →
    (stream.drop pixelOffset).take length =
      ((mirrorRows source.width stream source.height).drop pixelOffset).take length

/-- Ids are consecutive, the window head does not move back, matches stay in the window and in their
image, and the tokens produce the pixels of the image, `stream`. -/
def Extends (stream : List Rgba) : Prop :=
  (∀ last ∈ earlier.head?, image.imageId = last.1.imageId + 1 ∧
    last.1.windowHead ≤ image.windowHead) ∧
  image.expand (image.streamOf earlier) = some stream ∧
  stream.length = image.width * image.height

end GlzImage

/-- A sequence of images with their reference expansions. -/
def ValidSequence (earlier : GlzHistory) : GlzHistory → Prop
  | [] => True
  | (image, stream) :: images =>
    image.Extends earlier stream ∧ ValidSequence ((image, stream) :: earlier) images

/-- No match of a sequence reads an image that is stored from the bottom where that shows. -/
def HarmlessSequence (earlier : GlzHistory) : GlzHistory → Prop
  | [] => True
  | (image, stream) :: images =>
    image.Harmless earlier ∧ HarmlessSequence ((image, stream) :: earlier) images

/-- Decode images in order and store each as the display channel does, unless it is refused. -/
def decodeAll (dictionary : GlzDictionary) :
    List Slice → List (Outcome StreamError DecompressedImage)
  | [] => []
  | data :: rest =>
    match decompressGlz data fun _ id => dictionary.lookup id with
    | .ok image =>
      match (dictionary.store image : Outcome StreamError GlzDictionary) with
      | .ok dictionary => .ok image :: decodeAll dictionary rest
      | .error reason => [.error reason]
      | .fault cause => [.fault cause]
    | .error reason => .error reason :: decodeAll dictionary rest
    | .fault cause => [.fault cause]

/-- The byte cap evicts nothing while the images are decoded. -/
def CapNeverEvicts (dictionary : GlzDictionary) : List Slice → Prop
  | [] => True
  | data :: rest =>
    match decompressGlz data fun _ id => dictionary.lookup id with
    | .ok image =>
      dictionary.Keeps image ∧
        ∀ stored, (dictionary.store image : Outcome StreamError GlzDictionary) = .ok stored →
          CapNeverEvicts stored rest
    | .error _ => CapNeverEvicts dictionary rest
    | .fault _ => True

variable {dictionary : GlzDictionary} {earlier : GlzHistory} {stored : GlzDictionary}

theorem capNeverEvicts_cons {data : Slice} {rest : List Slice} (image : DecompressedImage)
    (decoded : decompressGlz data (fun _ id => dictionary.lookup id) = .ok image)
    (keeps : dictionary.Keeps image)
    (stored_eq : (dictionary.store image : Outcome StreamError GlzDictionary) = .ok stored)
    (later : CapNeverEvicts stored rest) : CapNeverEvicts dictionary (data :: rest) := by
  rw [CapNeverEvicts, decoded]
  refine ⟨keeps, fun stored' stored_eq' => ?_⟩
  obtain rfl := Outcome.ok.inj (stored_eq.symm.trans stored_eq')
  exact later

/-- The dictionary holds what was shown of the images inside the window. -/
def Remembers (dictionary : GlzDictionary) (earlier : GlzHistory) : Prop :=
  ∀ id source stream, entryOf earlier id = some (source, stream) →
    (∀ last ∈ earlier.head?, last.1.windowHead ≤ id) →
    stream.length = source.width * source.height ∧
    ∃ slice, peek id dictionary.images.inner = some slice ∧
      slice.bytes = flat (displayOrder source.topDown source.width source.height stream)

def GlzDictionary.pixelsAt (dictionary : GlzDictionary) (id : Nat) : Option (List Rgba) :=
  (peek id dictionary.images.inner).map fun slice => pixelsOf slice.bytes

theorem Remembers.pixelsAt (remembers : Remembers dictionary earlier) {id : Nat} {source : GlzImage}
    {stream : List Rgba} (entry : entryOf earlier id = some (source, stream))
    (inside : ∀ last ∈ earlier.head?, last.1.windowHead ≤ id) :
    dictionary.pixelsAt id = some (displayOrder source.topDown source.width source.height stream) ∧
      (displayOrder source.topDown source.width source.height stream).length = stream.length := by
  obtain ⟨sized, slice, found, bytes⟩ := remembers id source stream entry inside
  refine ⟨?_, by rw [length_displayOrder sized, sized]⟩
  rw [GlzDictionary.pixelsAt, found, map_some, bytes, pixelsOf_flat]

theorem Remembers.store
    (remembers : Remembers dictionary earlier) {image : GlzImage} {stream : List Rgba}
    (extends_ : image.Extends earlier stream) {decoded : DecompressedImage}
    (shown : decoded.imageId = image.imageId ∧ decoded.winHeadDist = image.winHeadDist ∧
      decoded.pixels = flat (displayOrder image.topDown image.width image.height stream))
    (contents : ∀ id, peek id stored.images.inner =
      if decoded.winHeadDist = 0 ∨ decoded.imageId - decoded.winHeadDist ≤ id then
        if id = decoded.imageId then some decoded.vec else peek id dictionary.images.inner
      else none) :
    Remembers stored ((image, stream) :: earlier) := by
  obtain ⟨same_id, same_dist, same_pixels⟩ := shown
  intro id source stream' entry inside
  have head_le : image.windowHead ≤ id := inside (image, stream) rfl
  have kept : decoded.imageId - decoded.winHeadDist ≤ id := by
    rw [GlzImage.windowHead] at head_le
    omega
  rw [contents id, if_pos (.inr kept), same_id]
  rw [entryOf, find?_cons] at entry
  by_cases latest : image.imageId = id
  · simp only [latest, decide_true, some.injEq, Prod.mk.injEq] at entry
    obtain ⟨rfl, rfl⟩ := entry
    exact ⟨extends_.2.2, decoded.vec, by rw [if_pos latest.symm], same_pixels⟩
  · simp only [latest, decide_false] at entry
    rw [if_neg (fun same => latest same.symm)]
    refine remembers id source stream' entry fun last member => ?_
    exact (extends_.1 last member).2.trans head_le

section Step

variable {dictionary : GlzDictionary} {earlier : GlzHistory}
  (remembers : Remembers dictionary earlier) {image : GlzImage} {stream : List Rgba}
  (extends_ : image.Extends earlier stream)
include remembers extends_

theorem pixelsAt_of_streamOf {id : Nat} {pixels : List Rgba}
    (found : image.streamOf earlier id = some pixels) :
    ∃ source, entryOf earlier id = some (source, pixels) ∧ dictionary.pixelsAt id =
        some (displayOrder source.topDown source.width source.height pixels) ∧
      (displayOrder source.topDown source.width source.height pixels).length = pixels.length := by
  obtain ⟨inside, found⟩ := ite_none_right_eq_some.mp found
  obtain ⟨⟨source, stream'⟩, entry, rfl⟩ := map_eq_some_iff.mp found
  exact ⟨source, entry, remembers.pixelsAt entry fun last member =>
    (extends_.1 last member).2.trans inside⟩

theorem agrees_iff_harmless : (∀ token ∈ image.tokens,
        token.Agrees (image.streamOf earlier) dictionary.pixelsAt image.imageId) ↔
      image.Harmless earlier := by
  constructor
  · intro agrees length imageDist pixelOffset source stream' member entry bottomUp
    obtain ⟨pixels, found⟩ := find_of_mem extends_.2.1 member
    obtain ⟨source', entry', shown, -⟩ := pixelsAt_of_streamOf remembers extends_ found
    obtain ⟨rfl, rfl⟩ := Prod.mk.inj (some.inj (entry.symm.trans entry'))
    have agreed := agrees _ member _ _ found shown
    rwa [displayOrder, bottomUp, if_neg (by decide)] at agreed
  · intro harmless token member
    cases token with
    | literal => trivial
    | selfMatch => trivial
    | crossMatch length imageDist pixelOffset =>
      intro pixels pixels' found found'
      obtain ⟨source, entry, shown, -⟩ := pixelsAt_of_streamOf remembers extends_ found
      obtain rfl := some.inj (shown.symm.trans found')
      rw [displayOrder]
      split
      · rfl
      · rename_i bottomUp
        exact harmless _ _ _ _ _ member entry (by simpa using bottomUp)

theorem shows_iff_harmless {data : Slice} (encoded : image.encode = some data) {length : Nat}
    (accepted : rgbaLen image.width image.height = some length) :
    (∃ decoded, decompressGlz data (fun _ id => dictionary.lookup id) = .ok decoded) ∧
      (image.Shows stream (decompressGlz data fun _ id => dictionary.lookup id) ↔
        image.Harmless earlier) := by
  obtain ⟨stream', expanded', lengths⟩ := expandAll_of_expandAll
    (fun id source found => by
      obtain ⟨source', -, shown, same⟩ := pixelsAt_of_streamOf remembers extends_ found
      exact ⟨_, shown, same⟩) rfl extends_.2.1
  have sized' : stream'.length = image.width * image.height := by rw [lengths, extends_.2.2]
  have shown' := GlzImage.decompressGlz_shows encoded accepted
    (fun _ id => by rw [GlzDictionary.resolve_lookup]; rfl) expanded' sized'
  refine ⟨shown'.imp fun decoded returned => returned.1, ?_⟩
  rw [GlzImage.shows_unique extends_.2.2 sized' shown',
    expandAll_eq_iff extends_.2.1 expanded', agrees_iff_harmless remembers extends_]

end Step

/-- The results of a sequence show the reference expansions exactly when all dimensions are accepted
and all matches are harmless. -/
theorem decodeAll_shows_iff {images : GlzHistory} (remembers : Remembers dictionary earlier)
    (valid : ValidSequence earlier images) {datas : List Slice}
    (encoded : List.Forall₂ (fun entry data => entry.1.encode = some data) images datas)
    (kept : CapNeverEvicts dictionary datas) :
    List.Forall₂ (fun entry result => entry.1.Shows entry.2 result) images
        (decodeAll dictionary datas) ↔
      (∀ entry ∈ images, (rgbaLen entry.1.width entry.1.height).isSome) ∧
        HarmlessSequence earlier images := by
  induction encoded generalizing dictionary earlier with
  | nil => simp [decodeAll, HarmlessSequence]
  | @cons entry data images datas first rest ih =>
    obtain ⟨image, stream⟩ := entry
    obtain ⟨extends_, valid⟩ := valid
    rw [forall_mem_cons, HarmlessSequence]
    cases accepted : rgbaLen image.width image.height with
    | none =>
      rw [decodeAll, GlzImage.decompressGlz_refused first accepted]
      refine iff_of_false (fun all => ?_) (by simp)
      obtain ⟨shown, -⟩ := List.forall₂_cons.mp all
      obtain ⟨decoded, returned, -⟩ := shown
      simp at returned
    | some length =>
      obtain ⟨⟨decoded, returned⟩, step⟩ :=
        shows_iff_harmless remembers extends_ first accepted
      rw [CapNeverEvicts, returned] at kept
      obtain ⟨stored, stored_eq, contents⟩ := GlzDictionary.store_of_keeps kept.1
      simp only [decodeAll, returned, stored_eq, List.forall₂_cons, isSome_some, true_and]
      rw [returned] at step
      rw [step]
      by_cases harmless : image.Harmless earlier
      · obtain ⟨decoded', returned', -, -, shown⟩ := step.mpr harmless
        cases returned'
        rw [ih (remembers.store extends_ shown contents) valid (kept.2 stored stored_eq)]
        simp [harmless]
      · simp [harmless]

/-- A sequence decodes to its reference expansions exactly when all dimensions are accepted and all
matches are harmless. -/
theorem decodeAll_correct_iff (dictionary : GlzDictionary) {images : GlzHistory}
    (valid : ValidSequence [] images) {datas : List Slice}
    (encoded : List.Forall₂ (fun entry data => entry.1.encode = some data) images datas)
    (kept : CapNeverEvicts dictionary datas) :
    List.Forall₂ (fun entry result => entry.1.Shows entry.2 result) images
        (decodeAll dictionary datas) ↔
      (∀ entry ∈ images, (rgbaLen entry.1.width entry.1.height).isSome) ∧
        HarmlessSequence [] images :=
  decodeAll_shows_iff (fun _ _ _ entry => by simp [entryOf] at entry) valid encoded kept

variable (topDown : Bool)

def twoRows : GlzImage :=
  ⟨topDown, 1, 2, 7, 0, [.literal [⟨255, 0, 0⟩, ⟨0, 0, 255⟩]]⟩

def firstOfPrevious : GlzImage := ⟨true, 1, 1, 8, 1, [.crossMatch 1 1 0]⟩

def rowsThenCopy : GlzHistory :=
  [(twoRows topDown, [⟨0, 0, 255, 255⟩, ⟨255, 0, 0, 255⟩]), (firstOfPrevious, [⟨0, 0, 255, 255⟩])]

def rowsThenCopyData : List Slice :=
  (rowsThenCopy topDown).filterMap fun entry => entry.1.encode

variable (topDown : Bool)

theorem validSequence_rowsThenCopy : ValidSequence [] (rowsThenCopy topDown) := by
  cases topDown with
  | true | false =>
    exact ⟨⟨by decide, by decide, by decide⟩, ⟨by decide, by decide, by decide⟩, trivial⟩

theorem encoded_rowsThenCopy :
    List.Forall₂ (fun entry data => entry.1.encode = some data) (rowsThenCopy topDown)
      (rowsThenCopyData topDown) := by
  cases topDown with
  | true | false => exact .cons (by decide) (.cons (by decide) .nil)

def decodedRows (topDown : Bool) : DecompressedImage where
  width := 1
  height := 2
  pixels := if topDown then [0, 0, 255, 255, 255, 0, 0, 255] else [255, 0, 0, 255, 0, 0, 255, 255]
  imageId := 7
  winHeadDist := 0
  sized := by cases topDown <;> decide

def decodedCopy (topDown : Bool) : DecompressedImage where
  width := 1
  height := 1
  pixels := if topDown then [0, 0, 255, 255] else [255, 0, 0, 255]
  imageId := 8
  winHeadDist := 1
  sized := by cases topDown <;> decide

theorem capNeverEvicts_rowsThenCopy :
    CapNeverEvicts freshDictionary (rowsThenCopyData topDown) := by
  cases topDown with
  | true =>
    exact capNeverEvicts_cons (decodedRows true) (by decide) ⟨_, rfl⟩ rfl
      (capNeverEvicts_cons (decodedCopy true) (by decide) ⟨_, rfl⟩ rfl trivial)
  | false =>
    exact capNeverEvicts_cons (decodedRows false) (by decide) ⟨_, rfl⟩ rfl
      (capNeverEvicts_cons (decodedCopy false) (by decide) ⟨_, rfl⟩ rfl trivial)

/-- Stored from the top, the first image is copied from where the encoder counted. -/
theorem decodeAll_correct_rowsThenCopy : ValidSequence [] (rowsThenCopy true) ∧
      List.Forall₂ (fun entry data => entry.1.encode = some data) (rowsThenCopy true)
        (rowsThenCopyData true) ∧ CapNeverEvicts freshDictionary (rowsThenCopyData true) ∧
      (List.Forall₂ (fun entry result => entry.1.Shows entry.2 result) (rowsThenCopy true)
          (decodeAll freshDictionary (rowsThenCopyData true)) ↔
        (∀ entry ∈ rowsThenCopy true, (rgbaLen entry.1.width entry.1.height).isSome) ∧
          HarmlessSequence [] (rowsThenCopy true)) :=
  ⟨validSequence_rowsThenCopy true, encoded_rowsThenCopy true, capNeverEvicts_rowsThenCopy true,
    decodeAll_correct_iff freshDictionary (validSequence_rowsThenCopy true)
      (encoded_rowsThenCopy true) (capNeverEvicts_rowsThenCopy true)⟩

/-- Stored from the bottom, the first image is copied from its last row instead. -/
theorem decodeAll_wrong_rowsThenCopy : ValidSequence [] (rowsThenCopy false) ∧
      List.Forall₂ (fun entry data => entry.1.encode = some data) (rowsThenCopy false)
        (rowsThenCopyData false) ∧ CapNeverEvicts freshDictionary (rowsThenCopyData false) ∧
      (∀ entry ∈ rowsThenCopy false, (rgbaLen entry.1.width entry.1.height).isSome) ∧
      ¬ List.Forall₂ (fun entry result => entry.1.Shows entry.2 result) (rowsThenCopy false)
        (decodeAll freshDictionary (rowsThenCopyData false)) := by
  refine ⟨validSequence_rowsThenCopy false, encoded_rowsThenCopy false,
    capNeverEvicts_rowsThenCopy false, by decide, fun all => ?_⟩
  rw [show decodeAll freshDictionary (rowsThenCopyData false) =
    [.ok (decodedRows false), .ok (decodedCopy false)] by decide, rowsThenCopy,
    List.forall₂_cons, List.forall₂_cons] at all
  obtain ⟨decoded, returned, -, -, -, -, pixels⟩ := all.2.1
  cases returned
  exact absurd pixels (by decide)

end Ryll
