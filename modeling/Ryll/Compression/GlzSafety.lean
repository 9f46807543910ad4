import Ryll.Compression.Glz

/-!
# Safety of the GLZ decoder

The decoder draws the segments of its data, whatever its lookups find.  It shares the overflow of
the LZ decoder: a reference of two or more pixels into the current image that reaches exactly one
pixel before the first.
-/

namespace Ryll

open List GlzHeader

variable {total : Nat} {pixels : List Rgba}

section Foreign

variable {prevPixels : Bytes} (bounded : prevPixels.length < 2 ^ 63) {total : Nat}
  (small : total ≤ maxImagePixels)
include bounded small

theorem foreignPixel_next (room : pixels.length < total) {index : Nat}
    {pixel : Rgba} (present : (pixelsOf prevPixels)[index]? = some pixel) :
    foreignPixel prevPixels (4 * total) ⟨4 * pixels.length, 4 * index, canvas total pixels⟩ =
      .ok (.next ⟨4 * (pixels.length + 1), 4 * (index + 1), canvas total (pixels ++ [pixel])⟩) := by
  have total_le : total ≤ 67108864 := small
  have source := getElem?_of_pixelsOf present
  have inside : 4 * index + 3 < prevPixels.length := (List.getElem?_eq_some_iff.mp source.2.2.2).1
  rw [canvas_of_lt room, canvas_snoc]
  simp (disch := first | omega | simp) only [foreignPixel, addUsize_ok, ok_bind, if_neg,
    readAt_of_getElem? source.1, readAt_of_getElem? source.2.1, readAt_of_getElem? source.2.2.1,
    readAt_of_getElem? source.2.2.2, writeAt_append_cons (length_flat pixels),
    writeAt_append (length_flat pixels), List.set, pure_eq, Nat.mul_succ]

theorem forRange_foreignPixel (count : Nat) (fits : pixels.length ≤ total)
    {index : Nat} (near : index ≤ 2 ^ 61) :
    ∃ last, forRange (foreignPixel prevPixels (4 * total)) count
        ⟨4 * pixels.length, 4 * index, canvas total pixels⟩ =
      .ok ⟨4 * (pixels ++ (((pixelsOf prevPixels).drop index).take count).take
            (total - pixels.length)).length, last,
        canvas total (pixels ++ (((pixelsOf prevPixels).drop index).take count).take
          (total - pixels.length))⟩ := by
  induction count generalizing pixels index with
  | zero => exact ⟨4 * index, by simp [forRange]⟩
  | succ count ih =>
    by_cases blocked : total ≤ pixels.length ∨ (pixelsOf prevPixels).length ≤ index
    · refine ⟨4 * index, ?_⟩
      have nothing : (((pixelsOf prevPixels).drop index).take (count + 1)).take
          (total - pixels.length) = [] := by
        rcases blocked with full | ended
        · simp [Nat.sub_eq_zero_of_le full]
        · simp [drop_eq_nil_of_le ended]
      have leaves : foreignPixel prevPixels (4 * total)
          ⟨4 * pixels.length, 4 * index, canvas total pixels⟩ =
          .ok (.leave ⟨4 * pixels.length, 4 * index, canvas total pixels⟩) := by
        have total_le : total ≤ 67108864 := small
        rw [length_pixelsOf] at blocked
        simp (disch := omega) only [foreignPixel, addUsize_ok, ok_bind, pure_eq]
        split
        · rfl
        · rw [if_pos (by omega)]
      rw [forRange, leaves, nothing]
      simp
    · rw [not_or, Nat.not_le, Nat.not_le] at blocked
      obtain ⟨room, more⟩ := blocked
      have present := getElem?_eq_getElem more
      have within : index + 1 ≤ 2 ^ 61 := by
        rw [length_pixelsOf] at more
        omega
      have extended : (pixels ++ [(pixelsOf prevPixels)[index]]).length ≤ total := by
        simp only [length_append, length_singleton]
        omega
      obtain ⟨last, run⟩ := ih extended within
      refine ⟨last, ?_⟩
      rw [forRange, foreignPixel_next bounded small room present]
      have split : (((pixelsOf prevPixels).drop index).take (count + 1)).take
          (total - pixels.length) = (pixelsOf prevPixels)[index] ::
            (((pixelsOf prevPixels).drop (index + 1)).take count).take
              (total - (pixels.length + 1)) := by
        rw [drop_eq_getElem_cons more,
          show total - pixels.length = (total - (pixels.length + 1)) + 1 by omega,
          take_succ_cons, take_succ_cons]
      rw [split]
      simpa [Nat.add_assoc] using run

end Foreign

def glzWindow (imageId : Nat) (dictionary : Nat → Nat → GlzLookup) : Window where
  imageId := imageId
  resolve := fun reference id =>
    (dictionary reference id).resolve.map fun prevPixels => pixelsOf prevPixels.bytes

/-- The state of the decoder stands for the pixels drawn, the bytes left and the lookups made. -/
def GlzRepresents (data : Bytes) (total : Nat) (state : GlzState) (rest : Bytes)
    (reference : Nat) (pixels : List Rgba) : Prop :=
  Represents data total state.toLzState rest pixels ∧ state.references = reference

theorem canvas_skip {count : Nat} (fits : pixels.length + count ≤ total) :
    canvas total (pixels ++ List.replicate count Rgba.zero) = canvas total pixels := by
  rw [canvas_eq_flat_padded, canvas_eq_flat_padded, padded, padded, append_assoc,
    replicate_append_replicate, length_append, length_replicate]
  congr 4
  omega

theorem glzCopy_represents {data : Bytes} (small : total ≤ maxImagePixels) (imageId : Nat)
    (dictionary : Nat → Nat → GlzLookup) {length pixelOffset : Nat} (nonempty : 0 < length)
    (near : pixelOffset < 2 ^ 25) (imageDist : Nat) {rest : Bytes} (suffix : rest <:+ data)
    (room : pixels.length < total) (dataOffset references : Nat) :
    (glzCopy (4 * total) imageId dictionary length (offsetOf data rest) pixelOffset imageDist
        ⟨⟨dataOffset, 4 * pixels.length, canvas total pixels⟩, references⟩).Refines
      (fun state' pixels' => GlzRepresents data total state' rest
        (references + (referenceSegment length pixelOffset imageDist).references) pixels')
      (drawSegment (glzWindow imageId dictionary) total references pixels
        (referenceSegment length pixelOffset imageDist)) := by
  by_cases here : imageDist = 0
  · subst here
    simp only [glzCopy, referenceSegment, if_true, addUsize_ok (show pixelOffset + 1 < 2 ^ 64 by
      omega), ok_bind, pure_eq, drawSegment]
    exact (copySelf_represents small suffix room (Nat.succ_pos _) (by omega) nonempty).map
      fun _ _ drawn => ⟨drawn, rfl⟩
  · simp only [glzCopy, referenceSegment, if_neg here, drawSegment, Window.source, glzWindow]
    cases (dictionary references (wrappingSub 64 imageId imageDist)).resolve with
    | some prevPixels =>
      obtain ⟨last, run⟩ := forRange_foreignPixel prevPixels.bounded small length room.le
        (show pixelOffset ≤ 2 ^ 61 by omega)
      simp only [copyForeign, mulUsize_ok (show pixelOffset * 4 < 2 ^ 64 by omega), ok_bind,
        Nat.mul_comm pixelOffset 4, run, pure_eq, Option.map_some]
      refine ⟨⟨suffix, rfl, ?_, fun _ => rfl, fun _ => rfl, fun full => ?_⟩, rfl⟩
      · simp only [length_append, length_take]
        omega
      · simp only
        omega
    | none =>
      by_cases fits : 4 * pixels.length + 4 * length < 2 ^ 64
      · rw [if_pos fits, mulUsize_ok (by omega), ok_bind, addUsize_ok (by omega), ok_bind]
        refine ⟨⟨suffix, ?_, ?_, fun open_ => ?_, fun _ => rfl, fun full => ?_⟩, rfl⟩
        · exact (canvas_skip (by omega)).symm
        · simp only [length_append, length_replicate]
          omega
        · simp only [length_append, length_replicate] at open_ ⊢
          omega
        · simp only [length_append, length_replicate] at full ⊢
          omega
      · rw [if_neg fits]
        by_cases product : length * 4 < 2 ^ 64
        · rw [mulUsize_ok product, ok_bind, addUsize_fault (by omega)]
          rfl
        · rw [mulUsize, mulChecked, if_neg product]
          rfl

/-- How a round goes on from what was read of a reference. -/
def glzReact (total imageId : Nat) (dictionary : Nat → Nat → GlzLookup) (length : Nat)
    (state : GlzState) : Option (Nat × Nat × Nat) → Outcome StreamError (Flow GlzState GlzState)
  | none => return .leave state
  | some (dataOffset, pixelOffset, imageDist) => do
    let state ← glzCopy (4 * total) imageId dictionary length dataOffset pixelOffset imageDist state
    return .next state

theorem glzRound_follows {data : Bytes} (bounded : data.length < 2 ^ 63)
    (small : total ≤ maxImagePixels) (imageId : Nat) (dictionary : Nat → Nat → GlzLookup) :
    Follows (glzRound data (4 * total) imageId dictionary) glzNext
      (glzWindow imageId dictionary) total (GlzRepresents data total) := by
  have same : glzRound data (4 * total) imageId dictionary = roundOf data total
      GlzState.toLzState (fun state drawn => ⟨drawn, state.references⟩) (glzReference data)
      (glzReact total imageId dictionary) := rfl
  rw [same]
  refine roundOf_follows bounded (fun ctrl _ => glzReference_eq bounded ctrl) small And.left
    (fun standing drawn => ⟨drawn, standing.2⟩) (fun _ _ => rfl) ?_
    fun _ _ _ read => (glzNext_spec read).1
  rintro ⟨view, references⟩ rest _ pixels length ctrl bytes ⟨pixelOffset, imageDist, after⟩
    ⟨represents, rfl⟩ room nonempty inside taken
  obtain ⟨near, suffix⟩ := takeGlzReference_spec taken
  obtain rfl : view = _ := represents.eq room
  exact (glzCopy_represents small imageId dictionary nonempty near imageDist
    (suffix.trans inside) room _ _).map fun state' _ drawn => ⟨state', rfl, drawn⟩

theorem GlzHeader.read_ensures (data : Bytes) :
    (read data).Ensures fun _ => glzHeaderLen ≤ data.length :=
  (readPreamble_ensures _ data).bind fun rest long =>
    (readBigEndian_ensures _ 1 rest).bind fun typePacked _ =>
    (readBigEndian_ensures _ 4 typePacked.2).bind fun width _ =>
    (readBigEndian_ensures _ 4 width.2).bind fun height _ =>
    (readBigEndian_ensures _ 4 height.2).bind fun stride _ =>
    (readBigEndian_ensures _ 8 stride.2).bind fun imageId _ =>
    (readBigEndian_ensures _ 4 imageId.2).bind fun _ _ => long

theorem decompressGlz_refines {data : Slice} (dictionary : Nat → Nat → GlzLookup)
    {header : GlzHeader} (read : read data.bytes = .ok header) {length : Nat}
    (accepted : rgbaLen header.width header.height = some length) :
    (decompressGlz data dictionary).Refines
      (fun image pixels => image.width = header.width ∧ image.height = header.height ∧
        image.imageId = header.imageId ∧ image.winHeadDist = header.winHeadDist ∧
        image.pixels = flat (displayOrder header.topDown header.width header.height
          (padded (header.width * header.height) pixels)))
      (drawSegments (glzWindow header.imageId dictionary) (header.width * header.height)
        (glzSegments (data.bytes.drop glzHeaderLen)) 0 []) := by
  obtain ⟨width_pos, height_pos, -, -, small, length_eq⟩ := rgbaLen_eq_some.mp accepted
  have total_pos : 0 < header.width * header.height := Nat.mul_pos width_pos height_pos
  have long : glzHeaderLen ≤ data.bytes.length := by
    have ensured := read_ensures data.bytes
    rwa [read] at ensured
  have suffix := drop_suffix glzHeaderLen data.bytes
  have started : GlzRepresents data.bytes (header.width * header.height)
      ⟨⟨offsetOf data.bytes (data.bytes.drop glzHeaderLen), 0,
        List.replicate (4 * (header.width * header.height)) 0⟩, 0⟩
      (data.bytes.drop glzHeaderLen) 0 [] :=
    ⟨Represents.start suffix _ total_pos, rfl⟩
  have drawn := loop_refines_drawSegments
    (glzRound_follows data.bounded small header.imageId dictionary) 0 started (Nat.le_refl _)
    (show (data.bytes.drop glzHeaderLen).length < data.bytes.length + 1 from
      Nat.lt_succ_of_le suffix.length_le)
  rw [offsetOf_drop long] at drawn
  rw [decompressGlz, read, ok_bind, accepted, length_eq, Nat.mul_comm _ 4]
  refine drawn.bind_ok fun state pixels ⟨rest, _, represents, _⟩ => ?_
  obtain ⟨image, finished, same⟩ := finishImage_canvas header.topDown accepted header.imageId
    header.winHeadDist represents.fits
  exact ⟨image, by rw [represents.output, finished], same⟩

/-- No run length exceeds a machine word, no reference of two or more pixels reaches exactly one
pixel before the first, and no skip leaves the range of the write offset. -/
def GlzSafe (data : Bytes) (dictionary : Nat → Nat → GlzLookup) : Prop :=
  ∀ header, read data = .ok header → (rgbaLen header.width header.height).isSome →
    SegmentsSafe (glzWindow header.imageId dictionary) (header.width * header.height)
      (glzSegments (data.drop glzHeaderLen)) 0 0

/-- The decoder returns exactly on the safe streams; on every other input it overflows. -/
theorem decompressGlz_returns_iff (data : Slice) (dictionary : Nat → Nat → GlzLookup) :
    (decompressGlz data dictionary).Ensures
        (fun image => image.pixels.length = image.width * image.height * 4) ↔
      GlzSafe data.bytes dictionary := by
  cases read : read data.bytes with
  | error reason => simp [decompressGlz, GlzSafe, read]
  | fault cause =>
    have ensured := read_ensures data.bytes
    rw [read] at ensured
    exact ensured.elim
  | ok header =>
    cases accepted : rgbaLen header.width header.height with
    | none => simp [decompressGlz, GlzSafe, read, accepted]
    | some length =>
      have safe_iff : GlzSafe data.bytes dictionary ↔
          SegmentsSafe (glzWindow header.imageId dictionary) (header.width * header.height)
            (glzSegments (data.bytes.drop glzHeaderLen)) 0 ([] : List Rgba).length := by
        simp [GlzSafe, read, accepted]
      rw [safe_iff, ← drawSegments_returns_iff (glzSegments_wellFormed _) (Nat.zero_le _)]
      exact (decompressGlz_refines dictionary read accepted).ensures_iff
        DecompressedImage.length_pixels

def glzReachBefore : Slice where
  bytes := lzMagic ++ [0, 1, 0, 0, 0x18, 0, 0, 0, 2, 0, 0, 0, 1, 0, 0, 0, 8] ++
    [0, 0, 0, 0, 0, 0, 0, 1, 0, 0, 0, 0] ++ [0, 10, 20, 30] ++ [0x21, 0, 0]
  bounded := by decide

/-- The copy of that image overflows, so the decoder returns neither an image nor an error. -/
theorem decompressGlz_glzReachBefore_faults :
    ¬ (decompressGlz glzReachBefore fun _ _ => ⟨none, false, none⟩).Ensures
      (fun image => image.pixels.length = image.width * image.height * 4) := by
  exact Outcome.not_ensures_fault

end Ryll
