import Ryll.Compression.Rows
import Ryll.Foundation.Blocks

/-!
# LZ4 images

The body of an LZ4 image is a row order, a pixel format and blocks behind their lengths.  The
blocks decode in order into one buffer, which is then converted in place or row by row.
-/

namespace Ryll

open List DecompressedImage

/-- The `SPICE_BITMAP_FMT_*` values an LZ4 image can carry. -/
inductive BitmapFmt
  | bit16
  | bit24
  | bit32
  | rgba
  deriving DecidableEq

namespace BitmapFmt

def ofCode (code : UInt8) : Option BitmapFmt :=
  if code = 6 then some bit16
  else if code = 7 then some bit24
  else if code = 8 then some bit32
  else if code = 9 then some rgba
  else none

def bpp : BitmapFmt → Nat
  | bit16 => 2
  | bit24 => 3
  | bit32 | rgba => 4

theorem bpp_pos (format : BitmapFmt) : 0 < format.bpp := by
  cases format <;> decide

end BitmapFmt

/-- Block decompression of lz4_flex: what is written to an output slice of `room` bytes. -/
structure Lz4Flex where
  decompressIntoWithDict (block : Bytes) (room : Nat) (dict : Bytes) :
    Option Bytes
  /-- Nothing is written past the output slice. -/
  fits {block : Bytes} {room : Nat} {dict written : Bytes} :
    decompressIntoWithDict block room dict = some written → written.length ≤ room

def lz4MaxDistance : Nat := 64 * 1024

/-- The end of the output so far that a match can reach. -/
def recent (done : Bytes) : Bytes := done.drop (done.length - lz4MaxDistance)

def checkedMul (left right : Nat) : Option Nat :=
  if left * right < 2 ^ 64 then some (left * right) else none

def Lz4Flex.decodeBlocks (flex : Lz4Flex) (total : Nat) (blocks done : Bytes) :
    Option Bytes :=
  if blocks = [] then
    if done.length = total then some done else none
  else if blocks.length < 4 then
    none
  else
    let len := bigEndian (blocks.take 4)
    let rest := blocks.drop 4
    if rest.length < len then
      none
    else if done.length = total then
      none
    else
      match flex.decompressIntoWithDict (rest.take len) (total - done.length) (recent done) with
      | none => none
      | some written => flex.decodeBlocks total (rest.drop len) (done ++ written)
termination_by blocks.length
decreasing_by
  simp only [length_drop]
  omega

def expandChannel (value : UInt16) : UInt8 :=
  let value := (value &&& 0x1f).toUInt8
  (value <<< 3) ||| (value >>> 2)

def convertCell : BitmapFmt → Bytes → Rgba
  | .bit16, cell =>
    let value := UInt16.ofNat (littleEndian cell)
    ⟨expandChannel (value >>> 10), expandChannel (value >>> 5), expandChannel value, 255⟩
  | .bit24, [b, g, r] => ⟨r, g, b, 255⟩
  | .rgba, [b, g, r, a] => ⟨r, g, b, a⟩
  | .bit32, [b, g, r, _] => ⟨r, g, b, 255⟩
  | _, _ => Rgba.zero

variable (format : BitmapFmt)

def convertRow (src dst : Bytes) : Bytes :=
  ((chunksExact format.bpp src).zipWith (fun cell _ => (convertCell format cell).bytes)
    (chunksExact 4 dst)).flatten

def convertRows (topDown : Bool) (width rowBytes : Nat) (decoded rgba : Bytes) : Bytes :=
  let srcRows := chunksExact rowBytes decoded
  let dstRows := chunksExact (width * 4) rgba
  if topDown then (srcRows.zipWith (convertRow format) dstRows).flatten
  else (srcRows.zipWith (convertRow format) dstRows.reverse).reverse.flatten

def swapPixel (hasAlpha : Bool) : Bytes → Bytes
  | [b, g, r, a] => [r, g, b, if hasAlpha then a else 255]
  | cell => cell

def swapRows (rowBytes : Nat) (pixels : Bytes) : Bytes :=
  let rows := pixels.length / rowBytes
  let top := pixels.take (rows / 2 * rowBytes)
  let bottom := pixels.drop (rows / 2 * rowBytes)
  -- With an odd row count the middle row stays where it is.
  let middle := bottom.take (rows % 2 * rowBytes)
  let bottom := bottom.drop (rows % 2 * rowBytes)
  let swapped :=
    ((chunksExact rowBytes top).zip (chunksExact rowBytes bottom).reverse).map Prod.swap
  (swapped.map Prod.fst).flatten ++ middle ++ (swapped.map Prod.snd).reverse.flatten

def bgraToRgbaInPlace (pixels : Bytes) (width : Nat) (hasAlpha topDown : Bool) : Bytes :=
  let pixels := ((chunksExact 4 pixels).map (swapPixel hasAlpha)).flatten
  if topDown then pixels else swapRows (width * 4) pixels

def rgbaOf (topDown : Bool) (width rowBytes rgbaSize : Nat) (decoded : Bytes) : Bytes :=
  if format.bpp = 4 then bgraToRgbaInPlace decoded width (format = .rgba) topDown
  else convertRows format topDown width rowBytes decoded (List.replicate rgbaSize 0)

/-- Decode an LZ4 image. -/
def decompressSpiceLz4 (flex : Lz4Flex) (data : Bytes) (width height : Nat) :
    Option DecompressedImage :=
  match data with
  | topDown :: code :: blocks => do
    let format ← BitmapFmt.ofCode code
    let rgbaSize ← rgbaLen width height
    let rowBytes ← checkedMul width format.bpp
    if blocks = [] then
      none
    else
      let total ← checkedMul rowBytes height
      let decoded ← flex.decodeBlocks total blocks []
      new width height
        (rgbaOf format (topDown ≠ 0) width rowBytes rgbaSize decoded) 0
  | _ => none

/-! ## The blocks -/

def frameBlock (block : Bytes) : Bytes := toBigEndian 4 block.length ++ block

namespace Lz4Flex

/-- Decoding the blocks in order, with dictionaries of the output so far, completes the output. -/
def Yields (flex : Lz4Flex) (dictOf : Bytes → Bytes) (total : Nat) :
    (blocks : List Bytes) → (done bytes : Bytes) → Prop
  | [], done, bytes => done = bytes ∧ done.length = total
  | block :: blocks, done, bytes =>
    done.length < total ∧ ∃ written,
        flex.decompressIntoWithDict block (total - done.length) (dictOf done) = some written ∧
          flex.Yields dictOf total blocks (done ++ written) bytes

variable {flex : Lz4Flex} {total : Nat} {done bytes : Bytes}
  {dictOf : Bytes → Bytes} {blocks : List Bytes}

theorem Yields.length (yields : flex.Yields dictOf total blocks done bytes) :
    bytes.length = total := by
  induction blocks generalizing done with
  | nil => exact yields.1 ▸ yields.2
  | cons block blocks ih =>
    obtain ⟨-, written, -, rest⟩ := yields
    exact ih rest

theorem yields_congr {dictOf' : Bytes → Bytes}
    (same : ∀ block room done, flex.decompressIntoWithDict block room (dictOf done) =
      flex.decompressIntoWithDict block room (dictOf' done)) :
    flex.Yields dictOf total blocks done bytes ↔ flex.Yields dictOf' total blocks done bytes := by
  induction blocks generalizing done with
  | nil => rfl
  | cons block blocks ih => simp only [Yields, same, ih]

theorem decodeBlocks_frameBlock {block : Bytes} (short : block.length < 2 ^ 32)
    (rest done : Bytes) :
    flex.decodeBlocks total (frameBlock block ++ rest) done = if done.length = total then none
      else (flex.decompressIntoWithDict block (total - done.length) (recent done)).bind
        fun written => flex.decodeBlocks total rest (done ++ written) := by
  have four : (toBigEndian 4 block.length).length = 4 := length_toBigEndian 4 _
  have body : frameBlock block ++ rest = toBigEndian 4 block.length ++ (block ++ rest) := by
    rw [frameBlock, append_assoc]
  have some_bytes : toBigEndian 4 block.length ++ (block ++ rest) ≠ [] := by
    intro none_left
    simp [(append_eq_nil_iff.mp none_left).1] at four
  rw [decodeBlocks, body, if_neg some_bytes, if_neg (by rw [length_append]; omega),
    take_left' four, drop_left' four, bigEndian_toBigEndian (by omega)]
  rw [if_neg (by rw [length_append]; omega), take_left, drop_left]
  split
  · rfl
  · cases flex.decompressIntoWithDict block (total - done.length) (recent done) <;> rfl

theorem exists_frameBlock {body : Bytes} (some_bytes : body ≠ [])
    (decoded : flex.decodeBlocks total body done = some bytes) :
    ∃ block rest, block.length < 2 ^ 32 ∧ body = frameBlock block ++ rest := by
  rw [decodeBlocks, if_neg some_bytes] at decoded
  split at decoded
  · nomatch decoded
  next prefixed =>
  dsimp only at decoded
  split at decoded
  · nomatch decoded
  next inside =>
  have four : (body.take 4).length = 4 := by
    rw [length_take]
    omega
  have len_lt := bigEndian_lt (body.take 4)
  have framed := toBigEndian_bigEndian (body.take 4)
  rw [four] at len_lt framed
  have length : ((body.drop 4).take (bigEndian (body.take 4))).length =
      bigEndian (body.take 4) := by
    rw [length_take]
    omega
  refine ⟨(body.drop 4).take (bigEndian (body.take 4)),
    (body.drop 4).drop (bigEndian (body.take 4)), by omega, ?_⟩
  rw [frameBlock, length, framed, append_assoc, take_append_drop, take_append_drop]

theorem decodeBlocks_eq_some {body : Bytes} (fits : done.length ≤ total) :
    flex.decodeBlocks total body done = some bytes ↔
      ∃ blocks : List Bytes, body = blocks.flatMap frameBlock ∧
        (∀ block ∈ blocks, block.length < 2 ^ 32) ∧ flex.Yields recent total blocks done bytes := by
  constructor
  · intro decoded
    induction length : body.length using Nat.strong_induction_on generalizing body done with
    | h size ih =>
    by_cases empty : body = []
    · rw [decodeBlocks, if_pos empty] at decoded
      obtain ⟨complete, decoded⟩ := Option.ite_none_right_eq_some.mp decoded
      exact ⟨[], empty, nofun, Option.some.inj decoded, complete⟩
    obtain ⟨block, rest, short, rfl⟩ := exists_frameBlock empty decoded
    rw [decodeBlocks_frameBlock short] at decoded
    split at decoded
    · nomatch decoded
    next incomplete =>
    obtain ⟨written, wrote, decoded⟩ := Option.bind_eq_some_iff.mp decoded
    have written_le := flex.fits wrote
    have shorter : rest.length < size := by
      rw [← length, length_append, frameBlock, length_append, length_toBigEndian]
      omega
    obtain ⟨blocks, rfl, all_short, yields⟩ :=
      ih rest.length shorter (by rw [length_append]; omega) decoded rfl
    refine ⟨block :: blocks, rfl, ?_, by omega, written, wrote, yields⟩
    rintro other (_ | ⟨_, listed⟩)
    · exact short
    · exact all_short other listed
  · rintro ⟨blocks, rfl, short, yields⟩
    induction blocks generalizing done with
    | nil =>
      rw [flatMap_nil, decodeBlocks, if_pos rfl, if_pos yields.2, yields.1]
    | cons block blocks ih =>
      obtain ⟨incomplete, written, wrote, rest⟩ := yields
      have written_le := flex.fits wrote
      rw [flatMap_cons, decodeBlocks_frameBlock (short block mem_cons_self),
        if_neg (by omega), wrote, Option.bind_some]
      exact ih (by rw [length_append]; omega)
        (fun other listed => short other (.tail block listed)) rest

end Lz4Flex

/-! ## The pixels -/

theorem flat_flatten (rows : List (List Rgba)) : flat rows.flatten = (rows.map flat).flatten := by
  induction rows with
  | nil => rfl
  | cons row rows ih => simp [ih]

theorem mirrorRows_eq_chunks {α : Type} (width : Nat) (cells : List α) (height : Nat) :
    mirrorRows width cells height = (chunks width height cells).reverse.flatten := by
  induction height with
  | zero => rfl
  | succ height ih =>
    rw [mirrorRows, ih, chunks, chunks, range_succ]
    simp [blockAt]

def decodedPixels (format : BitmapFmt) (count : Nat) (bytes : Bytes) : List Rgba :=
  (chunks format.bpp count bytes).map (convertCell format)

variable (format : BitmapFmt)

theorem length_decodedPixels (count : Nat) (bytes : Bytes) :
    (decodedPixels format count bytes).length = count := by
  simp [decodedPixels]

theorem swapped_halves {α : Type} {top bottom : List α} (same : top.length = bottom.length) :
    ((top.zip bottom.reverse).map Prod.swap).map Prod.fst = bottom.reverse ∧
      ((top.zip bottom.reverse).map Prod.swap).map Prod.snd = top := by
  rw [map_map, map_map]
  exact ⟨map_snd_zip (by simp [same]), map_fst_zip (by simp [same])⟩

variable {height width : Nat} {bytes : Bytes}

theorem swapRows_eq {rowBytes : Nat} {pixels : Bytes} (positive : 0 < rowBytes)
    (sized : pixels.length = height * rowBytes) :
    swapRows rowBytes pixels = mirrorRows rowBytes pixels height := by
  have rows : pixels.length / rowBytes = height := by
    rw [sized, Nat.mul_div_cancel _ positive]
  obtain ⟨half, odd, odd_le, halved, rest, rfl⟩ : ∃ half odd, odd ≤ 1 ∧ height / 2 = half ∧
      height % 2 = odd ∧ height = half + (odd + half) :=
    ⟨height / 2, height % 2, by omega, rfl, rfl, by omega⟩
  rw [Nat.add_mul, Nat.add_mul] at sized
  have lower_length : ((pixels.drop (half * rowBytes)).drop (odd * rowBytes)).length =
      half * rowBytes := by
    rw [length_drop, length_drop]
    omega
  have upper : chunksExact rowBytes (pixels.take (half * rowBytes)) =
      chunks rowBytes half pixels := by
    rw [chunksExact, length_take, Nat.min_eq_left (by omega), Nat.mul_div_cancel _ positive,
      chunks_take (Nat.le_refl _)]
  have lower : chunksExact rowBytes ((pixels.drop (half * rowBytes)).drop (odd * rowBytes)) =
      chunks rowBytes half ((pixels.drop (half * rowBytes)).drop (odd * rowBytes)) := by
    rw [chunksExact, lower_length, Nat.mul_div_cancel _ positive]
  have middle : (chunks rowBytes odd (pixels.drop (half * rowBytes))).reverse =
      chunks rowBytes odd (pixels.drop (half * rowBytes)) := by
    obtain rfl | rfl : odd = 0 ∨ odd = 1 := by omega
    · rfl
    · rfl
  unfold swapRows
  rw [rows]
  dsimp only
  rw [halved, rest, upper, lower, (swapped_halves (by simp)).1, (swapped_halves (by simp)).2,
    mirrorRows_eq_chunks, chunks_add, chunks_add, reverse_append, reverse_append, middle,
    flatten_append, flatten_append, flatten_chunks odd]

theorem zipWith_eq_map {α β γ : Type} {combine : α → β → γ} {convert : α → γ} {left : List α}
    {right : List β} (long : left.length = right.length)
    (agree : ∀ a ∈ left, ∀ b ∈ right, combine a b = convert a) :
    left.zipWith combine right = left.map convert := by
  induction left generalizing right with
  | nil => rfl
  | cons a left ih =>
    cases right with
    | nil => nomatch long
    | cons b right =>
      rw [zipWith_cons_cons, map_cons, agree a mem_cons_self b mem_cons_self,
        ih (Nat.succ.inj long) fun a' listed b' listed' =>
          agree a' (.tail a listed) b' (.tail b listed')]

theorem convertRow_eq {src dst : Bytes}
    (src_sized : src.length = width * format.bpp) (dst_sized : dst.length = width * 4) :
    convertRow format src dst = flat (decodedPixels format width src) := by
  have src_cells : chunksExact format.bpp src = chunks format.bpp width src := by
    rw [chunksExact, src_sized, Nat.mul_div_cancel _ format.bpp_pos]
  have dst_cells : chunksExact 4 dst = chunks 4 width dst := by
    rw [chunksExact, dst_sized, Nat.mul_div_cancel _ (by decide)]
  rw [convertRow, src_cells, dst_cells, decodedPixels, flat, flatMap_map, flatMap_def]
  exact congrArg List.flatten (zipWith_eq_map (by simp) fun _ _ _ _ => rfl)

theorem convertRows_eq (topDown : Bool) {rgba : Bytes}
    (positive : 0 < width) (sized : bytes.length = height * (width * format.bpp))
    (rgba_sized : rgba.length = height * (width * 4)) :
    convertRows format topDown width (width * format.bpp) bytes rgba =
      flat (displayOrder topDown width height (decodedPixels format (height * width) bytes)) := by
  have src_rows : chunksExact (width * format.bpp) bytes =
      chunks (width * format.bpp) height bytes := by
    rw [chunksExact, sized, Nat.mul_div_cancel _ (Nat.mul_pos positive format.bpp_pos)]
  have dst_rows : chunksExact (width * 4) rgba = chunks (width * 4) height rgba := by
    rw [chunksExact, rgba_sized, Nat.mul_div_cancel _ (by omega)]
  have converted : ∀ src ∈ chunks (width * format.bpp) height bytes,
      ∀ dst ∈ chunks (width * 4) height rgba,
        convertRow format src dst = flat (decodedPixels format width src) :=
    fun src source dst destination => convertRow_eq format
      (length_of_mem_chunks (by rw [sized]) src source)
      (length_of_mem_chunks (by rw [rgba_sized]) dst destination)
  -- The pixels, one list for each row of the stream.
  let rows := (chunks (width * format.bpp) height bytes).map (decodedPixels format width)
  have joined : decodedPixels format (height * width) bytes = rows.flatten := by
    rw [decodedPixels, chunks_mul, map_flatMap, flatMap_def]
    rfl
  unfold convertRows
  rw [src_rows, dst_rows, joined]
  cases topDown with
  | true =>
    rw [if_pos rfl, zipWith_eq_map (by simp) converted, displayOrder, if_pos rfl, flat_flatten,
      map_map]
    rfl
  | false =>
    have mirrored : mirrorRows width rows.flatten height = rows.reverse.flatten := by
      have sized_rows : ∀ row ∈ rows, row.length = width := by
        intro row listed
        obtain ⟨src, -, rfl⟩ := mem_map.mp listed
        exact length_decodedPixels format width src
      have divided := chunks_flatten sized_rows
      rw [length_map, length_chunks] at divided
      rw [mirrorRows_eq_chunks, divided]
    rw [if_neg Bool.false_ne_true, zipWith_eq_map (by simp) fun src source dst destination =>
      converted src source dst (mem_reverse.mp destination), displayOrder,
      if_neg Bool.false_ne_true, mirrored, flat_flatten, map_reverse, map_map]
    rfl

theorem rgbaOf_eq (topDown : Bool) (positive : 0 < width)
    (sized : bytes.length = width * format.bpp * height) :
    rgbaOf format topDown width (width * format.bpp) (width * height * 4) bytes =
      flat (displayOrder topDown width height (decodedPixels format (height * width) bytes)) := by
  rw [Nat.mul_comm] at sized
  rw [rgbaOf]
  split
  · next four =>
    rw [four, ← Nat.mul_assoc] at sized
    have cells : chunksExact 4 bytes = chunks 4 (height * width) bytes := by
      rw [chunksExact, sized, Nat.mul_div_cancel _ (by decide)]
    have swapped : ((chunksExact 4 bytes).map (swapPixel (format = .rgba))).flatten =
        flat (decodedPixels format (height * width) bytes) := by
      rw [cells, decodedPixels, four, flat, flatMap_map, flatMap_def]
      refine congrArg List.flatten (map_congr_left fun cell listed => ?_)
      have length := length_of_mem_chunks (by rw [sized]) cell listed
      obtain ⟨b, g, r, a, rfl⟩ := length_eq_four.mp length
      cases format with
      | bit16 | bit24 => cases four
      | bit32 => rfl
      | rgba => rfl
    unfold bgraToRgbaInPlace
    rw [swapped]
    cases topDown with
    | true => rfl
    | false =>
      have length : (flat (decodedPixels format (height * width) bytes)).length =
          height * (width * 4) := by
        rw [length_flat, length_decodedPixels]
        ring
      exact (swapRows_eq (by omega) length).trans (mirrorRows_flat width _ height)
  · exact convertRows_eq format topDown positive sized (by rw [length_replicate]; ring)

/-! ## The image -/

section Image

variable {flex : Lz4Flex} {data : Bytes} {width height : Nat} {image : DecompressedImage}

theorem decompressSpiceLz4_cons {format : BitmapFmt} {code : UInt8} {rgbaSize : Nat}
    (named : BitmapFmt.ofCode code = some format) (accepted : rgbaLen width height = some rgbaSize)
    (topDown : UInt8) (body : Bytes) :
    decompressSpiceLz4 flex (topDown :: code :: body) width height = if body = [] then none
      else (flex.decodeBlocks (width * format.bpp * height) body []).bind fun decoded =>
        new width height
          (rgbaOf format (topDown ≠ 0) width (width * format.bpp) rgbaSize decoded) 0 := by
  obtain ⟨-, -, narrow, low, -, -⟩ := rgbaLen_eq_some.mp accepted
  have row_le : width * format.bpp ≤ 16384 * 4 := Nat.mul_le_mul narrow (by cases format <;> decide)
  have total_le : width * format.bpp * height ≤ 16384 * 4 * 16384 := Nat.mul_le_mul row_le low
  simp only [decompressSpiceLz4, named, accepted, checkedMul, Option.bind_eq_bind,
    Option.bind_some, show width * format.bpp < 2 ^ 64 by omega,
    show width * format.bpp * height < 2 ^ 64 by omega, if_true]

theorem new_eq_some {pixels : Bytes} {imageId : Nat} :
    new width height pixels imageId = some image ↔
      rgbaLen width height = some pixels.length ∧ image.width = width ∧ image.height = height ∧
        image.imageId = imageId ∧ image.winHeadDist = 0 ∧ image.pixels = pixels := by
  rw [new, newGlz]
  constructor
  · intro made
    split at made
    · next sized =>
      cases made
      exact ⟨sized, rfl, rfl, rfl, rfl, rfl⟩
    · nomatch made
  · rintro ⟨sized, rfl, rfl, rfl, head, rfl⟩
    rw [dif_pos sized, ← head]

/-- The body of an image: blocks that complete its output, and the pixels these decode to. -/
structure Lz4Body (flex : Lz4Flex) (dictOf : Bytes → Bytes) (data : Bytes)
    (width height : Nat) (pixels : List Rgba) : Prop where
  dimensions : (rgbaLen width height).isSome
  holds : ∃ topDown code format blocks bytes, data = topDown :: code :: blocks.flatMap frameBlock ∧
    BitmapFmt.ofCode code = some format ∧ blocks ≠ [] ∧
    (∀ block ∈ blocks, block.length < 2 ^ 32) ∧
    flex.Yields dictOf (width * format.bpp * height) blocks [] bytes ∧
    pixels = displayOrder (topDown ≠ 0) width height (decodedPixels format (height * width) bytes)

theorem decompressSpiceLz4_iff : decompressSpiceLz4 flex data width height = some image ↔
      ∃ pixels, Lz4Body flex recent data width height pixels ∧ image.width = width ∧
        image.height = height ∧ image.imageId = 0 ∧ image.winHeadDist = 0 ∧
        image.pixels = flat pixels := by
  constructor
  · intro returned
    match data with
    | [] | [_] => nomatch returned
    | topDown :: code :: body =>
      cases named : BitmapFmt.ofCode code with
      | none =>
        rw [decompressSpiceLz4, named] at returned
        nomatch returned
      | some format =>
        cases accepted : rgbaLen width height with
        | none =>
          rw [decompressSpiceLz4, named, accepted] at returned
          nomatch returned
        | some rgbaSize =>
          rw [decompressSpiceLz4_cons named accepted] at returned
          split at returned
          · nomatch returned
          next some_bytes =>
          obtain ⟨bytes, decoded, made⟩ := Option.bind_eq_some_iff.mp returned
          obtain ⟨blocks, rfl, short, yields⟩ :=
            (Lz4Flex.decodeBlocks_eq_some (Nat.zero_le _)).mp decoded
          obtain ⟨positive, -, -, -, -, rfl⟩ := rgbaLen_eq_some.mp accepted
          rw [rgbaOf_eq format _ positive yields.length] at made
          refine ⟨_, ⟨by rw [accepted]; rfl, topDown, code, format, blocks, bytes, rfl, named, ?_,
            short, yields, rfl⟩, (new_eq_some.mp made).2⟩
          rintro rfl
          exact some_bytes rfl
  · rintro ⟨_, ⟨dimensions, topDown, code, format, blocks, bytes, rfl, named, some_blocks, short,
      yields, rfl⟩, shown⟩
    obtain ⟨rgbaSize, accepted⟩ := Option.isSome_iff_exists.mp dimensions
    have decoded := (Lz4Flex.decodeBlocks_eq_some (Nat.zero_le _)).mpr ⟨blocks, rfl, short, yields⟩
    have some_bytes : blocks.flatMap frameBlock ≠ [] := by
      obtain ⟨block, rest, rfl⟩ := exists_cons_of_ne_nil some_blocks
      intro none_left
      simpa [frameBlock] using congrArg List.length none_left
    obtain ⟨positive, -, -, -, -, rfl⟩ := rgbaLen_eq_some.mp accepted
    rw [decompressSpiceLz4_cons named accepted, if_neg some_bytes, decoded, Option.bind_some,
      rgbaOf_eq format _ positive yields.length, new_eq_some]
    refine ⟨?_, shown⟩
    rw [accepted, length_flat, length_displayOrder (by rw [length_decodedPixels, Nat.mul_comm]),
      Nat.mul_comm 4]

/-- An image is returned exactly for a supported format, accepted dimensions and blocks of which the
last completes the output.  With `recent` as the dictionary nothing is asked of lz4_flex. -/
theorem lz4_image_decoded {dictOf : Bytes → Bytes}
    (reach : ∀ block room done, flex.decompressIntoWithDict block room (dictOf done) =
      flex.decompressIntoWithDict block room (recent done)) :
    decompressSpiceLz4 flex data width height = some image ↔
      ∃ pixels, Lz4Body flex dictOf data width height pixels ∧ image.width = width ∧
        image.height = height ∧ image.imageId = 0 ∧ image.winHeadDist = 0 ∧
        image.pixels = flat pixels := by
  rw [decompressSpiceLz4_iff]
  refine exists_congr fun pixels => and_congr_left fun _ => ?_
  constructor
  all_goals
    rintro ⟨dimensions, topDown, code, format, blocks, bytes, body, named, some_blocks, short,
      yields, shown⟩
    refine ⟨dimensions, topDown, code, format, blocks, bytes, body, named, some_blocks, short, ?_,
      shown⟩
  · exact (Lz4Flex.yields_congr reach).mpr yields
  · exact (Lz4Flex.yields_congr reach).mp yields

/-- The length bytes that follow the token of fifteen or more literals. -/
def moreLength (count : Nat) : Bytes :=
  List.replicate (count / 255) 255 ++ [UInt8.ofNat (count % 255)]

def readMoreLength : Bytes → Option (Nat × Bytes)
  | [] => none
  | byte :: rest =>
    if byte = 255 then (readMoreLength rest).map fun read => (read.1 + 255, read.2)
    else some (byte.toNat, rest)

/-- An LZ4 block of literals: a token, length bytes where it cannot tell, and the literals. -/
def literalBlock (bytes : Bytes) : Bytes :=
  if bytes.length < 15 then UInt8.ofNat (bytes.length * 16) :: bytes
  else 0xF0 :: (moreLength (bytes.length - 15) ++ bytes)

/-- Decompress a block of literals; blocks with a match are refused. -/
def readLiterals : Bytes → Option Bytes
  | [] => none
  | token :: rest => do
    let (count, literals) ←
      if token = 0xF0 then (readMoreLength rest).map fun read => (read.1 + 15, read.2)
      else some (token.toNat / 16, rest)
    if token.toNat % 16 = 0 ∧ literals.length = count then some literals else none

theorem readMoreLength_moreLength (count : Nat) (rest : Bytes) :
    readMoreLength (moreLength count ++ rest) = some (count, rest) := by
  have digit : (UInt8.ofNat (count % 255)).toNat = count % 255 :=
    UInt8.toNat_ofNat_of_lt' (by rw [UInt8.size]; omega)
  have last : UInt8.ofNat (count % 255) ≠ 255 := by
    intro full
    rw [full] at digit
    have small : count % 255 < 255 := Nat.mod_lt _ (by decide)
    exact absurd digit (Nat.ne_of_gt small)
  have continued (full : Nat) : readMoreLength (List.replicate full 255 ++
      (UInt8.ofNat (count % 255) :: rest)) = some (255 * full + count % 255, rest) := by
    induction full with
    | zero =>
      rw [List.replicate_zero, nil_append, readMoreLength, if_neg last, digit, Nat.mul_zero,
        Nat.zero_add]
    | succ full ih =>
      rw [List.replicate_succ, cons_append, readMoreLength, if_pos rfl, ih, Option.map_some]
      congr 2
      omega
  rw [moreLength, append_assoc, singleton_append, continued, Nat.div_add_mod]

theorem readLiterals_literalBlock (bytes : Bytes) :
    readLiterals (literalBlock bytes) = some bytes := by
  rw [literalBlock]
  split
  · next short =>
    have token : (UInt8.ofNat (bytes.length * 16)).toNat = bytes.length * 16 :=
      UInt8.toNat_ofNat_of_lt' (by rw [UInt8.size]; omega)
    have other : UInt8.ofNat (bytes.length * 16) ≠ 0xF0 := by
      intro same
      rw [same] at token
      have full : (0xF0 : UInt8).toNat = 240 := rfl
      omega
    rw [readLiterals, if_neg other, token, Nat.mul_div_cancel _ (by decide),
      Nat.mul_mod_left]
    exact if_pos ⟨rfl, rfl⟩
  · next long =>
    rw [readLiterals, if_pos rfl, readMoreLength_moreLength, Option.map_some,
      Nat.sub_add_cancel (Nat.not_lt.mp long)]
    exact if_pos ⟨rfl, rfl⟩

/-- What lz4_flex makes of blocks of literals. -/
def literalFlex : Lz4Flex where
  decompressIntoWithDict block room _ := (readLiterals block).filter (·.length ≤ room)
  fits {_ _ _ _} wrote := by simpa using (Option.filter_eq_some_iff.mp wrote).2

/-- Two blocks of literals, one for each row, from the bottom up. -/
theorem literal_rows_decoded :
    ∃ image, decompressSpiceLz4 literalFlex
        [0, 9, 0, 0, 0, 5, 0x40, 1, 2, 3, 4, 0, 0, 0, 5, 0x40, 5, 6, 7, 8] 1 2 = some image ∧
      image.pixels = [7, 6, 5, 8, 3, 2, 1, 4] := by
  refine ⟨⟨1, 2, [7, 6, 5, 8, 3, 2, 1, 4], 0, 0, rfl⟩, (@lz4_image_decoded literalFlex _ _ _ _ id
    fun _ _ _ => rfl).mpr ⟨[⟨7, 6, 5, 8⟩, ⟨3, 2, 1, 4⟩], ⟨rfl, 0, 9, .rgba,
      [[0x40, 1, 2, 3, 4], [0x40, 5, 6, 7, 8]], [1, 2, 3, 4, 5, 6, 7, 8], by decide, rfl, nofun,
      by decide, ⟨by decide, [1, 2, 3, 4], rfl, by decide, [5, 6, 7, 8], rfl, rfl, rfl⟩,
      by decide⟩, rfl, rfl, rfl, rfl, rfl⟩, rfl⟩

end Image

/-! ## Encoding -/

/-- Both directions of lz4_flex.  What an accepted image compresses to fits its length field. -/
structure Lz4Codec extends Lz4Flex where
  compress : Bytes → Bytes
  inverts (bytes : Bytes) :
    decompressIntoWithDict (compress bytes) bytes.length [] = some bytes
  compress_short (bytes : Bytes) :
    bytes.length ≤ maxImagePixels * 4 → (compress bytes).length < 2 ^ 32

namespace Bgrx

def rows (image : Bgrx) : List Bytes :=
  ((chunks image.stride ((image.data.length + image.stride - 1) / image.stride) image.data).take
    image.height).map (List.take (image.width * 4))

def packed (image : Bgrx) : Bytes := image.rows.flatten

/-- The pixel of a column and row, with blue and red exchanged and opaque. -/
def pixelAt (image : Bgrx) (y x : Nat) : Rgba :=
  let byte (k : Nat) := image.data.getD (y * image.stride + (x * 4 + k)) 0
  ⟨byte 2, byte 1, byte 0, 255⟩

/-- What acceptance says about the data of an image. -/
structure Valid (image : Bgrx) : Prop where
  accepted : (rgbaLen image.width image.height).isSome
  row_le : image.width * 4 ≤ image.stride
  enough : image.stride * (image.height - 1) + image.width * 4 ≤ image.data.length

theorem new_eq_some {data : Bytes} {width height stride : Nat} {image : Bgrx}
    (made : Bgrx.new data width height stride = some image) :
    image = ⟨data, width, height, stride⟩ ∧ image.Valid := by
  obtain ⟨length, accepted, made⟩ := Option.bind_eq_some_iff.mp made
  dsimp only at made
  split at made
  · nomatch made
  next row_le =>
  split at made
  · nomatch made
  next enough =>
  cases made
  exact ⟨rfl, by rw [accepted]; rfl, Nat.le_of_not_lt row_le, by dsimp only; omega⟩

variable {image image' : Bgrx}

section

variable (valid : image.Valid)
include valid

theorem Valid.row_inside {y : Nat} (on : y < image.height) :
    y * image.stride + image.width * 4 ≤ image.data.length := by
  have below : y * image.stride ≤ (image.height - 1) * image.stride :=
    Nat.mul_le_mul_right _ (by omega)
  have enough := valid.enough
  rw [Nat.mul_comm] at enough
  omega

theorem Valid.positive : 0 < image.width ∧ 0 < image.height := by
  obtain ⟨length, accepted⟩ := Option.isSome_iff_exists.mp valid.accepted
  obtain ⟨width_pos, height_pos, -⟩ := rgbaLen_eq_some.mp accepted
  exact ⟨width_pos, height_pos⟩

theorem rows_eq : image.rows = (List.range image.height).map fun y =>
      (image.data.drop (y * image.stride)).take (image.width * 4) := by
  obtain ⟨width_pos, height_pos⟩ := valid.positive
  have row_le := valid.row_le
  have last := valid.row_inside (show image.height - 1 < image.height by omega)
  have count : image.height ≤ (image.data.length + image.stride - 1) / image.stride := by
    rw [Nat.le_div_iff_mul_le (by omega)]
    obtain ⟨above, height⟩ := Nat.exists_eq_succ_of_ne_zero (Nat.ne_of_gt height_pos)
    rw [height, Nat.succ_sub_one] at last
    rw [height, Nat.succ_mul]
    omega
  obtain ⟨more, count⟩ := Nat.exists_eq_add_of_le count
  rw [rows, count, chunks_add, take_left' length_chunks, chunks, map_map]
  refine map_congr_left fun y _ => ?_
  rw [Function.comp_apply, blockAt, take_take, Nat.min_eq_left row_le]

theorem length_of_mem_rows : ∀ row ∈ image.rows, row.length = image.width * 4 := by
  intro row listed
  rw [rows_eq valid] at listed
  obtain ⟨y, on, rfl⟩ := mem_map.mp listed
  have inside := valid.row_inside (mem_range.mp on)
  rw [length_take, length_drop]
  omega

theorem length_rows : image.rows.length = image.height := by
  rw [rows_eq valid, length_map, length_range]

theorem length_packed : image.packed.length = image.height * (image.width * 4) := by
  rw [packed, length_flatten, map_congr_left (length_of_mem_rows valid),
    map_const', sum_replicate_nat, length_rows valid]

theorem decodedPixels_packed : decodedPixels .bit32 (image.height * image.width) image.packed =
      (List.range image.height).flatMap fun y =>
        (List.range image.width).map (image.pixelAt y) := by
  have divided := chunks_flatten (length_of_mem_rows valid)
  rw [length_rows valid] at divided
  rw [decodedPixels, BitmapFmt.bpp, chunks_mul, packed, divided, rows_eq valid, flatMap_map,
    map_flatMap]
  refine flatMap_congr fun y on => ?_
  rw [chunks, map_map]
  refine map_congr_left fun x listed => ?_
  have row := valid.row_inside (mem_range.mp on)
  have column : x < image.width := mem_range.mp listed
  have cell : blockAt 4 ((image.data.drop (y * image.stride)).take (image.width * 4)) x =
      (List.range 4).map fun k => image.data.getD (y * image.stride + (x * 4 + k)) 0 := by
    apply ext_getElem?
    intro k
    rw [getElem?_blockAt, getElem?_map]
    split
    · next small =>
      rw [getElem?_range small, getElem?_take, if_pos (by omega), getElem?_drop,
        getElem?_eq_getElem (by omega), Option.map_some, getD_eq_getElem?_getD,
        getElem?_eq_getElem (by omega), Option.getD_some]
    · next large =>
      rw [getElem?_eq_none (by rw [length_range]; omega), Option.map_none]
  rw [Function.comp_apply, cell]
  rfl

theorem packed_congr (valid' : image'.Valid)
    (width : image'.width = image.width) (height : image'.height = image.height)
    (same : ∀ y < image.height, ∀ offset < image.width * 4,
      image'.data[y * image'.stride + offset]? = image.data[y * image.stride + offset]?) :
    image'.packed = image.packed := by
  rw [packed, packed, rows_eq valid, rows_eq valid', width, height]
  refine congrArg List.flatten (map_congr_left fun y on => ext_getElem? fun offset => ?_)
  rw [getElem?_take, getElem?_take]
  split
  · next inside =>
    rw [getElem?_drop, getElem?_drop, same y (mem_range.mp on) offset inside]
  · rfl

end

end Bgrx

/-- Encode an image as the body of an LZ4 image of one block. -/
def encodeSpiceLz4 (codec : Lz4Codec) (image : Bgrx) : Bytes :=
  let block := codec.compress image.packed
  [1, 8] ++ (toBigEndian 4 (block.length % 2 ^ 32) ++ block)

def Bgrx.pixels (image : Bgrx) : List Rgba :=
  (List.range image.height).flatMap fun y => (List.range image.width).map (image.pixelAt y)

theorem encodeSpiceLz4_body (codec : Lz4Codec) {image : Bgrx} (valid : image.Valid) :
    Lz4Body codec.toLz4Flex recent (encodeSpiceLz4 codec image) image.width image.height
      image.pixels := by
  obtain ⟨length, accepted⟩ := Option.isSome_iff_exists.mp valid.accepted
  obtain ⟨width_pos, height_pos, -, -, pixels_le, -⟩ := rgbaLen_eq_some.mp accepted
  have total : image.packed.length = image.width * 4 * image.height := by
    rw [Bgrx.length_packed valid, Nat.mul_comm]
  have short : (codec.compress image.packed).length < 2 ^ 32 := by
    refine codec.compress_short image.packed ?_
    rw [total, Nat.mul_right_comm]
    exact Nat.mul_le_mul_right 4 pixels_le
  have inverted := codec.inverts image.packed
  rw [total] at inverted
  refine ⟨valid.accepted, 1, 8, .bit32, [codec.compress image.packed], image.packed, ?_, rfl, nofun,
    ?_, ⟨?_, image.packed, inverted, rfl, total⟩, (Bgrx.decodedPixels_packed valid).symm⟩
  · rw [encodeSpiceLz4, Nat.mod_eq_of_lt short, flatMap_singleton]
    rfl
  · intro block listed
    exact mem_singleton.mp listed ▸ short
  · exact Nat.mul_pos (Nat.mul_pos width_pos (by decide)) height_pos

/-- Decoding what an image is encoded as gives its pixels, whatever its stride, and the bytes
between its rows do not matter. -/
theorem lz4_round_trip (codec : Lz4Codec) {data : Bytes} {width height stride : Nat}
    {image : Bgrx} (made : Bgrx.new data width height stride = some image) :
    (∃ decoded, decompressSpiceLz4 codec.toLz4Flex (encodeSpiceLz4 codec image) width height =
          some decoded ∧
        decoded.width = width ∧ decoded.height = height ∧ decoded.pixels = flat image.pixels) ∧
      ∀ data' stride' image', Bgrx.new data' width height stride' = some image' →
        (∀ y < height, ∀ offset < width * 4,
          data'[y * stride' + offset]? = data[y * stride + offset]?) →
        encodeSpiceLz4 codec image' = encodeSpiceLz4 codec image := by
  obtain ⟨rfl, valid⟩ := Bgrx.new_eq_some made
  constructor
  · have body := encodeSpiceLz4_body codec valid
    obtain ⟨length, accepted⟩ := Option.isSome_iff_exists.mp valid.accepted
    have count := length_decodedPixels .bit32 (height * width)
      (Bgrx.packed ⟨data, width, height, stride⟩)
    rw [Bgrx.decodedPixels_packed valid] at count
    have sized : rgbaLen width height =
        some (flat (Bgrx.pixels ⟨data, width, height, stride⟩)).length := by
      rw [accepted, (rgbaLen_eq_some.mp accepted).2.2.2.2.2, length_flat, Bgrx.pixels, count,
        Nat.mul_comm 4, Nat.mul_comm height]
    exact ⟨⟨width, height, _, 0, 0, sized⟩,
      decompressSpiceLz4_iff.mpr ⟨_, body, rfl, rfl, rfl, rfl, rfl⟩, rfl, rfl, rfl⟩
  · intro data' stride' image' made' same
    obtain ⟨rfl, valid'⟩ := Bgrx.new_eq_some made'
    rw [encodeSpiceLz4, encodeSpiceLz4, Bgrx.packed_congr valid valid' rfl rfl same]

/-- The encoder that writes one block of literals. -/
def Lz4Codec.literals : Lz4Codec where
  toLz4Flex := literalFlex
  compress := literalBlock
  inverts bytes := by
    change (readLiterals (literalBlock bytes)).filter _ = _
    rw [readLiterals_literalBlock]
    simp
  compress_short bytes small := by
    have limit : maxImagePixels * 4 < 2 ^ 30 := by decide
    rw [literalBlock]
    split
    · rw [length_cons]
      omega
    · simp only [moreLength, length_cons, length_append, length_replicate, length_nil]
      omega

/-- A column of two pixels with padding, of which the last row has none. -/
theorem strided_column_round_trip :
    ∃ image decoded, Bgrx.new [1, 2, 3, 0, 9, 4, 5, 6, 0] 1 2 5 = some image ∧
      encodeSpiceLz4 .literals image = [1, 8, 0, 0, 0, 9, 0x80, 1, 2, 3, 0, 4, 5, 6, 0] ∧
      decompressSpiceLz4 Lz4Codec.literals.toLz4Flex (encodeSpiceLz4 .literals image) 1 2 =
        some decoded ∧ decoded.pixels = [3, 2, 1, 255, 6, 5, 4, 255] := by
  obtain ⟨⟨decoded, returned, -, -, pixels⟩, -⟩ := lz4_round_trip .literals
    (show Bgrx.new [1, 2, 3, 0, 9, 4, 5, 6, 0] 1 2 5 = some _ by rfl)
  exact ⟨_, decoded, rfl, by decide +kernel, returned, pixels⟩

end Ryll
