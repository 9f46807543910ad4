import Ryll.Compression.Image
import Ryll.Compression.QuicSegmentSafety

/-!
# Decoding a QUIC image

The header names the type and the dimensions of the image.  The rows are decoded one below the
other into a buffer in the native byte order, and the result is converted to RGBA.
`quicDecode_total` says that the decoder returns on every stream.
-/

namespace Ryll

open List

namespace Quic

/-! ## Image types -/

def quicImageTypeInvalid : Nat := 0

def quicImageTypeGray : Nat := 1

def quicImageTypeRgb16 : Nat := 2

def quicImageTypeRgb24 : Nat := 3

def quicImageTypeRgb32 : Nat := 4

def quicImageTypeRgba : Nat := 5

def quicImageBpc (imageType : Nat) : Nat :=
  if imageType = quicImageTypeGray then 8
  else if imageType = quicImageTypeRgb16 then 5
  else if imageType = quicImageTypeRgb24 ∨ imageType = quicImageTypeRgb32 ∨
      imageType = quicImageTypeRgba then 8
  else 0

/-! ## Creating a decoder -/

def QuicChannel.new (model8bpc model5bpc : QuicModel) : Outcome Unit QuicChannel := do
  let familyStat8bpc ← fillModelStructures model8bpc
  let familyStat5bpc ← fillModelStructures model5bpc
  let state ← CommonState.new
  return { state, familyStat8bpc, familyStat5bpc, zero := 0, row := [], bucketsPtrs := [],
           bucketsBuf := [] }

def QuicChannel.reset (bpc width : Nat) (channel : QuicChannel) : Outcome Unit QuicChannel := do
  let channel := { channel with zero := 0, row := List.replicate width 0 }
  let channel ←
    if bpc = 8 then
      pure { channel with
        bucketsPtrs := channel.familyStat8bpc.bucketsPtrs
        bucketsBuf := List.replicate channel.familyStat8bpc.nBuckets (QuicBucket.reset 7) }
    else if bpc = 5 then
      pure { channel with
        bucketsPtrs := channel.familyStat5bpc.bucketsPtrs
        bucketsBuf := List.replicate channel.familyStat5bpc.nBuckets (QuicBucket.reset 4) }
    else .error ()
  let state ← channel.state.reset
  return { channel with state }

namespace QuicDecoder

@[irreducible]
def new : Outcome Unit QuicDecoder := do
  let family8bpc ← familyInit Family.new 8 defmaxclen
  let _ ← familyInit Family.new 5 defmaxclen
  let model8bpc ← QuicModel.new 8
  let model5bpc ← QuicModel.new 5
  let zeroLut ← Quic.zeroLut 256
  let rgbState ← CommonState.new
  let c0 ← QuicChannel.new model8bpc model5bpc
  let c1 ← QuicChannel.new model8bpc model5bpc
  let c2 ← QuicChannel.new model8bpc model5bpc
  let c3 ← QuicChannel.new model8bpc model5bpc
  return { imageType := quicImageTypeInvalid, width := 0, height := 0, outputLen := 0,
           io := ⟨0, 0, 0, 0, [], 0⟩, rgbState, channels := #v[c0, c1, c2, c3], family8bpc,
           zeroLut }

def reset (ioPtr : Bytes) (decoder : QuicDecoder) : Outcome Unit QuicDecoder := do
  let rgbState ← decoder.rgbState.reset
  return { decoder with rgbState, io := decoder.io.reset ioPtr, outputLen := 0 }

def resetChannels (bpc : Nat) (decoder : QuicDecoder) : Outcome Unit QuicDecoder :=
  Plane.allChannels.foldlM (fun decoder c => do
    let channel ← (decoder.channel c).reset bpc decoder.width
    return decoder.setChannel c channel) decoder

/-- The fields of the header, and the reader behind it. -/
structure Header where
  imageType : Nat
  width : Nat
  height : Nat
  io : BitReader

def readHeader (io : BitReader) : Outcome Unit Header := do
  let io ← io.loadWord
  let magic := io.ioWord
  let io ← io.decodeEat32bits
  if magic ≠ 0x43495551#32 then
    .error ()
  else
    let version := io.ioWord
    let io ← io.decodeEat32bits
    if version ≠ 0#32 then
      .error ()
    else
      let imageType := io.ioWord.toNat
      let io ← io.decodeEat32bits
      let width := io.ioWord.toNat
      let io ← io.decodeEat32bits
      let height := io.ioWord.toNat
      let io ← io.decodeEat32bits
      return ⟨imageType, width, height, io⟩

def quicDecodeBegin (ioPtr : Bytes) (decoder : QuicDecoder) : Outcome Unit QuicDecoder := do
  let decoder ← decoder.reset ioPtr
  let ⟨imageType, width, height, io⟩ ← readHeader decoder.io
  -- The dimensions are refused before the rows of the channels are sized by them.
  match rgbaLen width height with
  | none => .error ()
  | some outputLen =>
    resetChannels (quicImageBpc imageType) { decoder with imageType, width, height, outputLen, io }

/-! ## Rows of the image -/

def carryZero (channels : List (Fin 4)) (decoder : QuicDecoder) : Outcome Unit QuicDecoder :=
  channels.foldlM (fun decoder c => do
    let sample ← readAt (decoder.channel c).row 0
    return decoder.setChannel c { decoder.channel c with zero := sample }) decoder

def clearZero (channels : List (Fin 4)) (decoder : QuicDecoder) : QuicDecoder :=
  channels.foldl (fun decoder c =>
    decoder.setChannel c { decoder.channel c with zero := 0 }) decoder

def firstRow (plane : Plane) (decoder : QuicDecoder) (curRow : Bytes) : Outcome Unit Pass :=
  uncompressRow0 plane ⟨clearZero plane.channels decoder, curRow, 0⟩

def laterRow (plane : Plane) (prevRow : Bytes) (decoder : QuicDecoder) (curRow : Bytes) :
    Outcome Unit Pass := do
  let decoder ← carryZero plane.channels decoder
  uncompressRow plane prevRow ⟨decoder, curRow, 0⟩

variable (planes : List Plane)

def firstRows (stride : Nat) (decoder : QuicDecoder) (buf : Bytes) :
    Outcome Unit (QuicDecoder × Bytes) := do
  let curRow ← sliceOf buf 0 stride
  let (decoder, curRow) ← planes.foldlM (fun (decoder, curRow) plane => do
    let pass ← firstRow plane decoder curRow
    return (pass.decoder, pass.curRow)) (decoder, curRow)
  let buf ← copyFromSlice buf 0 stride curRow
  return (decoder, buf)

def laterRows (stride row : Nat) (state : QuicDecoder × Bytes) :
    Outcome Unit (QuicDecoder × Bytes) := do
  let (decoder, buf) := state
  let split ← mulUsize row stride
  let above ← subChecked split stride
  let below ← addUsize split stride
  let prevRow ← sliceOf buf above split
  let curRow ← sliceOf buf split below
  let (decoder, curRow) ← planes.foldlM (fun (decoder, curRow) plane => do
    let pass ← laterRow plane prevRow decoder curRow
    return (pass.decoder, pass.curRow)) (decoder, curRow)
  let buf ← copyFromSlice buf split below curRow
  return (decoder, buf)

def allRows (decoder : QuicDecoder) (buf : Bytes) (stride : Nat) :
    Outcome Unit Bytes := do
  let first ← firstRows planes stride decoder buf
  let (_, buf) ← forIndex (laterRows planes stride) 1 (decoder.height - 1) first
  return buf

def quicDecode (decoder : QuicDecoder) (buf : Bytes) (stride : Nat) :
    Outcome Unit Bytes :=
  if decoder.imageType = quicImageTypeRgb32 ∨ decoder.imageType = quicImageTypeRgb24 then
    allRows [.colour] decoder buf stride
  else if decoder.imageType = quicImageTypeRgba then
    allRows [.colour, .alpha] decoder buf stride
  else
    .error ()

end QuicDecoder

/-! ## The decoder -/

def alphaByte (alpha : Bool) (native : Bytes) (index : Nat) : Outcome Unit UInt8 :=
  if alpha then do
    let inverted ← readAt native index
    return 255 - inverted
  else
    .ok 255

def convertPixel (alpha : Bool) (native : Bytes) (index : Nat) (rgba : Bytes) :
    Outcome Unit Bytes := do
  let i := 4 * index
  let b ← readAt native i
  let g ← readAt native (i + 1)
  let r ← readAt native (i + 2)
  let rgba ← writeAt rgba i r
  let rgba ← writeAt rgba (i + 1) g
  let rgba ← writeAt rgba (i + 2) b
  let a ← alphaByte alpha native (i + 3)
  writeAt rgba (i + 3) a

/-- Decode and convert an image. -/
def decodeImage (data : Slice) (width height : BitVec 32) : Outcome Unit Bytes := do
  let decoder ← QuicDecoder.new
  let decoder ← decoder.quicDecodeBegin data.bytes
  if decoder.imageType ≠ quicImageTypeRgb32 ∧ decoder.imageType ≠ quicImageTypeRgb24 ∧
      decoder.imageType ≠ quicImageTypeRgba then
    .error ()
  else if BitVec.ofNat 32 decoder.width ≠ width ∨ BitVec.ofNat 32 decoder.height ≠ height then
    .error ()
  else
    let total := decoder.outputLen
    let stride ← mulUsize decoder.width rgb32PixelSize
    let native ← decoder.quicDecode (List.replicate total 0) stride
    forIndex (convertPixel (decoder.imageType = quicImageTypeRgba) native) 0 ((total + 3) / 4)
      (List.replicate total 0)

def quicDecode (data : Slice) (width height : BitVec 32) : Outcome Unit (Option Bytes) :=
  match decodeImage data width height with
  | .ok rgba => .ok (some rgba)
  | .error _ => .ok none
  | .fault cause => .fault cause

/-! ## Safety -/

/-- The tables of a new decoder are sound. -/
structure QuicDecoder.Ready (decoder : QuicDecoder) : Prop where
  family : decoder.family8bpc.Sound
  lut : LutSound decoder.zeroLut
  available : decoder.io.ioAvailableBits < 32
  stats : ∀ c, (decoder.channel c).familyStat8bpc.Sound 256

theorem QuicChannel.new_ensures : ∀ {model8bpc model5bpc : QuicModel},
    model8bpc = ⟨8, 1, 1, 1, 2, 256⟩ → model5bpc = ⟨5, 1, 1, 1, 2, 32⟩ →
    (QuicChannel.new model8bpc model5bpc).Ensures fun channel =>
      channel.familyStat8bpc.Sound 256 := by
  rintro model8bpc model5bpc rfl rfl
  refine (fillModelStructures_ensures (by decide) (by decide) rfl rfl rfl rfl).bind
    fun familyStat8bpc filled => ?_
  refine (fillModelStructures_ensures (by decide) (by decide) rfl rfl rfl rfl).bind
    fun familyStat5bpc _ => ?_
  exact (CommonState.reset_ensures _).bind fun state _ => filled

open QuicDecoder

theorem QuicDecoder.new_ensures : new.Ensures Ready := by
  rw [new]
  refine familyInit_8bpc.bind fun family8bpc family => ?_
  refine familyInit_5bpc.bind fun _ _ => ?_
  refine (zeroLut_ensures le_rfl).bind fun zeroLut lut => ?_
  refine (CommonState.reset_ensures _).bind fun rgbState _ => ?_
  refine (QuicChannel.new_ensures rfl rfl).bind fun c0 stat0 => ?_
  refine (QuicChannel.new_ensures rfl rfl).bind fun c1 stat1 => ?_
  refine (QuicChannel.new_ensures rfl rfl).bind fun c2 stat2 => ?_
  refine (QuicChannel.new_ensures rfl rfl).bind fun c3 stat3 => ?_
  refine ⟨family, lut, Nat.two_pow_pos 5, fun c => ?_⟩
  match c with
  | 0 => exact stat0
  | 1 => exact stat1
  | 2 => exact stat2
  | 3 => exact stat3

theorem QuicChannel.reset_ensures {bpc width : Nat} {channel : QuicChannel}
    (stat : channel.familyStat8bpc.Sound 256) : (channel.reset bpc width).Ensures fun channel' =>
      channel'.familyStat8bpc.Sound 256 ∧ (bpc = 8 → channel'.Sound width) := by
  rw [QuicChannel.reset]
  split
  · rw [pure_eq, ok_bind]
    refine (CommonState.reset_ensures _).bind fun state sound => ⟨stat, fun _ => ?_⟩
    refine ⟨sound, Nat.two_pow_pos 8, length_replicate, fun sample listed => ?_, stat.1,
      fun bucket pointed => ?_, fun bucket listed => ?_⟩
    · rw [eq_of_mem_replicate listed]
      decide
    · rw [length_replicate]
      exact stat.2 bucket pointed
    · rw [eq_of_mem_replicate listed]
      exact ⟨Nat.lt_succ_self 7, rfl⟩
  · rename_i other
    split
    · rw [pure_eq, ok_bind]
      exact (CommonState.reset_ensures _).bind fun state _ =>
        ⟨stat, fun eight => (other eight).elim⟩
    · trivial

namespace QuicDecoder

variable {decoder : QuicDecoder}

theorem resetChannels_ensures {bpc : Nat} (ready : decoder.Ready) :
    (decoder.resetChannels bpc).Ensures fun decoder' =>
      (∃ channels, decoder' = { decoder with channels }) ∧
        (bpc = 8 → ∀ c, (decoder'.channel c).Sound decoder.width) := by
  refine (foldlM_covers (fun (decoder' : QuicDecoder) =>
      (∃ channels, decoder' = { decoder with channels }) ∧
        ∀ c, (decoder'.channel c).familyStat8bpc.Sound 256)
    (fun c (decoder' : QuicDecoder) => bpc = 8 → (decoder'.channel c).Sound decoder.width) ?_
    ⟨⟨decoder.channels, rfl⟩, ready.stats⟩).mono ?_
  · rintro _ c - ⟨⟨channels, rfl⟩, stats⟩
    refine (QuicChannel.reset_ensures (stats c)).bind fun channel reset => ?_
    refine ⟨⟨⟨_, rfl⟩, fun other => ?_⟩, fun eight => ?_, fun other settled eight => ?_⟩
    · rw [channel_setChannel]
      split
      · exact reset.1
      · exact stats other
    · rw [channel_setChannel, if_pos rfl]
      exact reset.2 eight
    · rw [channel_setChannel]
      split
      · exact reset.2 eight
      · exact settled eight
  · rintro decoder' ⟨⟨kept, -⟩, all, -⟩
    refine ⟨kept, fun eight c => all c ?_ eight⟩
    match c with
    | 0 | 1 | 2 | 3 => decide

theorem readHeader_ensures {data : Bytes} {io : BitReader} (short : data.length < 2 ^ 63)
    (available : io.ioAvailableBits < 32) :
    (readHeader (io.reset data)).Ensures fun header => header.io.Sound data.length ∧
      wordAt data 12 = some (BitVec.ofNat 32 header.width) ∧
      wordAt data 16 = some (BitVec.ofNat 32 header.height) := by
  refine (BitReader.loadWord_ensures short available).bind fun io0 aligned0 => ?_
  refine (BitReader.decodeEat32bits_ensures short aligned0).bind fun io1 aligned1 => ?_
  split
  · trivial
  refine (BitReader.decodeEat32bits_ensures short aligned1).bind fun io2 aligned2 => ?_
  split
  · trivial
  refine (BitReader.decodeEat32bits_ensures short aligned2).bind fun io3 aligned3 => ?_
  refine (BitReader.decodeEat32bits_ensures short aligned3).bind fun io4 aligned4 => ?_
  refine (BitReader.decodeEat32bits_ensures short aligned4).bind fun io5 aligned5 => ?_
  refine ⟨aligned5.sound, ?_, ?_⟩
  · rw [BitVec.ofNat_toNat, BitVec.setWidth_eq]
    exact aligned3.wordAt_eq
  · rw [BitVec.ofNat_toNat, BitVec.setWidth_eq]
    exact aligned4.wordAt_eq

/-- What is known behind the header. -/
structure Begun (data : Bytes) (decoder : QuicDecoder) : Prop where
  width : wordAt data 12 = some (BitVec.ofNat 32 decoder.width)
  height : wordAt data 16 = some (BitVec.ofNat 32 decoder.height)
  accepted : rgbaLen decoder.width decoder.height = some decoder.outputLen
  sound : quicImageBpc decoder.imageType = 8 → decoder.Sound data.length

theorem quicDecodeBegin_ensures {data : Bytes} (short : data.length < 2 ^ 45)
    (ready : decoder.Ready) : (decoder.quicDecodeBegin data).Ensures (Begun data) := by
  rw [quicDecodeBegin, reset, Outcome.bind_assoc]
  refine (CommonState.reset_ensures _).bind fun rgbState rgb => ?_
  refine (readHeader_ensures (short.trans (by decide)) ready.available).bind ?_
  rintro ⟨imageType, width, height, io'⟩ ⟨sound, width_eq, height_eq⟩
  dsimp only
  cases accepted : rgbaLen width height with
  | none => trivial
  | some outputLen =>
    have ready' : Ready { decoder with rgbState, imageType, width, height, outputLen, io := io' } :=
      { ready with available := sound.available_lt }
    refine (resetChannels_ensures ready').mono ?_
    rintro _ ⟨⟨channels, rfl⟩, reset⟩
    obtain ⟨-, -, width_le, -, -, -⟩ := rgbaLen_eq_some.mp accepted
    exact ⟨width_eq, height_eq, accepted, fun eight => ⟨short, width_le, sound, rgb, reset eight,
      ready.family, ready.lut⟩⟩

section

variable {size : Nat} {start : QuicDecoder}

/-- What holds of a decoder and a row between two planes. -/
def RowSound (size : Nat) (start : QuicDecoder) (state : QuicDecoder × Bytes) : Prop :=
  state.1.Sound size ∧ start.SameImage state.1 ∧ state.2.length = start.width * 4

theorem Sound.setZero {c : Fin 4} {sample : Nat} (sound : decoder.Sound size)
    (small : sample < 256) :
    (decoder.setChannel c { decoder.channel c with zero := sample }).Sound size := by
  have channel := sound.channels c
  exact sound.setChannel { channel with zero_lt := small }

theorem clearZero_sound (channels : List (Fin 4)) (sound : decoder.Sound size) :
    (clearZero channels decoder).Sound size ∧
      decoder.SameImage (clearZero channels decoder) := by
  induction channels generalizing decoder with
  | nil => exact ⟨sound, .refl _⟩
  | cons c channels ih =>
    have cleared := ih (sound.setZero (c := c) (Nat.two_pow_pos 8))
    exact ⟨cleared.1, cleared.2.imageType, cleared.2.width, cleared.2.height, cleared.2.outputLen⟩

variable {plane : Plane} {curRow buf : Bytes} {planes : List Plane}

theorem Pass.Sound.initial (sound : decoder.Sound size)
    (length : curRow.length = decoder.width * 4) :
    Pass.Sound size decoder plane ⟨decoder, curRow, 0⟩ :=
  ⟨sound, .refl _, ⟨rfl, rfl⟩, length, fun c _ => (sound.channels c).buckets_pos⟩

variable {state : QuicDecoder × Bytes}

theorem laterRow_ensures {prevRow : Bytes}
    (positive : 0 < start.width) (above_length : prevRow.length = start.width * 4)
    (sound : RowSound size start state) :
    (laterRow plane prevRow state.1 state.2).Ensures fun pass =>
      RowSound size start (pass.decoder, pass.curRow) := by
  obtain ⟨decoder, image, length⟩ := sound
  refine (foldlM_ensures (fun decoder' : QuicDecoder =>
    decoder'.Sound size ∧ state.1.SameImage decoder') ?_ ⟨decoder, .refl _⟩).bind ?_
  · rintro decoder' c - ⟨sound', image'⟩
    have channel := sound'.channels c
    refine (readAt_ensures (by rw [channel.row_length, image'.width, image.width]; exact positive)
      ).bind fun sample listed => ?_
    exact ⟨sound'.setZero (channel.row_lt sample listed), image'.imageType, image'.width,
      image'.height, image'.outputLen⟩
  rintro carried ⟨carried_sound, same⟩
  refine (uncompressRow_ensures ?_ (Pass.Sound.initial carried_sound ?_)).mono ?_
  · rw [same.width, image.width, above_length]
  · rw [same.width, image.width, length]
  · rintro pass ⟨sound, image'⟩
    refine ⟨sound.decoder, (image.trans same).trans image', ?_⟩
    rw [sound.curRow_length, image'.width, same.width, image.width]

/-- What holds of a decoder and the image between two rows. -/
def ImageSound (size : Nat) (start : QuicDecoder) (state : QuicDecoder × Bytes) : Prop :=
  state.1.Sound size ∧ start.SameImage state.1 ∧ state.2.length = start.width * start.height * 4

theorem copyRow_ensures {first stop : Nat} (sound : RowSound size start (decoder, curRow))
    (length : buf.length = start.width * start.height * 4) (inside : stop ≤ buf.length)
    (row : first + start.width * 4 = stop) :
    (copyFromSlice buf first stop curRow : Outcome Unit _).Ensures fun buf' =>
      ImageSound size start (decoder, buf') := by
  have row_length : curRow.length = start.width * 4 := sound.2.2
  rw [copyFromSlice_ok (by omega) inside (by omega)]
  exact ⟨sound.1, sound.2.1, (length_splice (by omega)).trans length⟩

theorem firstRows_ensures (sound : start.Sound size) (positive : 0 < start.height)
    (length : buf.length = start.width * start.height * 4) :
    (firstRows planes (start.width * 4) start buf).Ensures (ImageSound size start) := by
  have stride_le : start.width * 4 ≤ buf.length := by
    rw [length, Nat.mul_right_comm]
    exact Nat.le_mul_of_pos_right _ positive
  rw [firstRows, sliceOf_ok (Nat.zero_le _) stride_le, ok_bind]
  refine (foldlM_ensures (RowSound size start) ?_ ⟨sound, .refl _, ?_⟩).bind ?_
  · rintro state plane - ⟨decoder, image, length⟩
    obtain ⟨cleared, same⟩ := clearZero_sound plane.channels decoder
    refine (uncompressRow0_ensures (Pass.Sound.initial cleared ?_)).bind ?_
    · rw [same.width, image.width, length]
    rintro pass ⟨sound, image'⟩
    refine ⟨sound.decoder, (image.trans same).trans image', ?_⟩
    rw [sound.curRow_length, image'.width, same.width, image.width]
  · simp only [drop_zero, length_take]
    omega
  · rintro ⟨decoder, curRow⟩ kept
    exact (copyRow_ensures kept length stride_le (Nat.zero_add _)).bind fun buf' copied => copied

section

variable (sound : start.Sound size) (accepted : rgbaLen start.width start.height = some buf.length)
include sound accepted

theorem allRows_ensures :
    (allRows planes start buf (start.width * 4)).Ensures fun buf' => buf'.length = buf.length := by
  obtain ⟨width_pos, height_pos, width_le, height_le, -, length⟩ := rgbaLen_eq_some.mp accepted
  refine (firstRows_ensures sound height_pos length).bind fun state kept => ?_
  refine (forIndex_ensures (fun _ => ImageSound size start) ?_ kept).bind ?_
  · rintro row ⟨decoder, buf'⟩ first upper ⟨decoder_sound, image, length'⟩
    simp only at decoder_sound image length'
    have inside : row < start.height := by omega
    have below : row * (start.width * 4) + start.width * 4 ≤ buf'.length := by
      rw [length', Nat.mul_right_comm, Nat.mul_comm (start.width * 4), ← Nat.succ_mul]
      exact Nat.mul_le_mul_right _ inside
    have above : start.width * 4 ≤ row * (start.width * 4) := Nat.le_mul_of_pos_left _ first
    have bounded : row * (start.width * 4) ≤ 16384 * (16384 * 4) :=
      Nat.mul_le_mul (inside.le.trans height_le) (Nat.mul_le_mul_right 4 width_le)
    rw [laterRows]
    simp (disch := omega) only [mulUsize_ok, subChecked_ok, addUsize_ok, sliceOf_ok, ok_bind]
    refine (foldlM_ensures (RowSound size start) ?_ ⟨decoder_sound, image, ?_⟩).bind ?_
    · rintro state plane - kept
      refine (laterRow_ensures width_pos ?_ kept).bind fun pass decoded => decoded
      simp only [length_take, length_drop]
      omega
    · simp only [length_take, length_drop]
      omega
    · rintro ⟨decoder', curRow⟩ kept
      exact (copyRow_ensures kept length' below rfl).bind fun _ copied => copied
  · exact fun state kept => kept.2.2.trans length.symm

theorem quicDecode_ensures :
    (start.quicDecode buf (start.width * 4)).Ensures fun buf' => buf'.length = buf.length := by
  rw [quicDecode]
  split
  · exact allRows_ensures sound accepted
  · split
    · exact allRows_ensures sound accepted
    · trivial

end

end

end QuicDecoder

def headerDimensions (data : Slice) : Option (BitVec 32 × BitVec 32) := do
  let width ← wordAt data.bytes 12
  let height ← wordAt data.bytes 16
  return (width, height)

theorem decodeImage_ensures {data : Slice} {width height : BitVec 32}
    (short : data.length < 2 ^ 45) : (decodeImage data width height).Ensures fun rgba =>
      headerDimensions data = some (width, height) ∧
        rgba.length = width.toNat * height.toNat * 4 := by
  refine new_ensures.bind fun decoder ready => ?_
  refine (quicDecodeBegin_ensures short ready).bind fun decoder begun => ?_
  split
  · trivial
  rename_i supported
  split
  · trivial
  rename_i agrees
  obtain ⟨rfl, rfl⟩ : BitVec.ofNat 32 decoder.width = width ∧
      BitVec.ofNat 32 decoder.height = height := by
    refine ⟨Decidable.by_contra fun differs => agrees (.inl differs),
      Decidable.by_contra fun differs => agrees (.inr differs)⟩
  have eight : quicImageBpc decoder.imageType = 8 := by
    have types : decoder.imageType = quicImageTypeRgb32 ∨ decoder.imageType = quicImageTypeRgb24 ∨
        decoder.imageType = quicImageTypeRgba := by
      by_contra other
      exact supported ⟨fun h => other (.inl h), fun h => other (.inr (.inl h)),
        fun h => other (.inr (.inr h))⟩
    rcases types with type | type | type <;> rw [type] <;> decide
  obtain ⟨-, -, width_le, height_le, -, length⟩ := rgbaLen_eq_some.mp begun.accepted
  rw [maxImageDimension] at width_le height_le
  have accepted : rgbaLen decoder.width decoder.height =
      some (List.replicate decoder.outputLen (0 : UInt8)).length := by
    rw [length_replicate]
    exact begun.accepted
  rw [rgb32PixelSize, mulUsize_ok (by omega), ok_bind]
  refine (quicDecode_ensures (begun.sound eight) accepted).bind
    fun native native_length => ?_
  rw [length_replicate] at native_length
  refine (forIndex_ensures (fun _ (rgba : Bytes) => rgba.length = native.length) ?_
    (by rw [length_replicate, native_length])).mono fun rgba same => ⟨?_, ?_⟩
  · intro index rgba _ upper same
    have inside : 4 * index + 3 < native.length := by omega
    have opacity : (alphaByte (decoder.imageType = quicImageTypeRgba) native
        (4 * index + 3)).Ensures fun _ => True := by
      rw [alphaByte]
      split
      · exact (readAt_ensures inside).bind fun _ _ => trivial
      · trivial
    rw [convertPixel]
    simp (disch := omega) only [readAt_ok, ok_bind]
    simp (disch := simp only [length_set, same]; omega) only [writeAt_ok, ok_bind]
    refine opacity.bind fun a _ => ?_
    simpa only [ensures_ok, length_set] using same
  · simp [headerDimensions, begun.width, begun.height]
  · rw [same, native_length, length, BitVec.toNat_ofNat, BitVec.toNat_ofNat,
      Nat.mod_eq_of_lt (by omega), Nat.mod_eq_of_lt (by omega)]

/-- Every stream is decoded to an image of the requested size or refused: no index, shift or sum
leaves its range and every loop ends.  A run length could overflow only after 32 TiB. -/
theorem quicDecode_total (data : Slice) (width height : BitVec 32) (short : data.length < 2 ^ 45) :
    ∃ result, quicDecode data width height = .ok result ∧
      (∀ rgba, result = some rgba → rgba.length = width.toNat * height.toNat * 4) ∧
      (headerDimensions data ≠ some (width, height) → result = none) := by
  have ensured : (decodeImage data width height).Ensures _ := decodeImage_ensures short
  rw [quicDecode]
  cases decoded : decodeImage data width height with
  | ok rgba =>
    rw [decoded] at ensured
    refine ⟨some rgba, rfl, ?_, fun differs => (differs ensured.1).elim⟩
    rintro _ ⟨⟩
    exact ensured.2
  | error => exact ⟨none, rfl, nofun, fun _ => rfl⟩
  | fault cause =>
    rw [decoded] at ensured
    exact ensured.elim

/-- Two rows of two colours. -/
def square : Slice :=
  ⟨[0x51, 0x55, 0x49, 0x43, 0, 0, 0, 0, 4, 0, 0, 0, 2, 0, 0, 0, 2, 0, 0, 0, 255, 52, 86, 120,
    1, 2, 3, 4, 5, 6, 7, 8, 9, 10, 11, 12, 13, 14, 15, 16, 17, 18, 19, 20], by decide⟩

theorem quicDecode_square : (∃ rgba, quicDecode square 2 2 = .ok (some rgba) ∧ rgba.length = 16) ∧
    quicDecode square 2 3 = .ok none := by
  obtain ⟨result, decoded, size, -⟩ := quicDecode_total square 2 2 (by decide)
  obtain ⟨other, decoded', -, refused⟩ := quicDecode_total square 2 3 (by decide)
  refine ⟨?_, by rw [decoded', refused (by decide)]⟩
  have shown : ((quicDecode square 2 2).toOption.bind id).isSome := by decide +kernel
  rw [decoded] at shown
  obtain ⟨rgba, rfl⟩ := Option.isSome_iff_exists.mp shown
  exact ⟨rgba, decoded, size rgba rfl⟩

end Quic

end Ryll
