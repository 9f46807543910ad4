import Ryll.Compression.QuicSegments

/-!
# Rows of a QUIC image are decoded safely

Every sample is a byte, every bucket number is inside its table and the next update is at most 63
samples away, between any two steps of a row and whatever the stream.  A run may be empty, but none
starts twice at one pixel, so every round of a segment makes progress.
-/

namespace Ryll

open List

namespace Quic

/-! ## Invariants -/

/-- What the decoder relies on about a channel. -/
structure QuicChannel.Sound (width : Nat) (channel : QuicChannel) : Prop where
  state : channel.state.Sound
  zero_lt : channel.zero < 256
  row_length : channel.row.length = width
  row_lt : ∀ sample ∈ channel.row, sample < 256
  bucketsPtrs_length : channel.bucketsPtrs.length = 256
  bucketsPtrs_lt : ∀ bucket ∈ channel.bucketsPtrs, bucket < channel.bucketsBuf.length
  buckets : ∀ bucket ∈ channel.bucketsBuf, bucket.Sound

/-- What holds of the decoder between any two steps of a row. -/
structure QuicDecoder.Sound (size : Nat) (decoder : QuicDecoder) : Prop where
  short : size < 2 ^ 45
  width_le : decoder.width ≤ 16384
  io : decoder.io.Sound size
  rgb : decoder.rgbState.Sound
  channels : ∀ c, (decoder.channel c).Sound decoder.width
  family : decoder.family8bpc.Sound
  lut : LutSound decoder.zeroLut

/-- Both decode one image. -/
structure QuicDecoder.SameImage (before after : QuicDecoder) : Prop where
  imageType : after.imageType = before.imageType
  width : after.width = before.width
  height : after.height = before.height
  outputLen : after.outputLen = before.outputLen

/-- The wait mask of a plane, which changes only between segments. -/
def Plane.SameMask (plane : Plane) (before after : QuicDecoder) : Prop :=
  (plane.state after).wmidx = (plane.state before).wmidx ∧
    (plane.state after).wmileft = (plane.state before).wmileft

/-- What holds between any two steps of a segment that started with the decoder `start`. -/
structure Pass.Sound (size : Nat) (start : QuicDecoder) (plane : Plane) (pass : Pass) : Prop where
  decoder : pass.decoder.Sound size
  image : start.SameImage pass.decoder
  mask : plane.SameMask start pass.decoder
  curRow_length : pass.curRow.length = start.width * 4
  lastBucket_lt : ∀ c, plane = .single c →
    pass.lastBucket < (pass.decoder.channel c).bucketsBuf.length

section

variable {size : Nat} {start : QuicDecoder} {plane : Plane}
  {width : Nat} {channel : QuicChannel} {pass : Pass}

theorem QuicChannel.Sound.buckets_pos
    (sound : channel.Sound width) : 0 < channel.bucketsBuf.length := by
  have inside : 0 < channel.bucketsPtrs.length := by
    rw [sound.bucketsPtrs_length]
    decide
  exact Nat.zero_lt_of_lt (sound.bucketsPtrs_lt _ (getElem_mem inside))

theorem Plane.state_setState (plane : Plane) (decoder : QuicDecoder) (state : CommonState) :
    plane.state (plane.setState decoder state) = state := by
  cases plane with
  | colour => rfl
  | single c => rw [Plane.state, Plane.setState, QuicDecoder.channel_setChannel, if_pos rfl]

variable {decoder : QuicDecoder} {c : Fin 4} {i waitmask stop : Nat} {prevRow curRow : Bytes}
  {shade : Fin 4 → Bytes → Nat → Outcome Unit UInt8}
  {bucketOf : QuicChannel → Outcome Unit Nat} {bpcMask : UInt8}
  {wait : Nat → Nat → Outcome Unit Nat}

theorem Plane.state_setChannel (plane : Plane) (same : channel.state = (decoder.channel c).state) :
    plane.state (decoder.setChannel c channel) = plane.state decoder := by
  cases plane with
  | colour => rfl
  | single other =>
    rw [Plane.state, Plane.state, QuicDecoder.channel_setChannel]
    split
    · rename_i equal
      rw [equal, same]
    · rfl

theorem Plane.state_setIo (plane : Plane) (decoder : QuicDecoder) (io : BitReader) :
    plane.state { decoder with io } = plane.state decoder := by
  cases plane <;> rfl

theorem QuicDecoder.Sound.setChannel (sound : decoder.Sound size)
    (channel_sound : channel.Sound decoder.width) : (decoder.setChannel c channel).Sound size := by
  refine { sound with channels := fun other => ?_ }
  rw [QuicDecoder.channel_setChannel]
  split
  · exact channel_sound
  · exact sound.channels other

theorem QuicDecoder.Sound.state (sound : decoder.Sound size) (plane : Plane) :
    (plane.state decoder).Sound := by
  cases plane with
  | colour => exact sound.rgb
  | single c => exact (sound.channels c).state

theorem QuicDecoder.Sound.setState {state : CommonState} (sound : decoder.Sound size)
    (state_sound : state.Sound) (plane : Plane) : (plane.setState decoder state).Sound size := by
  cases plane with
  | colour =>
    exact { sound with rgb := state_sound }
  | single c =>
    have channel := sound.channels c
    exact sound.setChannel { channel with state := state_sound }

theorem SameImage.setState (plane : Plane) (decoder : QuicDecoder) (state : CommonState) :
    decoder.SameImage (plane.setState decoder state) := by
  cases plane <;> exact ⟨rfl, rfl, rfl, rfl⟩

theorem QuicDecoder.SameImage.trans {first second third : QuicDecoder}
    (left : first.SameImage second) (right : second.SameImage third) : first.SameImage third :=
  ⟨right.imageType.trans left.imageType, right.width.trans left.width,
    right.height.trans left.height, right.outputLen.trans left.outputLen⟩

theorem bucketsBuf_setState (plane : Plane) (decoder : QuicDecoder) (state : CommonState)
    (c : Fin 4) : ((plane.setState decoder state).channel c).bucketsBuf =
      (decoder.channel c).bucketsBuf := by
  cases plane with
  | colour => rfl
  | single other =>
    rw [Plane.setState, QuicDecoder.channel_setChannel]
    split
    · rename_i equal
      rw [equal]
    · rfl

section

variable {pass : Pass} (sound : pass.Sound size start plane)
include sound

theorem Pass.Sound.width_le : start.width ≤ 16384 := sound.image.width ▸ sound.decoder.width_le

theorem Pass.Sound.setState {state : CommonState} (state_sound : state.Sound)
    (wmidx : state.wmidx = (plane.state pass.decoder).wmidx)
    (wmileft : state.wmileft = (plane.state pass.decoder).wmileft) :
    Pass.Sound size start plane { pass with decoder := plane.setState pass.decoder state } where
  decoder := sound.decoder.setState state_sound plane
  image := sound.image.trans (SameImage.setState plane pass.decoder state)
  mask := by
    simp only [Plane.SameMask, Plane.state_setState]
    exact ⟨wmidx.trans sound.mask.1, wmileft.trans sound.mask.2⟩
  curRow_length := sound.curRow_length
  lastBucket_lt := fun c single => by
    simp only [bucketsBuf_setState]
    exact sound.lastBucket_lt c single

theorem Pass.Sound.setWaitcnt {waitcnt : Nat} (small : waitcnt < 64) :
    Pass.Sound size start plane { pass with decoder := setWaitcnt plane waitcnt pass.decoder } := by
  have state := sound.decoder.state plane
  exact sound.setState { state with waitcnt_lt := small } rfl rfl

theorem Pass.Sound.forgetBucket : Pass.Sound size start plane { pass with lastBucket := 0 } :=
  { sound with lastBucket_lt := fun c _ => (sound.decoder.channels c).buckets_pos }

end

/-! ## Samples -/

theorem pixelAt_ok {offset : Nat} (inside : i ≤ 16384) (small : offset ≤ 3) :
    pixelAt i offset = .ok (i * 4 + offset) := by
  rw [pixelAt, rgb32PixelSize, mulUsize_ok (by omega), ok_bind, addUsize_ok (by omega)]

section

variable (plane : Plane)

theorem Plane.offset_le (c : Fin 4) : plane.offset c ≤ 3 := by
  cases plane with
  | colour => exact (Nat.sub_le 2 c).trans (by decide)
  | single => exact le_rfl

/-- A shade of a byte does not fault. -/
def ShadeSafe (width : Nat) (shade : Fin 4 → Bytes → Nat → Outcome Unit UInt8) : Prop :=
  ∀ c curRow difference, curRow.length = width * 4 → difference ≤ 255 →
    (shade c curRow difference).Ensures fun _ => True

/-- A choice of neighbours that is defined on sound channels and gives samples. -/
def KeySafe (width : Nat) (key : QuicChannel → Outcome Unit Nat) : Prop :=
  ∀ channel : QuicChannel, channel.Sound width → (key channel).Ensures (· < 256)

theorem zeroKey_safe : KeySafe width zeroKey := fun _ sound => sound.zero_lt

theorem leftKey_safe (positive : 0 < i) (inside : i ≤ width) : KeySafe width (leftKey i) := by
  intro channel sound
  rw [leftKey, subChecked_ok positive, ok_bind]
  exact (readAt_ensures (by rw [sound.row_length]; omega)).mono sound.row_lt

theorem plainShade_safe : ShadeSafe width plainShade :=
  fun _ _ _ _ _ => trivial

variable (bpcMask : UInt8)

theorem leftShade_safe (positive : 0 < i)
    (inside : i < width) (small : width ≤ 16384) : ShadeSafe width (leftShade plane bpcMask i) := by
  intro c curRow difference length bound
  have offset := plane.offset_le c
  rw [leftShade, subChecked_ok positive, ok_bind, pixelAt_ok (by omega) offset, ok_bind]
  refine (readAt_ensures (by omega)).bind fun left _ => ?_
  have byte := left.toNat_lt
  cases plane with
  | colour => trivial
  | single => simp (disch := omega) only [addChecked_ok, ok_bind, pure_eq,
      ensures_ok]

theorem meanShade_safe
    (above_length : prevRow.length = width * 4) (positive : 0 < i) (inside : i < width)
    (small : width ≤ 16384) : ShadeSafe width (meanShade plane bpcMask prevRow i) := by
  intro c curRow difference length bound
  have offset := plane.offset_le c
  rw [meanShade, subChecked_ok positive, ok_bind, pixelAt_ok (by omega) offset, ok_bind]
  refine (readAt_ensures (by omega)).bind fun left _ => ?_
  rw [pixelAt_ok (by omega) offset, ok_bind]
  refine (readAt_ensures (by omega)).bind fun above _ => ?_
  have left_lt := left.toNat_lt
  have above_lt := above.toNat_lt
  rw [addChecked_ok (by omega), ok_bind, Nat.shiftRight_eq_div_pow, addChecked_ok (by omega)]
  trivial

end

theorem clearPad_ensures (small : width ≤ 16384) (inside : i < width)
    (length : curRow.length = width * 4) :
    (clearPad plane i curRow).Ensures fun cleared => cleared.length = width * 4 := by
  rw [clearPad]
  split
  · rw [rgb32PixelPad, pixelAt_ok (by omega) le_rfl, ok_bind, writeAt_ok (by omega)]
    exact length_set.trans length
  · exact length

section

variable {pass : Pass} (sound : pass.Sound size start plane)
include sound

variable {key : QuicChannel → Outcome Unit Nat}

theorem decodeSample_ensures {target : Nat} {shade : Bytes → Nat → Outcome Unit UInt8}
    (own : c ∈ plane.channels) (key_safe : KeySafe start.width key) (inside : i < start.width)
    (target_inside : target < start.width * 4)
    (shade_safe : ∀ curRow difference, curRow.length = start.width * 4 → difference ≤ 255 →
      (shade curRow difference).Ensures fun _ => True) :
    (decodeSample c key i target shade pass).Ensures (Pass.Sound size start plane) := by
  have decoder := sound.decoder
  have width := sound.image.width
  have channel := decoder.channels c
  rw [width] at channel
  refine (key_safe _ channel).bind fun neighbour sample => ?_
  refine (readAt_ensures (by rw [channel.bucketsPtrs_length]; exact sample)).bind
    fun lastBucket pointed => ?_
  have bucket_inside := channel.bucketsPtrs_lt lastBucket pointed
  refine (readAt_ensures bucket_inside).bind fun bucket listed => ?_
  refine (golombDecoding8bpc_ensures decoder.family (channel.buckets bucket listed).1).bind ?_
  rintro ⟨cwlen, rc⟩ ⟨-, short, value⟩
  refine (writeAt_ensures (by rw [channel.row_length]; exact inside) channel.row_lt
    (Nat.lt_succ_of_le value)).bind ?_
  rintro row ⟨row_length, row_lt⟩
  refine (readAt_ensures
    (by rw [decoder.family.xlatL2u_length]; exact Nat.lt_succ_of_le value)).bind
    fun difference translated => ?_
  refine (shade_safe pass.curRow difference sound.curRow_length
    (decoder.family.xlatL2u_le difference translated)).bind fun byte _ => ?_
  rw [writeAt_ok (by rw [sound.curRow_length]; exact target_inside), ok_bind]
  refine (BitReader.decodeEatbits_ensures (decoder.short.trans (by decide))
    (Nat.lt_of_le_of_lt short (by decide)) decoder.io).bind fun io consumed => ?_
  have kept : (pass.decoder.setChannel c { pass.decoder.channel c with row }).Sound size :=
    decoder.setChannel ⟨channel.state, channel.zero_lt,
      row_length.trans (channel.row_length.trans width.symm), row_lt, channel.bucketsPtrs_length,
      channel.bucketsPtrs_lt, channel.buckets⟩
  refine ⟨{ kept with io := consumed.1 },
    { sound.image with width := width }, ?_,
    length_set.trans sound.curRow_length, fun other single => ?_⟩
  · rw [Plane.SameMask, Plane.state_setIo, Plane.state_setChannel plane]
    · exact sound.mask
    · rfl
  · subst single
    obtain rfl := mem_singleton.mp own
    have buckets : ((pass.decoder.setChannel c { pass.decoder.channel c with row }).channel
        c).bucketsBuf = (pass.decoder.channel c).bucketsBuf := by
      rw [QuicDecoder.channel_setChannel, if_pos rfl]
    exact bucket_inside.trans_eq (congrArg List.length buckets.symm)

theorem decodePixel_ensures (key_safe : KeySafe start.width key) (inside : i < start.width)
    (shade_safe : ShadeSafe start.width shade) :
    (decodePixel plane key shade i pass).Ensures (Pass.Sound size start plane) := by
  have width := sound.width_le
  refine (clearPad_ensures width inside sound.curRow_length).bind fun curRow length => ?_
  refine foldlM_ensures (Pass.Sound size start plane) ?_
    { sound with curRow_length := length }
  intro pass c own sound
  have offset := plane.offset_le c
  rw [pixelAt_ok (by omega) offset, ok_bind]
  exact decodeSample_ensures sound own key_safe inside (by omega) (shade_safe c)

theorem decodePixels_ensures {key : Nat → QuicChannel → Outcome Unit Nat}
    {shade : Nat → Fin 4 → Bytes → Nat → Outcome Unit UInt8} {count : Nat}
    (inside : i + count ≤ start.width)
    (key_safe : ∀ j, i ≤ j → j < start.width → KeySafe start.width (key j))
    (shade_safe : ∀ j, i ≤ j → j < start.width → ShadeSafe start.width (shade j)) :
    (forIndex (fun j => decodePixel plane (key j) (shade j) j) i count pass).Ensures
      (Pass.Sound size start plane) := by
  refine forIndex_ensures (fun _ => Pass.Sound size start plane) ?_ sound
  intro j pass lower upper sound
  exact decodePixel_ensures sound (key_safe j lower (by omega)) (by omega)
    (shade_safe j lower (by omega))

end

/-! ## Updates of the model -/

/-- A choice of buckets that is defined on the channels of a sound pass. -/
def BucketSafe (plane : Plane) (width lastBucket : Nat)
    (bucketOf : QuicChannel → Outcome Unit Nat) : Prop :=
  ∀ channel : QuicChannel, channel.Sound width →
    (∀ c, plane = .single c → lastBucket < channel.bucketsBuf.length) →
    (bucketOf channel).Ensures (· < channel.bucketsBuf.length)

theorem zeroBucket_safe {lastBucket : Nat} : BucketSafe plane width lastBucket zeroBucket := by
  intro channel sound _
  exact (readAt_ensures (by rw [sound.bucketsPtrs_length]; exact sound.zero_lt)).mono
    sound.bucketsPtrs_lt

theorem waitBucket_safe {lastBucket stopidx : Nat} (positive : 0 < stopidx)
    (inside : stopidx ≤ width) :
    BucketSafe plane width lastBucket (waitBucket plane lastBucket stopidx) := by
  intro channel sound last
  cases plane with
  | colour =>
    simp only [waitBucket]
    rw [subChecked_ok positive, ok_bind]
    refine (readAt_ensures (by rw [sound.row_length]; omega)).bind fun key sample => ?_
    refine (readAt_ensures ?_).mono sound.bucketsPtrs_lt
    rw [sound.bucketsPtrs_length]
    exact sound.row_lt key sample
  | single c => exact last c rfl

section

variable {pass : Pass} (sound : pass.Sound size start plane)
include sound

theorem updateModels_ensures {index : Nat}
    (bucket_safe : BucketSafe plane start.width pass.lastBucket bucketOf)
    (inside : index < start.width) :
    (updateModels plane bucketOf index 8 pass.decoder).Ensures fun decoder =>
      Pass.Sound size start plane { pass with decoder } := by
  refine foldlM_ensures (fun decoder => Pass.Sound size start plane { pass with decoder }) ?_ sound
  intro decoder c own sound
  have decoder_sound : decoder.Sound size := sound.decoder
  have width : decoder.width = start.width := sound.image.width
  have channel := decoder_sound.channels c
  have own_last : ∀ other, plane = .single other →
      pass.lastBucket < (decoder.channel c).bucketsBuf.length := by
    intro other single
    subst single
    obtain rfl := mem_singleton.mp own
    exact sound.lastBucket_lt c rfl
  rw [width] at channel
  refine (bucket_safe _ channel own_last).bind fun bidx bucket_inside => ?_
  refine (readAt_ensures (by rw [channel.row_length]; exact inside)).bind fun value sample => ?_
  refine (readAt_ensures bucket_inside).bind fun bucket listed => ?_
  refine (updateModel8bpc_ensures decoder_sound.family (channel.buckets bucket listed)).bind
    fun updated updated_sound => ?_
  refine (writeAt_ensures bucket_inside channel.buckets updated_sound).bind ?_
  rintro bucketsBuf ⟨length, buckets⟩
  refine ⟨decoder_sound.setChannel ⟨channel.state, channel.zero_lt,
    channel.row_length.trans width.symm, channel.row_lt, channel.bucketsPtrs_length,
    fun bucket pointed => ?_, buckets⟩, { sound.image with width := width }, ?_,
    sound.curRow_length, fun other single => ?_⟩
  · exact (channel.bucketsPtrs_lt bucket pointed).trans_eq length.symm
  · rw [Plane.SameMask, Plane.state_setChannel plane]
    · exact sound.mask
    · rfl
  · simp only [QuicDecoder.channel_setChannel]
    split
    · exact (own_last other single).trans_eq length.symm
    · exact sound.lastBucket_lt other single

theorem drawWait_ensures (small : waitmask < 64) :
    (drawWait plane waitmask pass.decoder).Ensures fun (wait, decoder) =>
      wait < 64 ∧ Pass.Sound size start plane { pass with decoder } := by
  have state := sound.decoder.state plane
  refine (CommonState.tabrand_ensures _).bind ?_
  rintro ⟨random, _⟩ ⟨tabrandSeed, rfl⟩
  refine ⟨Nat.lt_of_le_of_lt Nat.and_le_right small, ?_⟩
  exact sound.setState { state with } rfl rfl

theorem firstPixel_ensures (small : waitmask < 64) (positive : 0 < start.width)
    (shade_safe : ShadeSafe start.width shade) :
    (firstPixel plane shade waitmask 8 pass).Ensures (Pass.Sound size start plane) := by
  refine (decodePixel_ensures sound zeroKey_safe positive shade_safe).bind fun pass sound => ?_
  have wait := (sound.decoder.state plane).waitcnt_lt
  dsimp only
  split
  · exact sound.setWaitcnt (by omega)
  · refine (drawWait_ensures sound small).bind ?_
    rintro ⟨wait, decoder⟩ ⟨wait_lt, drawn⟩
    exact (updateModels_ensures (drawn.setWaitcnt wait_lt) zeroBucket_safe positive).bind
      fun decoder updated => updated

theorem startSegment_ensures (small : waitmask < 64) (inside : i < stop) (fits : stop ≤ start.width)
    (shade_safe : ShadeSafe start.width shade) :
    (startSegment plane shade waitmask 8 i pass).Ensures fun (pass', i', stopidx) =>
      pass'.Sound size start plane ∧ 0 < i' ∧ i' ≤ stop ∧ i' ≤ stopidx ∧ stopidx < i' + 64 := by
  have width := sound.width_le
  rw [startSegment]
  split
  · refine (firstPixel_ensures sound small (by omega) shade_safe).bind fun pass' sound' => ?_
    have wait := (sound'.decoder.state plane).waitcnt_lt
    rw [addUsize_ok (by omega)]
    exact ⟨sound', by omega, by omega, by omega, by omega⟩
  · have wait := (sound.decoder.state plane).waitcnt_lt
    rw [addUsize_ok (by omega)]
    exact ⟨sound, by omega, by omega, by omega, by omega⟩

end

/-! ## Segments of the first row -/

/-- What holds of a segment that ends before pixel `stop`. -/
structure SegPass.Sound (size : Nat) (start : QuicDecoder) (plane : Plane) (stop : Nat)
    (seg : SegPass) : Prop where
  pass : seg.pass.Sound size start plane
  i_pos : 0 < seg.i
  i_le : seg.i ≤ stop
  stopidx_lt : seg.stopidx < seg.i + 64

/-- A sound segment whose next update is still ahead. -/
def SegPass.Ready (size : Nat) (start : QuicDecoder) (plane : Plane) (stop : Nat)
    (seg : SegPass) : Prop :=
  seg.Sound size start plane stop ∧ seg.i ≤ seg.stopidx

theorem row0Round_ensures {seg : SegPass} (small : waitmask < 64) (fits : stop ≤ start.width)
    (sound : seg.Sound size start plane stop) (ahead : seg.i ≤ seg.stopidx) :
    (row0Round plane stop waitmask 8 bpcMask seg).Ensures (Flow.Satisfies
      (fun seg' => seg'.Ready size start plane stop ∧ stop - seg'.i < stop - seg.i)
      (fun seg' => seg'.Sound size start plane stop ∧ stop ≤ seg'.stopidx)) := by
  obtain ⟨pass, positive, inside, near⟩ := sound
  have width := pass.width_le
  rw [row0Round]
  split
  · refine (decodePixels_ensures pass.forgetBucket (by omega)
      (fun j lower upper => leftKey_safe (by omega) (by omega))
      (fun j lower upper => leftShade_safe plane bpcMask (by omega) upper width)).bind
      fun pass' decoded => ?_
    refine (updateModels_ensures decoded (waitBucket_safe (by omega) (by omega)) (by omega)).bind
      fun decoder updated => ?_
    refine (drawWait_ensures updated small).bind ?_
    rintro ⟨wait, decoder'⟩ ⟨wait_lt, drawn⟩
    dsimp only
    rw [addUsize_ok (by omega)]
    exact ⟨⟨⟨drawn, Nat.succ_pos _, by simp only; omega, by simp only; omega⟩, by
      simp only; omega⟩, by simp only; omega⟩
  · exact ⟨⟨pass, positive, inside, near⟩, by omega⟩

/-! ## Runs -/

theorem allEqual_ensures {row : Bytes} {pixel pixel' : Nat} {offsets : List Nat}
    (bounded : row.length < 2 ^ 64) (small : ∀ offset ∈ offsets, offset ≤ 3)
    (inside : pixel + 3 < row.length) (inside' : pixel' + 3 < row.length) :
    (allEqual row pixel pixel' offsets).Ensures fun _ => True := by
  induction offsets with
  | nil => trivial
  | cons offset offsets ih =>
    have bound := small offset mem_cons_self
    rw [allEqual, addUsize_ok (by omega), ok_bind, addUsize_ok (by omega), ok_bind,
      readAt_ok (by omega), ok_bind, readAt_ok (by omega), ok_bind]
    split
    · exact ih fun offset listed => small offset (mem_cons_of_mem _ listed)
    · trivial

theorem startsRun_ensures {runIndex : Nat} (small : width ≤ 16384)
    (above_length : prevRow.length = width * 4) (length : curRow.length = width * 4)
    (positive : 0 < i) (inside : i < width) :
    (startsRun plane prevRow curRow i runIndex).Ensures fun starts => starts → runIndex ≠ i := by
  have offsets : ∀ offset ∈ plane.channels.map plane.offset, offset ≤ 3 := by
    intro offset listed
    obtain ⟨c, -, rfl⟩ := mem_map.mp listed
    exact plane.offset_le c
  rw [startsRun, rgb32PixelSize]
  simp (disch := omega) only [mulUsize_ok, subChecked_ok, ok_bind]
  refine (allEqual_ensures (by omega) offsets (by omega) (by omega)).bind fun above _ => ?_
  split
  · rename_i condition
    exact (allEqual_ensures (by omega) offsets (by omega) (by omega)).mono
      fun _ _ _ => condition.2.1
  · exact fun impossible => nomatch impossible

theorem copyPixel_ensures (small : width ≤ 16384) (length : curRow.length = width * 4)
    (positive : 0 < i) (inside : i < width) :
    (copyPixel plane i curRow).Ensures fun copied => copied.length = width * 4 := by
  rw [copyPixel, subChecked_ok positive, ok_bind]
  refine (clearPad_ensures small inside length).bind fun cleared cleared_length => ?_
  refine foldlM_ensures (fun copied : Bytes => copied.length = width * 4) ?_ cleared_length
  intro copied c _ copied_length
  have offset := plane.offset_le c
  rw [pixelAt_ok (by omega) offset, ok_bind, pixelAt_ok (by omega) offset,
    ok_bind, readAt_ok (by omega), ok_bind, writeAt_ok (by omega)]
  exact length_set.trans copied_length

/-- What is left to do of a segment: two for each pixel, and one if a run may start here. -/
def RowPass.rank (stop : Nat) (row : RowPass) : Nat :=
  2 * (stop - row.i) + if row.runIndex = row.i then 0 else 1

theorem RowPass.rank_lt {row row' : RowPass} (further : row.i < row'.i) (inside : row'.i ≤ stop) :
    row'.rank stop < row.rank stop := by
  rw [RowPass.rank, RowPass.rank]
  split <;> split <;> omega

/-- What holds when the pixels before an update or the end of a segment come to an end. -/
def ExitSound (size : Nat) (start : QuicDecoder) (plane : Plane) (stop rank : Nat)
    (reached : RowPass → Prop) : Exit × RowPass → Prop
  | (.reached, row) => reached row
  | (.broke, row) => row.toSegPass.Ready size start plane stop ∧
      row.rank stop < rank
  | (.finished, row) => row.pass.Sound size start plane

theorem Pass.Sound.setIo {io : BitReader} (sound : pass.Sound size start plane)
    (io_sound : io.Sound size) :
    Pass.Sound size start plane { pass with decoder := { pass.decoder with io } } where
  decoder := { sound.decoder with io := io_sound }
  image := { sound.image with }
  mask := by
    simp only [Plane.SameMask, Plane.state_setIo]
    exact sound.mask
  curRow_length := sound.curRow_length
  lastBucket_lt := sound.lastBucket_lt

theorem decodeRunAt_ensures {row : RowPass} {reached : RowPass → Prop} (fits : stop ≤ start.width)
    (sound : row.toSegPass.Sound size start plane stop) (inside : row.i < stop)
    (ahead : row.i ≤ row.stopidx) (fresh : row.runIndex ≠ row.i) :
    (decodeRunAt plane stop (row.stopidx - row.i) row).Ensures
      (ExitSound size start plane stop (row.rank stop) reached) := by
  obtain ⟨pass, positive, -, near⟩ := sound
  have width := pass.width_le
  have waiting : Pass.Sound size start plane { row.pass with
      decoder := setWaitcnt plane (row.stopidx - row.i) row.pass.decoder } :=
    pass.setWaitcnt (by omega)
  have decoder := waiting.decoder
  refine (decodeRun_ensures decoder.lut decoder.short decoder.io (decoder.state plane)).bind ?_
  rintro run ⟨io, state, waitcnt, wmidx, wmileft⟩
  have counted := (waiting.setIo io).setState state
    (by simp only [Plane.state_setIo]; exact wmidx)
    (by simp only [Plane.state_setIo]; exact wmileft)
  have remaining : run.state.waitcnt = row.stopidx - row.i := by
    refine waitcnt.trans ?_
    simp only [setWaitcnt, Plane.state_setState]
  rw [checkedRunEnd]
  by_cases bounded : row.i ≤ stop ∧ run.runlen ≤ stop - row.i
  · simp only [if_pos bounded]
    refine (forIndex_ensures (fun _ (copied : Bytes) => copied.length = start.width * 4)
      (fun j copied lower upper length => copyPixel_ensures width length (by omega) (by omega))
      pass.curRow_length).bind fun curRow length => ?_
    split
    · exact { counted with curRow_length := length }
    · rename_i short
      rw [Plane.state_setState, remaining, addUsize_ok (by omega)]
      refine ⟨⟨⟨{ counted with curRow_length := length },
        by simp only; omega, by simp only; omega, by simp only; omega⟩, by simp only; omega⟩, ?_⟩
      simp only [RowPass.rank, if_neg fresh]
      split <;> omega
  · simp only [if_neg bounded]
    trivial

section

variable (above_length : prevRow.length = start.width * 4)
include above_length

variable {row : RowPass} {more : RowPass → Bool}

theorem rowRound_ensures (fits : stop ≤ start.width)
    (sound : row.toSegPass.Sound size start plane stop)
    (more_inside : more row → row.i < stop ∧ row.i ≤ row.stopidx)
    (waits : row.i ≤ row.stopidx → wait row.stopidx row.i = .ok (row.stopidx - row.i)) :
    (rowRound plane prevRow stop bpcMask more wait row).Ensures (Flow.Satisfies
      (fun row' => row'.toSegPass.Sound size start plane stop ∧ row'.stopidx = row.stopidx ∧
        row'.runIndex = row.runIndex ∧ row'.i = row.i + 1)
      (ExitSound size start plane stop (row.rank stop) fun row' =>
        row' = row ∧ more row = false)) := by
  have pass := sound.pass
  have positive := sound.i_pos
  have near := sound.stopidx_lt
  have width := pass.width_le
  rw [rowRound]
  split
  · rename_i again
    obtain ⟨inside, ahead⟩ := more_inside again
    refine (startsRun_ensures width above_length pass.curRow_length positive (by omega)).bind
      fun starts fresh => ?_
    split
    · rename_i run
      rw [waits ahead, ok_bind]
      exact (decodeRunAt_ensures fits sound inside ahead (fresh run)).bind fun left kept => kept
    · refine (decodePixel_ensures pass (leftKey_safe positive (by omega)) (by omega)
        (meanShade_safe plane bpcMask above_length positive (by omega) width)).bind
        fun pass' decoded => ?_
      exact ⟨⟨decoded, Nat.succ_pos _, inside, by simp only; omega⟩, rfl, rfl, rfl⟩
  · rename_i ended
    exact ⟨rfl, by simpa using ended⟩

theorem rowPixels_ensures (fits : stop ≤ start.width)
    (sound : row.toSegPass.Sound size start plane stop)
    (more_inside : ∀ row' : RowPass, row'.stopidx = row.stopidx → more row' →
      row'.i < stop ∧ row'.i ≤ row'.stopidx)
    (waits : ∀ {stopidx i}, i ≤ stopidx → wait stopidx i = .ok (stopidx - i)) :
    (loop (rowRound plane prevRow stop bpcMask more wait) (2 * stop + 2) row).Ensures
      (ExitSound size start plane stop (row.rank stop) fun row' =>
        row'.toSegPass.Sound size start plane stop ∧ row'.stopidx = row.stopidx ∧
          row'.runIndex = row.runIndex ∧ row.i ≤ row'.i ∧ more row' = false) := by
  refine loop_ensures (fun row' => row'.toSegPass.Sound size start plane stop ∧
      row'.stopidx = row.stopidx ∧ row'.runIndex = row.runIndex ∧ row.i ≤ row'.i)
    (fun row' => stop - row'.i) ?_ ⟨sound, rfl, rfl, le_rfl⟩ (by omega)
  rintro row' ⟨sound', same, runIndex, further⟩
  refine (rowRound_ensures above_length fits sound' (more_inside row' same) waits).mono ?_
  rintro (next | ⟨exit, row''⟩) kept
  · obtain ⟨sound'', same', runIndex', step⟩ := kept
    have inside := sound''.i_le
    exact ⟨⟨sound'', same'.trans same, runIndex'.trans runIndex, by omega⟩, by omega⟩
  · cases exit with
    | reached =>
      obtain ⟨rfl, ended⟩ := kept
      exact ⟨sound', same, runIndex, further, ended⟩
    | finished => exact kept
    | broke =>
      refine ⟨kept.1, Nat.lt_of_lt_of_le kept.2 ?_⟩
      rcases Nat.eq_or_lt_of_le further with equal | less
      · rw [RowPass.rank, RowPass.rank, runIndex, equal]
      · exact (RowPass.rank_lt less sound'.i_le).le

section

variable (small : waitmask < 64) (fits : stop ≤ start.width)
  (sound : row.toSegPass.Sound size start plane stop) (ahead : row.i ≤ row.stopidx)
include small fits sound ahead

theorem waitRound_ensures :
    (waitRound plane prevRow stop waitmask 8 bpcMask row).Ensures (Flow.Satisfies
      (fun row' => row'.toSegPass.Ready size start plane stop ∧ row'.rank stop < row.rank stop)
      (ExitSound size start plane stop (row.rank stop) fun row' =>
        row' = row ∧ stop ≤ row.stopidx)) := by
  rw [waitRound]
  split
  · rename_i before
    have forgotten : SegPass.Sound size start plane stop
        { row.toSegPass with pass := { row.pass with lastBucket := 0 } } :=
      { sound with pass := sound.pass.forgetBucket }
    refine (rowPixels_ensures above_length fits forgotten ?_ subChecked_ok).bind ?_
    · intro row' same again
      have ordered := of_decide_eq_true again
      simp only at same
      omega
    rintro ⟨exit, row'⟩ kept
    cases exit with
    | broke | finished => exact kept
    | reached =>
      obtain ⟨sound', same, -, further, ended⟩ := kept
      have past := of_decide_eq_false ended
      have inside := sound'.i_le
      have width := sound'.pass.width_le
      simp only at same further
      refine (updateModels_ensures sound'.pass
        (waitBucket_safe (by have := sound.i_pos; omega) (by omega)) (by omega)).bind
        fun decoder updated => ?_
      refine (drawWait_ensures updated small).bind ?_
      rintro ⟨wait, decoder'⟩ ⟨wait_lt, drawn⟩
      dsimp only
      rw [addUsize_ok (by omega)]
      refine ⟨⟨⟨drawn, sound'.i_pos, inside, by simp only; omega⟩, by simp only; omega⟩, ?_⟩
      exact RowPass.rank_lt (by simp only; omega) inside
  · exact ⟨rfl, by omega⟩

theorem waits_ensures :
    (loop (waitRound plane prevRow stop waitmask 8 bpcMask) (2 * stop + 2) row).Ensures
      (ExitSound size start plane stop (row.rank stop) fun row' =>
        row'.toSegPass.Sound size start plane stop ∧ stop ≤ row'.stopidx ∧
          row'.rank stop ≤ row.rank stop) := by
  refine loop_ensures (fun row' =>
      row'.toSegPass.Ready size start plane stop ∧ row'.rank stop ≤ row.rank stop)
    (fun row' => row'.rank stop) ?_ ⟨⟨sound, ahead⟩, le_rfl⟩ ?_
  · rintro row' ⟨⟨sound', ahead'⟩, less⟩
    refine (waitRound_ensures above_length small fits sound' ahead').mono ?_
    rintro (next | ⟨exit, row''⟩) kept
    · exact ⟨⟨kept.1, kept.2.le.trans less⟩, kept.2⟩
    · cases exit with
      | reached =>
        obtain ⟨rfl, past⟩ := kept
        exact ⟨sound', past, less⟩
      | finished => exact kept
      | broke => exact ⟨kept.1, Nat.lt_of_lt_of_le kept.2 less⟩
  · simp only [RowPass.rank]
    split <;> omega

end

end

theorem bppmask_lt {wmidx : Nat} (small : wmidx ≤ defwmimax) :
    (readAt bppmask wmidx : Outcome Unit Nat).Ensures (· < 64) := by
  have table : ∀ wmidx ≤ defwmimax, (readAt bppmask wmidx : Outcome Unit Nat).Ensures (· < 64) := by
    decide
  exact table wmidx small

end

/-! ## Rows -/

section

variable {size : Nat} {plane : Plane}

theorem QuicDecoder.SameImage.refl (decoder : QuicDecoder) : decoder.SameImage decoder :=
  ⟨rfl, rfl, rfl, rfl⟩

variable {start : QuicDecoder} {pass : Pass} {segment : Nat → Nat → Pass → Outcome Unit Pass}

theorem Pass.Sound.rebase (sound : pass.Sound size start plane) :
    pass.Sound size pass.decoder plane :=
  ⟨sound.decoder, .refl _, ⟨rfl, rfl⟩, by rw [sound.image.width]; exact sound.curRow_length,
    sound.lastBucket_lt⟩

theorem Pass.Sound.enter {state : CommonState}
    (sound : pass.Sound size start plane) (state_sound : state.Sound) :
    Pass.Sound size (plane.setState pass.decoder state) plane
      { pass with decoder := plane.setState pass.decoder state } where
  decoder := sound.decoder.setState state_sound plane
  image := .refl _
  mask := ⟨rfl, rfl⟩
  curRow_length := by
    rw [(SameImage.setState plane pass.decoder state).width, sound.image.width]
    exact sound.curRow_length
  lastBucket_lt := fun c single => by
    simp only [bucketsBuf_setState]
    exact sound.lastBucket_lt c single

/-- A decoder of segments that keeps passes sound. -/
def SegmentSafe (size : Nat) (plane : Plane) (width : Nat)
    (segment : Nat → Nat → Pass → Outcome Unit Pass) : Prop :=
  ∀ pos stop pass, pass.decoder.width = width → pos < stop → stop ≤ width →
    Pass.Sound size pass.decoder plane pass →
    (segment pos stop pass).Ensures (Pass.Sound size pass.decoder plane)

/-- What holds between two segments of a row. -/
structure RowCut.Sound (size : Nat) (plane : Plane) (start : QuicDecoder) (cut : RowCut) :
    Prop where
  pass : cut.pass.Sound size cut.pass.decoder plane
  image : start.SameImage cut.pass.decoder
  covered : cut.pos + cut.width = start.width

theorem cutSegment_ensures {cut : RowCut} (safe : SegmentSafe size plane start.width segment)
    (sound : cut.Sound size plane start)
    (fits : (plane.state cut.pass.decoder).wmileft ≤ cut.width) :
    (cutSegment plane segment cut).Ensures fun cut' =>
      cut'.Sound size plane start ∧ plane.SameMask cut.pass.decoder cut'.pass.decoder := by
  obtain ⟨pass, image, covered⟩ := sound
  have width := pass.decoder.width_le
  rw [image.width] at width
  rw [cutSegment]
  split
  · rw [addUsize_ok (by omega), ok_bind]
    refine (safe _ _ _ image.width (by omega) (by omega) pass).bind fun pass' decoded => ?_
    rw [subChecked_ok fits]
    exact ⟨⟨decoded.rebase, image.trans decoded.image, by simp only; omega⟩, decoded.mask⟩
  · exact ⟨⟨pass, image, covered⟩, rfl, rfl⟩

theorem nextMask_ensures (sound : pass.Sound size pass.decoder plane)
    (more : (plane.state pass.decoder).wmidx < defwmimax) :
    (nextMask plane pass.decoder).Ensures fun decoder =>
      Pass.Sound size decoder plane { pass with decoder } ∧ pass.decoder.SameImage decoder ∧
        (plane.state decoder).wmidx = (plane.state pass.decoder).wmidx + 1 := by
  have state := sound.decoder.state plane
  refine (CommonState.setWmTrigger_ensures _).bind ?_
  rintro _ ⟨wmTrigger, rfl⟩
  have entered : CommonState.Sound { plane.state pass.decoder with
      wmidx := (plane.state pass.decoder).wmidx + 1, wmTrigger, wmileft := defwminext } :=
    { state with wmidx_le := more }
  exact ⟨sound.enter entered, SameImage.setState plane _ _, by rw [Plane.state_setState]⟩

theorem cutRound_ensures {cut : RowCut} (safe : SegmentSafe size plane start.width segment)
    (sound : cut.Sound size plane start) : (cutRound plane segment cut).Ensures (Flow.Satisfies
      (fun cut' => cut'.Sound size plane start ∧ defwmimax - (plane.state cut'.pass.decoder).wmidx <
          defwmimax - (plane.state cut.pass.decoder).wmidx)
      (fun cut' => cut'.Sound size plane start ∧
        (defwmimax > (plane.state cut'.pass.decoder).wmidx →
          cut'.width < (plane.state cut'.pass.decoder).wmileft))) := by
  rw [cutRound]
  split
  · rename_i condition
    refine (cutSegment_ensures safe sound condition.2).bind ?_
    rintro cut' ⟨sound', wmidx, -⟩
    refine (nextMask_ensures sound'.pass (by rw [wmidx]; exact condition.1)).bind ?_
    rintro decoder ⟨kept, image, next⟩
    refine ⟨⟨kept, sound'.image.trans image, sound'.covered⟩, ?_⟩
    simp only [next, wmidx]
    omega
  · exact ⟨sound, by omega⟩

theorem uncompressSegments_ensures (safe : SegmentSafe size plane pass.decoder.width segment)
    (sound : pass.Sound size pass.decoder plane) :
    (uncompressSegments plane segment pass).Ensures fun pass' =>
      pass'.Sound size pass'.decoder plane ∧ pass.decoder.SameImage pass'.decoder := by
  have width := sound.decoder.width_le
  refine (loop_ensures (RowCut.Sound size plane pass.decoder)
    (fun cut => defwmimax - (plane.state cut.pass.decoder).wmidx)
    (fun cut kept => cutRound_ensures safe kept) ⟨sound, .refl _, Nat.zero_add _⟩
    (Nat.lt_succ_of_le (Nat.sub_le _ _))).bind ?_
  rintro cut ⟨⟨cut_sound, image, covered⟩, left⟩
  split
  · rw [addUsize_ok (by omega), ok_bind]
    refine (safe _ _ _ image.width (by omega) (by omega) cut_sound).bind fun pass' decoded => ?_
    have state := decoded.decoder.state plane
    dsimp only
    split
    · rename_i more
      rw [decoded.mask.1] at more
      rw [decoded.mask.2, subChecked_ok (left more).le]
      have entered : CommonState.Sound { plane.state pass'.decoder with
          wmileft := (plane.state cut.pass.decoder).wmileft - cut.width } :=
        { state with }
      exact ⟨decoded.enter entered,
        (image.trans decoded.image).trans (SameImage.setState plane _ _)⟩
    · exact ⟨decoded.rebase, image.trans decoded.image⟩
  · exact ⟨cut_sound, image⟩

theorem uncompressRow0_ensures (sound : pass.Sound size pass.decoder plane) :
    (uncompressRow0 plane pass).Ensures fun pass' =>
      pass'.Sound size pass'.decoder plane ∧ pass.decoder.SameImage pass'.decoder := by
  refine uncompressSegments_ensures ?_ sound
  intro pos stop pass' width inside fits sound'
  rw [← width] at fits
  refine (bppmask_lt (sound'.decoder.state plane).wmidx_le).bind fun waitmask small => ?_
  have narrow := sound'.width_le
  refine (startSegment_ensures sound' small inside fits plainShade_safe).bind ?_
  rintro ⟨begun, i', stopidx⟩ ⟨begun_sound, positive, inside', ahead, near⟩
  refine (loop_ensures (SegPass.Ready size pass'.decoder plane stop) (fun seg => stop - seg.i)
    (fun seg kept => row0Round_ensures small fits kept.1 kept.2)
    ⟨⟨begun_sound, positive, inside', near⟩, ahead⟩ (by simp only; omega)).bind ?_
  rintro seg ⟨⟨seg_sound, positive', inside'', near'⟩, past⟩
  refine (decodePixels_ensures seg_sound (by omega)
    (fun j lower upper => leftKey_safe (by omega) (by omega))
    (fun j lower upper => leftShade_safe plane _ (by omega) upper narrow)).bind
    fun drawn decoded => ?_
  exact decoded.setWaitcnt (by omega)

theorem uncompressRow_ensures {prevRow : Bytes}
    (above_length : prevRow.length = pass.decoder.width * 4)
    (sound : pass.Sound size pass.decoder plane) :
    (uncompressRow plane prevRow pass).Ensures fun pass' =>
      pass'.Sound size pass'.decoder plane ∧ pass.decoder.SameImage pass'.decoder := by
  refine uncompressSegments_ensures ?_ sound
  intro pos stop pass' width inside fits sound'
  rw [← width] at above_length fits
  refine (bppmask_lt (sound'.decoder.state plane).wmidx_le).bind fun waitmask small => ?_
  refine (startSegment_ensures sound' small inside fits ?_).bind ?_
  · intro c curRow difference length bound
    have offset := plane.offset_le c
    refine (readAt_ensures (by omega)).bind fun above _ => ?_
    have byte := above.toNat_lt
    rw [addChecked_ok (by omega)]
    trivial
  rintro ⟨begun, i', stopidx⟩ ⟨begun_sound, positive, inside', ahead, near⟩
  refine loop_ensures (fun row : RowPass => row.toSegPass.Ready size pass'.decoder plane stop)
    (fun row => row.rank stop) ?_ ⟨⟨begun_sound, positive, inside', near⟩, ahead⟩ ?_
  · rintro row ⟨sound, ahead⟩
    refine (waits_ensures above_length small fits sound ahead).bind ?_
    rintro ⟨exit, row'⟩ kept
    cases exit with
    | broke | finished => exact kept
    | reached =>
      obtain ⟨sound', past, less⟩ := kept
      refine (rowPixels_ensures above_length fits sound' ?_ fun _ => rfl).bind ?_
      · intro row'' same again
        have inside := of_decide_eq_true again
        omega
      rintro ⟨exit, row''⟩ kept
      cases exit with
      | broke => exact ⟨kept.1, Nat.lt_of_lt_of_le kept.2 less⟩
      | finished => exact kept
      | reached =>
        obtain ⟨sound'', same, -, -, ended⟩ := kept
        have inside := sound''.i_le
        have near := sound''.stopidx_lt
        exact sound''.pass.setWaitcnt (by omega)
  · simp only [RowPass.rank]
    split <;> omega

end

end Quic

end Ryll
