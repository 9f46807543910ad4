import Ryll.Compression.QuicReader

/-!
# Rows of a QUIC image

Colour is decoded three channels at a time, and alpha as a single channel, by one algorithm: a row
is cut into segments with different wait masks, and a segment alternates between samples, runs of
repeated pixels and updates of the model.
-/

namespace Ryll

namespace Quic

def rgb32PixelPad : Nat := 3

def rgb32PixelSize : Nat := 4

/-- The state of a colour channel. -/
structure QuicChannel where
  state : CommonState
  familyStat8bpc : QuicFamilyStat
  familyStat5bpc : QuicFamilyStat
  /-- The sample that stands for the left neighbour of the first one. -/
  zero : Nat
  /-- The samples of the current row, and of the previous one where the row has yet to come. -/
  row : List Nat
  bucketsPtrs : List Nat
  bucketsBuf : List QuicBucket

/-- The state of a decoder. -/
structure QuicDecoder where
  imageType : Nat
  width : Nat
  height : Nat
  /-- Byte length of the RGBA image. -/
  outputLen : Nat
  io : BitReader
  rgbState : CommonState
  channels : Vector QuicChannel 4
  family8bpc : Family
  zeroLut : List Nat

namespace QuicDecoder

variable (decoder : QuicDecoder)

def channel (c : Fin 4) : QuicChannel := decoder.channels[c]

def setChannel (c : Fin 4) (channel : QuicChannel) : QuicDecoder :=
  { decoder with channels := decoder.channels.set c channel }

theorem channel_setChannel (c other : Fin 4) (channel : QuicChannel) :
    (decoder.setChannel c channel).channel other =
      if other = c then channel else decoder.channel other := by
  simp only [setChannel, QuicDecoder.channel, Fin.getElem_fin, Vector.getElem_set]
  by_cases same : other = c
  · simp [same]
  · rw [if_neg (fun equal => same (Fin.ext equal.symm)), if_neg same]

end QuicDecoder

/-! ## Planes -/

/-- What is decoded together: the three colour channels, or one channel by itself. -/
inductive Plane
  | colour
  | single (channel : Fin 4)

namespace Plane

/-- The channel of the opacity. -/
abbrev alpha : Plane := .single 3

/-- The four channels. -/
abbrev allChannels : List (Fin 4) := [0, 1, 2, 3]

def channels : Plane → List (Fin 4)
  | colour => [0, 1, 2]
  | single channel => [channel]

def offset : Plane → Fin 4 → Nat
  | colour, c => 2 - c
  | single _, _ => rgb32PixelPad

def clearsPad : Plane → Bool
  | colour => true
  | single _ => false

def state : Plane → QuicDecoder → CommonState
  | colour, decoder => decoder.rgbState
  | single c, decoder => (decoder.channel c).state

def setState : Plane → QuicDecoder → CommonState → QuicDecoder
  | colour, decoder, state => { decoder with rgbState := state }
  | single c, decoder, state => decoder.setChannel c { decoder.channel c with state }

end Plane

/-- A row being decoded, and the bucket of the last sample. -/
structure Pass where
  decoder : QuicDecoder
  curRow : Bytes
  lastBucket : Nat

/-! ## Samples -/

def pixelAt (i offset : Nat) : Outcome Unit Nat := do
  let pixel ← mulUsize i rgb32PixelSize
  addUsize pixel offset

def decodeSample (c : Fin 4) (key : QuicChannel → Outcome Unit Nat) (i target : Nat)
    (shade : Bytes → Nat → Outcome Unit UInt8) (pass : Pass) : Outcome Unit Pass := do
  let channel := pass.decoder.channel c
  let neighbour ← key channel
  let lastBucket ← readAt channel.bucketsPtrs neighbour
  let bucket ← readAt channel.bucketsBuf lastBucket
  let (cwlen, rc) ←
    golombDecoding8bpc bucket.bestcode pass.decoder.io.ioWord pass.decoder.family8bpc
  let row ← writeAt channel.row i rc
  let difference ← readAt pass.decoder.family8bpc.xlatL2u rc
  let byte ← shade pass.curRow difference
  let curRow ← writeAt pass.curRow target byte
  let io ← pass.decoder.io.decodeEatbits cwlen
  return ⟨{ pass.decoder.setChannel c { channel with row } with io }, curRow, lastBucket⟩

variable (plane : Plane)

def clearPad (i : Nat) (curRow : Bytes) : Outcome Unit Bytes :=
  if plane.clearsPad then do
    let pad ← pixelAt i rgb32PixelPad
    writeAt curRow pad 0
  else
    .ok curRow

def decodePixel (key : QuicChannel → Outcome Unit Nat)
    (shade : Fin 4 → Bytes → Nat → Outcome Unit UInt8) (i : Nat) (pass : Pass) :
    Outcome Unit Pass := do
  let curRow ← clearPad plane i pass.curRow
  plane.channels.foldlM (fun pass c => do
    let target ← pixelAt i (plane.offset c)
    decodeSample c key i target (shade c) pass) { pass with curRow }

def zeroKey (channel : QuicChannel) : Outcome Unit Nat := .ok channel.zero

def leftKey (i : Nat) (channel : QuicChannel) : Outcome Unit Nat := do
  let left ← subChecked i 1
  readAt channel.row left

def plainShade (_ : Fin 4) (_ : Bytes) (difference : Nat) : Outcome Unit UInt8 :=
  .ok (UInt8.ofNat difference)

variable (bpcMask : UInt8)

def leftShade (i : Nat) (c : Fin 4) (curRow : Bytes) (difference : Nat) :
    Outcome Unit UInt8 := do
  let before ← subChecked i 1
  let index ← pixelAt before (plane.offset c)
  let left ← readAt curRow index
  let value ← match plane with
    | .colour => pure ((difference + left.toNat) % 2 ^ 32)
    | .single _ => addChecked 32 difference left.toNat
  return UInt8.ofNat value &&& bpcMask

def aboveShade (prevRow : Bytes) (c : Fin 4) (_ : Bytes)
    (difference : Nat) : Outcome Unit UInt8 := do
  let above ← readAt prevRow (plane.offset c)
  let value ← addChecked 32 difference above.toNat
  return UInt8.ofNat value &&& bpcMask

def meanShade (prevRow : Bytes) (i : Nat) (c : Fin 4) (curRow : Bytes)
    (difference : Nat) : Outcome Unit UInt8 := do
  let before ← subChecked i 1
  let leftIndex ← pixelAt before (plane.offset c)
  let left ← readAt curRow leftIndex
  let aboveIndex ← pixelAt i (plane.offset c)
  let above ← readAt prevRow aboveIndex
  let sum ← addChecked 16 left.toNat above.toNat
  let value ← addChecked 32 difference (sum >>> 1)
  return UInt8.ofNat value &&& bpcMask

/-! ## Updates of the model -/

variable (bucketOf : QuicChannel → Outcome Unit Nat)

def updateModel (index bpc : Nat)
    (decoder : QuicDecoder) (c : Fin 4) : Outcome Unit QuicDecoder := do
  let channel := decoder.channel c
  let bidx ← bucketOf channel
  let value ← readAt channel.row index
  let bucket ← readAt channel.bucketsBuf bidx
  let updated ← bucket.updateModel8bpc (plane.state decoder).wmTrigger value bpc decoder.family8bpc
  let bucketsBuf ← writeAt channel.bucketsBuf bidx updated
  return decoder.setChannel c { channel with bucketsBuf }

def updateModels (index bpc : Nat)
    (decoder : QuicDecoder) : Outcome Unit QuicDecoder :=
  plane.channels.foldlM (updateModel plane bucketOf index bpc) decoder

def zeroBucket (channel : QuicChannel) : Outcome Unit Nat :=
  readAt channel.bucketsPtrs channel.zero

def waitBucket (lastBucket stopidx : Nat) (channel : QuicChannel) : Outcome Unit Nat :=
  match plane with
  | .colour => do
    let left ← subChecked stopidx 1
    let key ← readAt channel.row left
    readAt channel.bucketsPtrs key
  | .single _ => .ok lastBucket

def drawWait (waitmask : Nat) (decoder : QuicDecoder) : Outcome Unit (Nat × QuicDecoder) := do
  let (random, state) ← (plane.state decoder).tabrand
  return (random &&& waitmask, plane.setState decoder state)

def setWaitcnt (waitcnt : Nat) (decoder : QuicDecoder) : QuicDecoder :=
  plane.setState decoder { plane.state decoder with waitcnt }

variable (shade : Fin 4 → Bytes → Nat → Outcome Unit UInt8)

def firstPixel (waitmask bpc : Nat)
    (pass : Pass) : Outcome Unit Pass := do
  let pass ← decodePixel plane zeroKey shade 0 pass
  let waitcnt := (plane.state pass.decoder).waitcnt
  if waitcnt > 0 then
    return { pass with decoder := setWaitcnt plane (waitcnt - 1) pass.decoder }
  else
    let (wait, decoder) ← drawWait plane waitmask pass.decoder
    let decoder ← updateModels plane zeroBucket 0 bpc (setWaitcnt plane wait decoder)
    return { pass with decoder }

def startSegment (waitmask bpc i : Nat)
    (pass : Pass) : Outcome Unit (Pass × Nat × Nat) := do
  if i = 0 then
    let pass ← firstPixel plane shade waitmask bpc pass
    let stopidx ← addUsize (i + 1) (plane.state pass.decoder).waitcnt
    return (pass, i + 1, stopidx)
  else
    let stopidx ← addUsize i (plane.state pass.decoder).waitcnt
    return (pass, i, stopidx)

/-! ## Segments of the first row -/

/-- A segment in progress. -/
structure SegPass where
  pass : Pass
  i : Nat
  stopidx : Nat

def row0Round (stop waitmask bpc : Nat) (bpcMask : UInt8) (seg : SegPass) :
    Outcome Unit (Flow SegPass SegPass) :=
  if seg.stopidx < stop then do
    let pass ← forIndex (fun i => decodePixel plane (leftKey i) (leftShade plane bpcMask i) i)
      seg.i (seg.stopidx + 1 - seg.i) { seg.pass with lastBucket := 0 }
    let i := seg.stopidx + 1
    let decoder ← updateModels plane (waitBucket plane pass.lastBucket seg.stopidx) seg.stopidx bpc
      pass.decoder
    let (wait, decoder) ← drawWait plane waitmask decoder
    let stopidx ← addUsize i wait
    return .next ⟨{ pass with decoder }, i, stopidx⟩
  else
    .ok (.leave seg)

def uncompressRow0Seg (i stop waitmask bpc : Nat) (bpcMask : UInt8) (pass : Pass) :
    Outcome Unit Pass := do
  let (pass, i, stopidx) ← startSegment plane plainShade waitmask bpc i pass
  let seg ← loop (row0Round plane stop waitmask bpc bpcMask) (stop + 1) ⟨pass, i, stopidx⟩
  let pass ← forIndex (fun i => decodePixel plane (leftKey i) (leftShade plane bpcMask i) i)
    seg.i (stop - seg.i) seg.pass
  return { pass with decoder := setWaitcnt plane (seg.stopidx - stop) pass.decoder }

/-! ## Segments of the later rows -/

def allEqual (row : Bytes) (pixel pixel' : Nat) : List Nat → Outcome Unit Bool
  | [] => .ok true
  | offset :: offsets => do
    let index ← addUsize pixel offset
    let index' ← addUsize pixel' offset
    let left ← readAt row index
    let right ← readAt row index'
    if left = right then allEqual row pixel pixel' offsets else return false

def startsRun (prevRow curRow : Bytes) (i runIndex : Nat) : Outcome Unit Bool := do
  let offsets := plane.channels.map plane.offset
  let pixel ← mulUsize i rgb32PixelSize
  let before ← subChecked i 1
  let pixelm1 ← mulUsize before rgb32PixelSize
  let pixelm2 ← mulUsize (i - 2) rgb32PixelSize
  let above ← allEqual prevRow pixelm1 pixel offsets
  if above ∧ runIndex ≠ i ∧ i > 2 then allEqual curRow pixelm1 pixelm2 offsets else return false

def checkedRunEnd (start run stop : Nat) : Option Nat :=
  if start ≤ stop ∧ run ≤ stop - start then some (start + run) else none

def copyPixel (i : Nat) (curRow : Bytes) : Outcome Unit Bytes := do
  let before ← subChecked i 1
  let curRow ← clearPad plane i curRow
  plane.channels.foldlM (fun curRow c => do
    let source ← pixelAt before (plane.offset c)
    let target ← pixelAt i (plane.offset c)
    let byte ← readAt curRow source
    writeAt curRow target byte) curRow

/-- How the pixels before an update, or before the end of a segment, come to an end. -/
inductive Exit
  /-- All of them are decoded. -/
  | reached
  /-- A run has moved the next update. -/
  | broke
  /-- A run has reached the end of the segment. -/
  | finished

/-- A segment of a later row in progress, with the last place where a run has started. -/
structure RowPass extends SegPass where
  runIndex : Nat

def decodeRunAt (stop waitcnt : Nat) (row : RowPass) : Outcome Unit (Exit × RowPass) := do
  let decoder := setWaitcnt plane waitcnt row.pass.decoder
  let run ← decodeRun decoder.zeroLut decoder.io (plane.state decoder)
  let decoder := plane.setState { decoder with io := run.io } run.state
  match checkedRunEnd row.i run.runlen stop with
  | none => .error ()
  | some runEnd => do
    let curRow ← forIndex (copyPixel plane) row.i (runEnd - row.i) row.pass.curRow
    let pass := { row.pass with decoder, curRow }
    if runEnd = stop then
      return (.finished, { row with pass, i := runEnd, runIndex := row.i })
    else
      let stopidx ← addUsize runEnd (plane.state decoder).waitcnt
      return (.broke, { row with pass, i := runEnd, runIndex := row.i, stopidx })

variable (prevRow : Bytes)

def rowRound (stop : Nat) (bpcMask : UInt8) (more : RowPass → Bool)
    (wait : Nat → Nat → Outcome Unit Nat) (row : RowPass) :
    Outcome Unit (Flow RowPass (Exit × RowPass)) :=
  if more row then do
    let starts ← startsRun plane prevRow row.pass.curRow row.i row.runIndex
    if starts then
      let waitcnt ← wait row.stopidx row.i
      let left ← decodeRunAt plane stop waitcnt row
      return .leave left
    else
      let pass ← decodePixel plane (leftKey row.i) (meanShade plane bpcMask prevRow row.i) row.i
        row.pass
      return .next { row with pass, i := row.i + 1 }
  else
    .ok (.leave (.reached, row))

def waitRound (stop waitmask bpc : Nat) (bpcMask : UInt8) (row : RowPass) :
    Outcome Unit (Flow RowPass (Exit × RowPass)) :=
  if row.stopidx < stop then do
    let (exit, row) ← loop
      (rowRound plane prevRow stop bpcMask (fun row => row.i ≤ row.stopidx) subChecked)
      (2 * stop + 2)
      { row with pass := { row.pass with lastBucket := 0 } }
    match exit with
    | .reached => do
      let decoder ← updateModels plane (waitBucket plane row.pass.lastBucket row.stopidx)
        row.stopidx bpc row.pass.decoder
      let (wait, decoder) ← drawWait plane waitmask decoder
      let stopidx ← addUsize row.i wait
      return .next { row with pass := { row.pass with decoder }, stopidx }
    | _ => return .leave (exit, row)
  else
    .ok (.leave (.reached, row))

def segRound (stop waitmask bpc : Nat) (bpcMask : UInt8) (row : RowPass) :
    Outcome Unit (Flow RowPass Pass) := do
  let (exit, row) ← loop (waitRound plane prevRow stop waitmask bpc bpcMask) (2 * stop + 2) row
  match exit with
  | .broke => return .next row
  | .finished => return .leave row.pass
  | .reached => do
    let (exit, row) ← loop (rowRound plane prevRow stop bpcMask (fun row => row.i < stop)
      fun stopidx i => .ok (stopidx - i)) (2 * stop + 2) row
    match exit with
    | .broke => return .next row
    | .finished => return .leave row.pass
    | .reached => return .leave { row.pass with
        decoder := setWaitcnt plane (row.stopidx - stop) row.pass.decoder }

def uncompressRowSeg (i stop bpc : Nat) (bpcMask : UInt8) (pass : Pass) :
    Outcome Unit Pass := do
  let waitmask ← readAt bppmask (plane.state pass.decoder).wmidx
  let (pass, i, stopidx) ← startSegment plane (aboveShade plane bpcMask prevRow) waitmask bpc i pass
  loop (segRound plane prevRow stop waitmask bpc bpcMask) (2 * stop + 2) ⟨⟨pass, i, stopidx⟩, 0⟩

/-! ## Rows -/

/-- A row in progress: the next segment and the pixels that remain. -/
structure RowCut where
  pass : Pass
  pos : Nat
  width : Nat

variable (segment : Nat → Nat → Pass → Outcome Unit Pass)

def cutSegment (cut : RowCut) :
    Outcome Unit RowCut := do
  -- The segment leaves `wmileft` alone, so it does not matter when it is read.
  let wmileft := (plane.state cut.pass.decoder).wmileft
  if wmileft > 0 then
    let stop ← addUsize cut.pos wmileft
    let pass ← segment cut.pos stop cut.pass
    let width ← subChecked cut.width wmileft
    return ⟨pass, stop, width⟩
  else
    return cut

def nextMask (decoder : QuicDecoder) : Outcome Unit QuicDecoder := do
  let state := plane.state decoder
  let state ← { state with wmidx := state.wmidx + 1 }.setWmTrigger
  return plane.setState decoder { state with wmileft := defwminext }

def cutRound (cut : RowCut) :
    Outcome Unit (Flow RowCut RowCut) := do
  let state := plane.state cut.pass.decoder
  if defwmimax > state.wmidx ∧ state.wmileft ≤ cut.width then
    let cut ← cutSegment plane segment cut
    let decoder ← nextMask plane cut.pass.decoder
    return .next { cut with pass := { cut.pass with decoder } }
  else
    return .leave cut

def uncompressSegments (pass : Pass) :
    Outcome Unit Pass := do
  let cut ← loop (cutRound plane segment) (defwmimax + 1) ⟨pass, 0, pass.decoder.width⟩
  if cut.width > 0 then
    let stop ← addUsize cut.pos cut.width
    let pass ← segment cut.pos stop cut.pass
    let state := plane.state pass.decoder
    if defwmimax > state.wmidx then
      let wmileft ← subChecked state.wmileft cut.width
      return { pass with decoder := plane.setState pass.decoder { state with wmileft } }
    else
      return pass
  else
    return cut.pass

def uncompressRow0 (pass : Pass) : Outcome Unit Pass :=
  uncompressSegments plane (fun pos stop pass => do
    let waitmask ← readAt bppmask (plane.state pass.decoder).wmidx
    uncompressRow0Seg plane pos stop waitmask 8 0xff pass) pass

def uncompressRow (pass : Pass) : Outcome Unit Pass :=
  uncompressSegments plane (fun pos stop pass =>
    uncompressRowSeg plane prevRow pos stop 8 0xff pass) pass

def quicRgb32UncompressRow0 : Pass → Outcome Unit Pass := uncompressRow0 .colour

def quicRgb32UncompressRow : Bytes → Pass → Outcome Unit Pass := uncompressRow .colour

def quicFourUncompressRow0 (channelIndex : Fin 4) : Pass → Outcome Unit Pass :=
  uncompressRow0 (.single channelIndex)

def quicFourUncompressRow (channelIndex : Fin 4) : Bytes → Pass → Outcome Unit Pass :=
  uncompressRow (.single channelIndex)

end Quic

end Ryll
