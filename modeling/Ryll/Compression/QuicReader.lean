import Ryll.Compression.QuicModel

/-!
# The bit reader of QUIC

The decoder sees the next 32 bits of the stream as one word and refills it from a word read ahead.
Every operation that returns has consumed exactly the bits it was asked for, which is what makes
the loops of the decoder end.
-/

namespace Ryll

namespace Quic

/-- The stream and the position in it. -/
structure BitReader where
  /-- Index of the next byte to read ahead. -/
  ioIdx : Nat
  /-- Number of bits of the word read ahead that are not yet in the current word. -/
  ioAvailableBits : Nat
  ioWord : BitVec 32
  ioNextWord : BitVec 32
  ioNow : Bytes
  /-- Number of bytes of the stream. -/
  ioEnd : Nat

namespace BitReader

def readIoWord (io : BitReader) : Outcome Unit BitReader := do
  let stop ← addUsize io.ioIdx 4
  if stop > io.ioEnd then
    .error ()
  else
    let b0 ← readAt io.ioNow io.ioIdx
    let b1 ← readAt io.ioNow (io.ioIdx + 1)
    let b2 ← readAt io.ioNow (io.ioIdx + 2)
    let b3 ← readAt io.ioNow (io.ioIdx + 3)
    return { io with ioNextWord := littleEndianWord b0 b1 b2 b3, ioIdx := stop }

/-- Start over at the front of a stream. -/
def reset (ioPtr : Bytes) (io : BitReader) : BitReader :=
  { io with ioNow := ioPtr, ioEnd := ioPtr.length, ioIdx := 0 }

/-- Read a word ahead and make it the current one as well. -/
def loadWord (io : BitReader) : Outcome Unit BitReader := do
  let io ← io.readIoWord
  return { io with ioWord := io.ioNextWord, ioAvailableBits := 0 }

def decodeEatbits (len : Nat) (io : BitReader) : Outcome Unit BitReader := do
  let word ← shlWord io.ioWord len
  let delta : Int := io.ioAvailableBits - len
  if delta ≥ 0 then
    let ioAvailableBits := delta.toNat
    let low ← shrWord io.ioNextWord ioAvailableBits
    return { io with ioAvailableBits, ioWord := word ||| low }
  else
    let delta := (-delta).toNat
    let high ← shlWord io.ioNextWord delta
    let io ← readIoWord { io with ioWord := word ||| high }
    let ioAvailableBits ← subChecked 32 delta
    let low ← shrWord io.ioNextWord ioAvailableBits
    return { io with ioAvailableBits, ioWord := io.ioWord ||| low }

def decodeEat32bits (io : BitReader) : Outcome Unit BitReader := do
  let io ← io.decodeEatbits 16
  io.decodeEatbits 16

/-- The reader is inside its input. -/
structure Sound (size : Nat) (io : BitReader) : Prop where
  available_lt : io.ioAvailableBits < 32
  ioIdx_le : io.ioIdx ≤ io.ioEnd
  ioEnd_eq : io.ioEnd = size
  ioNow_length : io.ioNow.length = size

def bitsLeft (io : BitReader) : Nat := 8 * (io.ioEnd - io.ioIdx) + io.ioAvailableBits

variable {io : BitReader}

theorem readIoWord_ensures {size : Nat} (short : size < 2 ^ 63) (sound : io.Sound size) :
    io.readIoWord.Ensures fun io' => io'.Sound size ∧ io'.ioIdx = io.ioIdx + 4 ∧
      io'.ioAvailableBits = io.ioAvailableBits ∧ io'.ioWord = io.ioWord ∧ io'.ioNow = io.ioNow ∧
      wordAt io.ioNow io.ioIdx = some io'.ioNextWord := by
  obtain ⟨available, index, stop, length⟩ := sound
  rw [readIoWord, addUsize_ok (by omega), ok_bind]
  split
  · trivial
  · rw [readAt_ok (by omega), readAt_ok (by omega), readAt_ok (by omega), readAt_ok (by omega)]
    refine ⟨⟨available, by simp only; omega, stop, length⟩, rfl, rfl, rfl, rfl, ?_⟩
    simp (disch := omega) only [wordAt, List.getElem?_eq_getElem]

theorem decodeEatbits_ensures {size len : Nat} (short : size < 2 ^ 63) (small : len < 32)
    (sound : io.Sound size) : (io.decodeEatbits len).Ensures fun io' =>
      io'.Sound size ∧ io'.bitsLeft + len = io.bitsLeft := by
  have available := sound.available_lt
  rw [decodeEatbits, shlWord_ok small, ok_bind]
  dsimp only
  split
  · rw [shrWord_ok (by omega), ok_bind]
    refine ⟨{ sound with available_lt := by simp only; omega }, ?_⟩
    simp only [bitsLeft]
    omega
  · rw [shlWord_ok (by omega), ok_bind]
    have read : Sound size { io with
        ioWord := io.ioWord <<< len |||
          io.ioNextWord <<< (-((io.ioAvailableBits : Int) - len)).toNat } :=
      { sound with available_lt := available }
    refine (readIoWord_ensures short read).bind ?_
    rintro io' ⟨sound', index, same, -, -, -⟩
    rw [subChecked_ok (by omega), ok_bind, shrWord_ok (by omega), ok_bind]
    refine ⟨{ sound' with available_lt := by simp only; omega }, ?_⟩
    have inside := sound'.ioIdx_le
    have ends := sound'.ioEnd_eq.trans sound.ioEnd_eq.symm
    simp only [bitsLeft]
    simp only at index
    omega

/-- The reader is at a word boundary: nothing of the word read ahead is in the current one. -/
structure Aligned (data : Bytes) (position : Nat) (io : BitReader) : Prop where
  sound : io.Sound data.length
  ioNow_eq : io.ioNow = data
  available_eq : io.ioAvailableBits = 0
  ioIdx_eq : io.ioIdx = position + 4
  ioNextWord_eq : io.ioNextWord = io.ioWord
  wordAt_eq : wordAt data position = some io.ioWord

theorem loadWord_ensures {data : Bytes} (short : data.length < 2 ^ 63)
    (available : io.ioAvailableBits < 32) :
    (io.reset data).loadWord.Ensures (Aligned data 0) := by
  have sound : Sound data.length (io.reset data) := ⟨available, Nat.zero_le _, rfl, rfl⟩
  refine (readIoWord_ensures short sound).bind ?_
  rintro io' ⟨sound', index, -, -, now, read⟩
  exact ⟨{ sound' with available_lt := Nat.two_pow_pos 5 }, now, rfl, index, rfl, read⟩

theorem refill_word (word next : BitVec 32) :
    (word <<< 16 ||| word <<< 16 ||| next >>> 16) <<< 16 ||| next >>> 0 = next := by
  refine BitVec.eq_of_getLsbD_eq fun index small => ?_
  by_cases high : index < 16
  · simp [high]
  · simp [high, small, show index - 16 < 16 by omega, show 16 + (index - 16) = index by omega]

theorem decodeEat32bits_ensures {data : Bytes} {position : Nat} (short : data.length < 2 ^ 63)
    (aligned : io.Aligned data position) :
    io.decodeEat32bits.Ensures (Aligned data (position + 4)) := by
  obtain ⟨sound, now, available, index, next, -⟩ := aligned
  rw [decodeEat32bits, decodeEatbits, shlWord_ok (by decide), ok_bind, available, next]
  have behind : ¬ ((0 : Nat) : Int) - (16 : Nat) ≥ 0 := by decide
  have ahead : (-(((0 : Nat) : Int) - (16 : Nat))).toNat = 16 := by decide
  simp only [if_neg behind, ahead]
  rw [shlWord_ok (by decide), ok_bind, Outcome.bind_assoc]
  have ready : Sound data.length { io with ioWord := io.ioWord <<< 16 ||| io.ioWord <<< 16 } :=
    { sound with }
  simp only [available, next] at ready
  refine (readIoWord_ensures short ready).bind ?_
  rintro io' ⟨sound', index', -, word, now', read⟩
  simp only at index' word now' read
  have level : (((32 - 16 : Nat) : Int) - (16 : Nat)) ≥ 0 := by decide
  have empty : (((32 - 16 : Nat) : Int) - (16 : Nat)).toNat = 0 := by decide
  rw [subChecked_ok (by decide), ok_bind, shrWord_ok (by decide), ok_bind,
    pure_eq, ok_bind, decodeEatbits, shlWord_ok (by decide), ok_bind]
  simp only [if_pos level, empty]
  rw [shrWord_ok (by decide), ok_bind, word]
  exact ⟨{ sound' with available_lt := Nat.two_pow_pos 5 }, now'.trans now,
    rfl, by simp only; omega, (refill_word _ _).symm, by
      rw [refill_word, ← index, ← now]
      exact read⟩

end BitReader

/-! ## Run lengths -/

/-- The state of runs and updates. -/
structure CommonState where
  /-- Number of samples until the model is updated next. -/
  waitcnt : Nat
  /-- Position in the table of pseudo-random numbers. -/
  tabrandSeed : Nat
  /-- Code length at which the counters of a bucket are halved. -/
  wmTrigger : Nat
  wmidx : Nat
  /-- Number of pixels until the wait mask changes. -/
  wmileft : Nat
  melcstate : Nat
  melclen : Nat
  /-- Run length that one more bit stands for. -/
  melcorder : Nat

namespace CommonState

variable (state : CommonState)

def setWmTrigger : Outcome Unit CommonState := do
  let wm := min state.wmidx 10
  let triggers ← readAt besttrigtab (defevol / 2)
  let wmTrigger ← readAt triggers wm
  return { state with wmTrigger }

def setMelcstate (melcstate : Nat) : Outcome Unit CommonState := do
  let melclen ← readAt melcodeJ melcstate
  let melcorder ← shlChecked 64 1 melclen
  return { state with melcstate, melclen, melcorder }

def reset : Outcome Unit CommonState := do
  let state := { state with
    waitcnt := 0, tabrandSeed := 0xff, wmidx := 0, wmileft := defwminext }
  let state ← state.setWmTrigger
  state.setMelcstate 0

def new : Outcome Unit CommonState :=
  reset ⟨0, 0xff, 0, 0, defwminext, 0, 0, 1⟩

def tabrand : Outcome Unit (Nat × CommonState) := do
  let tabrandSeed := (state.tabrandSeed + 1) % 2 ^ 32
  let value ← readAt tabrandChaos (tabrandSeed &&& 0xff)
  return (value, { state with tabrandSeed })

def growRun (run : CommonState × Nat) : Outcome Unit (CommonState × Nat) := do
  let (state, runlen) := run
  let runlen ← addUsize runlen state.melcorder
  -- The last state is `melcstates - 1`; the table has no entry beyond it.
  if state.melcstate < melcstates - 1 then
    let state ← state.setMelcstate (state.melcstate + 1)
    return (state, runlen)
  else
    return (state, runlen)

/-- The counters are in their ranges. -/
structure Sound (state : CommonState) : Prop where
  waitcnt_lt : state.waitcnt < 64
  wmidx_le : state.wmidx ≤ defwmimax
  melcstate_lt : state.melcstate < melcstates
  melclen_lt : state.melclen < 16
  melcorder_le : state.melcorder ≤ 2 ^ 15

/-- The parts of the state that a run length leaves alone. -/
def SameWait (state' : CommonState) : Prop :=
  state'.waitcnt = state.waitcnt ∧ state'.wmidx = state.wmidx ∧ state'.wmileft = state.wmileft

theorem SameWait.trans {first second third : CommonState} (left : first.SameWait second)
    (right : second.SameWait third) : first.SameWait third :=
  ⟨right.1.trans left.1, right.2.1.trans left.2.1, right.2.2.trans left.2.2⟩

theorem setWmTrigger_ensures : state.setWmTrigger.Ensures fun state' =>
    ∃ wmTrigger, state' = { state with wmTrigger } := by
  have rows : ∀ triggers ∈ besttrigtab, triggers.length = 11 := by decide
  refine (readAt_ensures (by decide)).bind fun triggers listed => ?_
  refine (readAt_ensures ?_).bind fun wmTrigger _ => ⟨wmTrigger, rfl⟩
  rw [rows triggers listed]
  omega

theorem setMelcstate_ensures {state : CommonState} {melcstate : Nat} (sound : state.Sound)
    (small : melcstate < melcstates) : (state.setMelcstate melcstate).Ensures fun state' =>
      state'.Sound ∧ state.SameWait state' := by
  have table : ∀ len ∈ melcodeJ, len < 16 := by decide
  refine (readAt_ensures small).bind fun len listed => ?_
  have bound := table len listed
  have order : 1 <<< len % 2 ^ 64 ≤ 2 ^ 15 := by
    rw [Nat.one_shiftLeft]
    exact (Nat.mod_le _ _).trans (Nat.pow_le_pow_right (by decide) (by omega))
  rw [shlChecked_ok (by omega), ok_bind]
  exact ⟨⟨sound.waitcnt_lt, sound.wmidx_le, small, bound, order⟩, rfl, rfl, rfl⟩

theorem reset_ensures : state.reset.Ensures Sound := by
  have order : 1 <<< 0 % 2 ^ 64 ≤ 2 ^ 15 := by decide
  refine (setWmTrigger_ensures _).bind ?_
  rintro _ ⟨wmTrigger, rfl⟩
  exact ⟨Nat.two_pow_pos 6, Nat.zero_le 6, Nat.two_pow_pos 5, Nat.two_pow_pos 4, order⟩

theorem tabrandChaos_length : tabrandChaos.length = 256 := by decide +kernel

theorem tabrand_ensures : state.tabrand.Ensures fun (_, state') =>
    ∃ tabrandSeed, state' = { state with tabrandSeed } := by
  refine (readAt_ensures ?_).bind fun value _ => ⟨_, rfl⟩
  rw [tabrandChaos_length]
  exact Nat.lt_of_le_of_lt Nat.and_le_right (by decide)

end CommonState

/-- The reader, the state and the run length so far. -/
structure RunProgress where
  io : BitReader
  state : CommonState
  runlen : Nat

variable (zeroLut : List Nat)

def runRound (run : RunProgress) :
    Outcome Unit (Flow RunProgress RunProgress) := do
  let x := ~~~(run.io.ioWord >>> 24) &&& 0xff#32
  let temp ← readAt zeroLut x.toNat
  let (state, runlen) ← forIndex (fun _ => CommonState.growRun) 1 temp (run.state, run.runlen)
  if temp ≠ 8 then
    let io ← run.io.decodeEatbits (temp + 1)
    return .leave ⟨io, state, runlen⟩
  else
    let io ← run.io.decodeEatbits 8
    return .next ⟨io, state, runlen⟩

def extraBits (run : RunProgress) : Outcome Unit RunProgress :=
  if run.state.melclen ≠ 0 then do
    let amount ← subChecked 32 run.state.melclen
    let extra ← shrWord run.io.ioWord amount
    let runlen ← addUsize run.runlen extra.toNat
    let io ← run.io.decodeEatbits run.state.melclen
    return { run with io, runlen }
  else
    .ok run

def decodeRun (io : BitReader) (state : CommonState) :
    Outcome Unit RunProgress := do
  let run ← loop (runRound zeroLut) (8 * io.ioEnd + 32) ⟨io, state, 0⟩
  let run ← extraBits run
  if run.state.melcstate ≠ 0 then
    let state ← run.state.setMelcstate (run.state.melcstate - 1)
    return { run with state }
  else
    return run

/-- Invariant of the rounds of a run length: the length so far is paid for by the bits consumed. -/
structure RunProgress.Sound (size bits : Nat) (start : CommonState) (run : RunProgress) : Prop where
  io : run.io.Sound size
  state : run.state.Sound
  same : start.SameWait run.state
  paid : run.runlen + 2 ^ 15 * run.io.bitsLeft ≤ 2 ^ 15 * bits

variable {state : CommonState} {size : Nat}

theorem growRuns_ensures {runlen count : Nat} (sound : state.Sound)
    (room : runlen + 2 ^ 15 * count < 2 ^ 64) :
    (forIndex (fun _ => CommonState.growRun) 1 count (state, runlen)).Ensures
      fun (state', runlen') => state'.Sound ∧ state.SameWait state' ∧
        runlen' ≤ runlen + 2 ^ 15 * count := by
  refine (forIndex_ensures (fun index (run : CommonState × Nat) => run.1.Sound ∧
    state.SameWait run.1 ∧ run.2 + 2 ^ 15 * (1 + count - index) ≤ runlen + 2 ^ 15 * count)
    ?_ ⟨sound, ⟨rfl, rfl, rfl⟩, by simp⟩).mono ?_
  · rintro index ⟨state', runlen'⟩ lower upper ⟨sound', same, paid⟩
    have order := sound'.melcorder_le
    rw [CommonState.growRun]
    dsimp only at order paid ⊢
    rw [addUsize_ok (by omega), ok_bind]
    split
    · rename_i below
      refine (CommonState.setMelcstate_ensures sound' (Nat.add_lt_of_lt_sub below)).bind ?_
      rintro state'' ⟨sound'', same'⟩
      exact ⟨sound'', same.trans same', by simp only; omega⟩
    · exact ⟨sound', same, by simp only; omega⟩
  · rintro ⟨state', runlen'⟩ ⟨sound', same, paid⟩
    exact ⟨sound', same, by simp only at paid ⊢; omega⟩

/-- The table has 256 entries of at most 8. -/
def LutSound : Prop :=
  zeroLut.length = 256 ∧ ∀ zeroes ∈ zeroLut, zeroes ≤ 8

/-- No run length leaves its type: every 32768 pixels of it cost at least one bit. -/
theorem runRound_ensures {bits : Nat} {zeroLut : List Nat}
    {run : RunProgress} (lut : LutSound zeroLut) (short : size < 2 ^ 45)
    (few : bits ≤ 8 * size + 31) (sound : run.Sound size bits state) :
    (runRound zeroLut run).Ensures (Flow.Satisfies
      (fun run' => run'.Sound size bits state ∧ run'.io.bitsLeft < run.io.bitsLeft)
      (RunProgress.Sound size bits state)) := by
  obtain ⟨io, sound_state, same, paid⟩ := sound
  rw [runRound]
  dsimp only
  refine (readAt_ensures ?_).bind fun temp listed => ?_
  · rw [lut.1]
    exact Nat.lt_of_le_of_lt Nat.and_le_right (by decide)
  have bound := lut.2 temp listed
  refine (growRuns_ensures sound_state (by omega)).bind ?_
  rintro ⟨state', runlen'⟩ ⟨sound', same', grown⟩
  split
  · refine (BitReader.decodeEatbits_ensures (by omega) (by omega) io).bind ?_
    rintro io' ⟨io_sound', consumed⟩
    exact ⟨io_sound', sound', same.trans same', by simp only; omega⟩
  · refine (BitReader.decodeEatbits_ensures (by omega) (by decide) io).bind ?_
    rintro io' ⟨io_sound', consumed⟩
    exact ⟨⟨io_sound', sound', same.trans same', by simp only; omega⟩, by simp only; omega⟩

theorem decodeRun_ensures {zeroLut : List Nat} {io : BitReader}
    (lut : LutSound zeroLut) (short : size < 2 ^ 45) (io_sound : io.Sound size)
    (sound : state.Sound) : (decodeRun zeroLut io state).Ensures fun run =>
      run.io.Sound size ∧ run.state.Sound ∧ state.SameWait run.state := by
  have available := io_sound.available_lt
  have ends := io_sound.ioEnd_eq
  have few : io.bitsLeft ≤ 8 * size + 31 := by
    rw [BitReader.bitsLeft]
    omega
  refine (loop_ensures (RunProgress.Sound size io.bitsLeft state) (fun run => run.io.bitsLeft)
    (fun run kept => runRound_ensures lut short few kept)
    ⟨io_sound, sound, ⟨rfl, rfl, rfl⟩, by simp⟩ (by simp only; omega)).bind fun run counted => ?_
  have extra : (extraBits run).Ensures fun run' =>
      run'.io.Sound size ∧ run'.state.Sound ∧ state.SameWait run'.state := by
    obtain ⟨io, sound_state, same, paid⟩ := counted
    have extra := sound_state.melclen_lt
    rw [extraBits]
    split
    · have word := (run.io.ioWord >>> (32 - run.state.melclen)).isLt
      rw [subChecked_ok (by omega), ok_bind, shrWord_ok (by omega), ok_bind,
        addUsize_ok (by omega), ok_bind]
      refine (BitReader.decodeEatbits_ensures (by omega) (by omega) io).bind ?_
      exact fun io' kept => ⟨kept.1, sound_state, same⟩
    · exact ⟨io, sound_state, same⟩
  refine extra.bind ?_
  rintro run' ⟨io', sound', same⟩
  split
  · have bound := sound'.melcstate_lt
    refine (CommonState.setMelcstate_ensures sound' (by omega)).bind ?_
    exact fun state' kept => ⟨io', kept.1, same.trans kept.2⟩
  · exact ⟨io', sound', same⟩

end Quic

end Ryll
