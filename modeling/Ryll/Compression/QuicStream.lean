import Ryll.Compression.QuicReader

/-!
# The bit stream behind the reader of QUIC

The input is a stream of bits: little-endian words, the most significant bit of each first.  The
reader shows the 32 bits of that stream at the position it has reached, however its current word
and the word read ahead share them.
-/

namespace Ryll

namespace Quic

variable (data : Bytes) (position : Nat)

/-- The bit at a position of the stream, if a whole word of the input holds it. -/
def streamBit : Option Bool :=
  (wordAt data (4 * (position / 32))).map fun word => word.getMsbD (position % 32)

/-- The word has the bits of the stream at a position where it holds them, and zeroes elsewhere. -/
def Part (held : Nat → Prop) (word : BitVec 32) : Prop :=
  ∀ offset < 32, (held offset → streamBit data (position + offset) = some (word.getMsbD offset)) ∧
    (¬ held offset → word.getMsbD offset = false)

/-- The bits of the stream at a position. -/
def Window (word : BitVec 32) : Prop :=
  ∀ offset < 32, streamBit data (position + offset) = some (word.getMsbD offset)

section Windows

variable {data : Bytes} {position amount : Nat} {word word' : BitVec 32}

theorem window_of_wordAt (aligned : position % 32 = 0)
    (read : wordAt data (position / 8) = some word) : Window data position word := by
  intro offset inside
  have index : 4 * ((position + offset) / 32) = position / 8 := by omega
  have bit : (position + offset) % 32 = offset := by omega
  rw [streamBit, index, bit, read, Option.map_some]

theorem Window.shiftLeft (window : Window data position word) (amount : Nat) :
    Part data (position + amount) (fun offset => offset + amount < 32) (word <<< amount) := by
  intro offset inside
  rw [BitVec.getMsbD_shiftLeft, Nat.add_assoc, Nat.add_comm amount]
  exact ⟨window (offset + amount),
    fun outside => BitVec.getMsbD_of_ge _ _ (Nat.le_of_not_lt outside)⟩

theorem Window.shiftRight (window : Window data (position + amount) word) :
    Part data position (fun offset => amount ≤ offset) (word >>> amount) := by
  intro offset inside
  refine ⟨fun reached => ?_, fun short => by simp [Nat.lt_of_not_le short]⟩
  have bit := window (offset - amount) (Nat.lt_of_le_of_lt (Nat.sub_le _ _) inside)
  rw [Nat.add_assoc, Nat.add_sub_cancel' reached] at bit
  simpa [inside, Nat.not_lt.mpr reached] using bit

variable {held : Nat → Prop}

theorem Part.or {held' : Nat → Prop} (first : Part data position held word)
    (second : Part data position held' word') :
    Part data position (fun offset => held offset ∨ held' offset) (word ||| word') := by
  intro offset inside
  have one := first offset inside
  have two := second offset inside
  by_cases held offset <;> by_cases held' offset <;> simp_all

theorem Part.window (part : Part data position held word)
    (whole : ∀ offset < 32, held offset) : Window data position word :=
  fun offset inside => (part offset inside).1 (whole offset inside)

end Windows

theorem wordAt_eq_none {data : Bytes} {start : Nat} (past : data.length < start + 4) :
    wordAt data start = none := by
  have missing : data[start + 3]? = none := List.getElem?_eq_none (by omega)
  rw [wordAt, missing]
  split
  · rename_i last
    cases last
  · rfl

namespace BitReader

def firstWord (io : BitReader) (ioPtr : Bytes) : Outcome Unit BitReader :=
  (io.reset ioPtr).loadWord

/-- The words held are those at a position. -/
structure Shows (data : Bytes) (position : Nat) (io : BitReader) : Prop where
  ioNow_eq : io.ioNow = data
  ioEnd_eq : io.ioEnd = data.length
  available_lt : io.ioAvailableBits < 32
  ioIdx_eq : 8 * io.ioIdx = position + io.ioAvailableBits + 32
  /-- The word read ahead is a word of the stream. -/
  aligned : (position + io.ioAvailableBits) % 32 = 0
  ahead : Window data (position + io.ioAvailableBits) io.ioNextWord
  current : Window data position io.ioWord

variable {io io' : BitReader} {data : Bytes} {position : Nat}

theorem readIoWord_ok (returned : io.readIoWord = .ok io') (ends : io.ioEnd = io.ioNow.length) :
    ∃ word, wordAt io.ioNow io.ioIdx = some word ∧
      io' = { io with ioNextWord := word, ioIdx := io.ioIdx + 4 } := by
  obtain ⟨stop, added, rest⟩ := bind_eq_ok.mp returned
  rw [addUsize, addChecked] at added
  split at added
  · cases added
    split at rest
    · cases rest
    · rw [readAt_ok (by omega), readAt_ok (by omega), readAt_ok (by omega),
        readAt_ok (by omega)] at rest
      refine ⟨_, ?_, (Outcome.ok.inj rest).symm⟩
      simp (disch := omega) only [wordAt, List.getElem?_eq_getElem]
  · cases added

theorem readIoWord_error (failed : io.readIoWord = .error ()) (ends : io.ioEnd = io.ioNow.length) :
    wordAt io.ioNow io.ioIdx = none := by
  rw [readIoWord, addUsize, addChecked] at failed
  split at failed
  · rw [ok_bind] at failed
    split at failed
    · exact wordAt_eq_none (by omega)
    · rw [readAt_ok (by omega), readAt_ok (by omega), readAt_ok (by omega),
        readAt_ok (by omega)] at failed
      cases failed
  · cases failed

theorem firstWord_shows (returned : io.firstWord data = .ok io') : io'.Shows data 0 := by
  obtain ⟨read, loaded, stored⟩ := bind_eq_ok.mp returned
  obtain ⟨word, found, rfl⟩ := readIoWord_ok loaded rfl
  cases stored
  have first : Window data 0 word := window_of_wordAt rfl found
  exact ⟨rfl, rfl, Nat.two_pow_pos 5, rfl, rfl, first, first⟩

section

variable (shows : io.Shows data position)
include shows

theorem decodeEatbits_shows {len : Nat} (small : len < 32)
    (returned : io.decodeEatbits len = .ok io') : io'.Shows data (position + len) := by
  obtain ⟨now, ends, available, index, aligned, ahead, current⟩ := shows
  rw [decodeEatbits, shlWord_ok small, ok_bind] at returned
  dsimp only at returned
  split at returned
  · -- The word read ahead still has the bits.
    have left : ((io.ioAvailableBits : Int) - len).toNat = io.ioAvailableBits - len := by omega
    have same : position + len + (io.ioAvailableBits - len) = position + io.ioAvailableBits := by
      omega
    rw [left, shrWord_ok (by omega), ok_bind] at returned
    cases returned
    rw [← same] at index aligned ahead
    exact ⟨now, ends, by simp only; omega, index, aligned, ahead,
      ((current.shiftLeft len).or ahead.shiftRight).window fun offset _ => by omega⟩
  · -- The word read ahead is used up and the next one takes its place.
    have taken : (-((io.ioAvailableBits : Int) - len)).toNat = len - io.ioAvailableBits := by omega
    have same : position + io.ioAvailableBits + (len - io.ioAvailableBits) = position + len := by
      omega
    rw [taken, shlWord_ok (by omega), ok_bind] at returned
    obtain ⟨refilled, loaded, stored⟩ := bind_eq_ok.mp returned
    obtain ⟨word, found, rfl⟩ := readIoWord_ok loaded (now ▸ ends)
    rw [subChecked_ok (by omega), ok_bind, shrWord_ok (by omega), ok_bind] at stored
    cases stored
    dsimp only at found
    have behind : Window data (position + len + (32 - (len - io.ioAvailableBits))) word := by
      refine window_of_wordAt (by omega) ?_
      rw [← now, ← found]
      congr 1
      omega
    have moved := ahead.shiftLeft (len - io.ioAvailableBits)
    rw [same] at moved
    refine ⟨now, ends, by simp only; omega, by simp only; omega, by simp only; omega, behind,
      (((current.shiftLeft len).or moved).or behind.shiftRight).window fun offset _ => by omega⟩

theorem decodeEatbits_error {len : Nat} (small : len < 32)
    (failed : io.decodeEatbits len = .error ()) : wordAt data io.ioIdx = none := by
  have available := shows.available_lt
  rw [decodeEatbits, shlWord_ok small, ok_bind] at failed
  dsimp only at failed
  split at failed
  · rw [shrWord_ok (by omega)] at failed
    cases failed
  rw [shlWord_ok (by omega), ok_bind] at failed
  cases read : readIoWord { io with ioWord := io.ioWord <<< len |||
      io.ioNextWord <<< (-((io.ioAvailableBits : Int) - len)).toNat } with
  | ok io' =>
    rw [read, ok_bind, subChecked_ok (by omega), ok_bind, shrWord_ok (by omega)] at failed
    cases failed
  | error reason =>
    have ended := readIoWord_error read (shows.ioNow_eq ▸ shows.ioEnd_eq)
    rw [← shows.ioNow_eq]
    exact ended
  | fault cause =>
    rw [read] at failed
    cases failed

theorem Shows.sound : io.Sound data.length := by
  obtain ⟨now, ends, available, index, aligned, ahead, -⟩ := shows
  refine ⟨available, ?_, ends, now ▸ rfl⟩
  by_contra past
  have held := ahead 0 (by decide)
  rw [streamBit, wordAt_eq_none (by omega)] at held
  cases held

end

theorem eatbits_shows {lens : List Nat} (small : ∀ len ∈ lens, len < 32)
    (shows : io.Shows data position)
    (returned : lens.foldlM (fun io len => io.decodeEatbits len) io = .ok io') :
    io'.Shows data (position + lens.sum) := by
  induction lens generalizing position io with
  | nil =>
    cases returned
    exact shows
  | cons len lens ih =>
    obtain ⟨next, eaten, rest⟩ := bind_eq_ok.mp returned
    rw [List.sum_cons, ← Nat.add_assoc]
    exact ih (fun other listed => small other (List.mem_cons_of_mem _ listed))
      (decodeEatbits_shows shows (small len List.mem_cons_self) eaten) rest

/-- The current word is the 32 bits of the stream behind what was consumed, and a length is refused
only if no word is left.  In a slice nothing here stops the program. -/
theorem eatbits_follow_the_stream (io : BitReader) (lens : List Nat) {data : Bytes}
    {start io' : BitReader}
    (small : ∀ len ∈ lens, 0 < len ∧ len < 32) (begun : io.firstWord data = .ok start)
    (returned : lens.foldlM (fun io len => io.decodeEatbits len) start = .ok io') :
    (∀ offset < 32, streamBit data (lens.sum + offset) = some (io'.ioWord.getMsbD offset)) ∧
    io'.ioAvailableBits ≤ 31 ∧
    ∀ len, 0 < len → len < 32 → (io'.decodeEatbits len = .error () → wordAt data io'.ioIdx = none) ∧
      (data.length < 2 ^ 63 → ∀ cause, io'.decodeEatbits len ≠ .fault cause) := by
  have shows := eatbits_shows (fun len listed => (small len listed).2) (firstWord_shows begun)
    returned
  rw [Nat.zero_add] at shows
  refine ⟨shows.current, Nat.le_of_lt_succ shows.available_lt, fun len _ below =>
    ⟨decodeEatbits_error shows below, fun short cause fault => ?_⟩⟩
  have returns := decodeEatbits_ensures short below shows.sound
  rw [fault] at returns
  exact returns

/-- Three bytes into the stream the window begins in the first word and ends in the second. -/
theorem threeBytes_follow : ∃ io', [8, 16].foldlM (fun io len => decodeEatbits len io)
        ⟨4, 0, 0x04030201#32, 0x04030201#32, [1, 2, 3, 4, 5, 6, 7, 8], 8⟩ = .ok io' ∧
      ∀ offset < 32, streamBit [1, 2, 3, 4, 5, 6, 7, 8] (24 + offset) =
        some (io'.ioWord.getMsbD offset) :=
  ⟨_, rfl, (eatbits_follow_the_stream ⟨0, 0, 0, 0, [], 0⟩ [8, 16] (by decide) rfl rfl).1⟩

end BitReader

end Quic

end Ryll
