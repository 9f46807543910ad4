import Ryll.Compression.QuicModel

/-!
# The Golomb codes of QUIC

The code word of a residual has a unary part, a one and some suffix bits, or the longest unary part
and an escape suffix.  The decoder and the length function agree on every code word, whatever
follows it in the window, and the levels of a sample fall into consecutive buckets.
-/

namespace Ryll

namespace Quic

/-- The code word of a residual: its length, and the number that its bits denote. -/
def golombCodeword (n l : Nat) (family : Family) : Option (Nat × Nat) := do
  let codewords ← family.nGrCodewords[l]?
  if n < codewords then
    return (n / 2 ^ l + 1 + l, 2 ^ l + n % 2 ^ l)
  else
    let cwlen ← family.notGrCwLen[l]?
    return (cwlen, n - codewords)

/-- A window begins with a word of a length. -/
def StartsWith (bits : BitVec 32) (word : Nat × Nat) : Prop :=
  bits.toNat / 2 ^ (32 - word.1) = word.2

/-- The code with `l` suffix bits: fewer than `alt` zeroes before the one, or an escape of `alt`. -/
structure Family.Code (family : Family) (l alt suffix : Nat) : Prop where
  codewords : family.nGrCodewords[l]? = some (alt * 2 ^ l)
  cwLen : family.notGrCwLen[l]? = some (alt + suffix)
  prefixMask : family.notGrPrefixMask[l]? = some (2 ^ (32 - alt) - 1)
  suffixLen : family.notGrSuffixLen[l]? = some suffix
  alt_pos : 1 ≤ alt
  alt_le : alt ≤ 18
  suffix_le : suffix ≤ 8
  /-- Every residual of 8 bits has a code word. -/
  room : 256 ≤ alt * 2 ^ l + 2 ^ suffix

theorem fillTable_returns {α : Type} {value : Nat → Outcome Unit α} {count : Nat} (start : Nat)
    {table : List α} (fits : table.length = start + count)
    (values : ∀ index < start + count, ∃ entry, value index = .ok entry) :
    ∃ filled, forIndex (fun index table => do
      let entry ← value index
      writeAt table index entry) start count table = .ok filled := by
  induction count generalizing start table with
  | zero => exact ⟨table, rfl⟩
  | succ count ih =>
    obtain ⟨entry, returned⟩ := values start (by omega)
    rw [forIndex, returned, ok_bind, writeAt_ok (by omega), ok_bind]
    exact ih (start + 1) (by rw [List.length_set]; omega) fun index below =>
      values index (by omega)

theorem familyInit_codes : ∃ family, familyInit Family.new 8 defmaxclen = .ok family ∧
    ∀ l < 8, ∃ alt suffix, family.Code l alt suffix := by
  have ranks : ∀ s < 0 + 256, ∃ entry, rankOf 255 s = .ok entry := by
    intro s small
    rw [rankOf, subChecked_ok (by omega)]
    split
    · exact ⟨_, shlChecked_ok (by decide)⟩
    · rw [ok_bind, shlChecked_ok (by decide), ok_bind,
        addChecked_ok (by rw [Nat.shiftLeft_eq]; omega)]
      exact ⟨_, rfl⟩
  have differences : ∀ s < 0 + 256, ∃ entry, differenceOf 255 s = .ok entry := by
    intro s small
    rw [differenceOf, subChecked_ok (by rw [Nat.shiftRight_eq_div_pow]; omega)]
    split <;> exact ⟨_, rfl⟩
  have codes : forIndex (familyCode 8 defmaxclen) 0 8 Family.new = .ok
      ⟨[18, 36, 72, 144, 240, 224, 192, 128], [26, 26, 26, 25, 19, 12, 9, 8],
        [0x3fff, 0x3fff, 0x3fff, 0x3fff, 0x1ffff, 0x1ffffff, 0x1fffffff, 0x7fffffff],
        [8, 8, 8, 7, 4, 5, 6, 7], [], []⟩ := by decide +kernel
  have mask : (readAt bppmask 8 : Outcome Unit Nat) = .ok 255 := rfl
  obtain ⟨xlatU2l, ranked⟩ : ∃ filled,
      fillTable (rankOf 255) 256 (List.replicate 256 0) = .ok filled :=
    fillTable_returns 0 List.length_replicate ranks
  obtain ⟨xlatL2u, translated⟩ : ∃ filled,
      fillTable (differenceOf 255) 256 (List.replicate 256 0) = .ok filled :=
    fillTable_returns 0 List.length_replicate differences
  rw [familyInit, codes, ok_bind, mask, ok_bind, addChecked_ok (by decide),
    ok_bind, ranked, ok_bind, translated, ok_bind]
  refine ⟨_, rfl, fun l small => ⟨[18, 18, 18, 18, 15, 7, 3, 1].getD l 0,
    [8, 8, 8, 7, 4, 5, 6, 7].getD l 0, ?_⟩⟩
  interval_cases l <;> constructor <;> first | rfl | decide

/-! ## Decoding a code word -/

section Decoding

variable {family : Family} {l alt suffix n : Nat} {bits : BitVec 32}

theorem lzeroes_eq {byte zeroes : Nat} (small : zeroes ≤ 8) (below : byte < 2 ^ (8 - zeroes))
    (above : zeroes = 8 ∨ 2 ^ (7 - zeroes) ≤ byte) : lzeroes[byte]? = some zeroes := by
  have table : ∀ zeroes < 9, ∀ byte < 2 ^ (8 - zeroes), zeroes = 8 ∨ 2 ^ (7 - zeroes) ≤ byte →
      lzeroes[byte]? = some zeroes := by decide +kernel
  exact table zeroes (by omega) byte below above

theorem cntLZeroes_eq {zeroes : Nat} (few : zeroes ≤ 17) (lower : 2 ^ (31 - zeroes) ≤ bits.toNat)
    (upper : bits.toNat < 2 ^ (32 - zeroes)) : cntLZeroes bits = .ok zeroes := by
  have first : bits &&& 0xff800000#32 = 0 ↔ bits.toNat < 2 ^ 23 :=
    word_and_highMask_eq_zero 23 9 bits
  have second : bits &&& 0xffff8000#32 = 0 ↔ bits.toNat < 2 ^ 15 :=
    word_and_highMask_eq_zero 15 17 bits
  have third : bits &&& 0xffffff80#32 = 0 ↔ bits.toNat < 2 ^ 7 :=
    word_and_highMask_eq_zero 7 25 bits
  have masked :
      ∀ amount, ((bits >>> amount) &&& 0xff#32).toNat = bits.toNat / 2 ^ amount % 256 := by
    intro amount
    rw [BitVec.toNat_and, BitVec.toNat_ushiftRight, Nat.shiftRight_eq_div_pow]
    exact Nat.and_two_pow_sub_one_eq_mod _ 8
  rw [cntLZeroes]
  by_cases one : zeroes ≤ 8
  · have word : (bits >>> 24).toNat = bits.toNat / 2 ^ 24 := by
      rw [BitVec.toNat_ushiftRight, Nat.shiftRight_eq_div_pow]
    rw [if_pos (mt first.mp (by interval_cases zeroes <;> omega)), word]
    exact readAt_of_getElem? (lzeroes_eq one (by interval_cases zeroes <;> omega)
      (by interval_cases zeroes <;> omega))
  · rw [if_neg (not_not.mpr (first.mpr (by interval_cases zeroes <;> omega)))]
    by_cases two : zeroes ≤ 16
    · obtain ⟨more, rfl⟩ : ∃ more, zeroes = 8 + more := ⟨zeroes - 8, by omega⟩
      have within : more ≤ 8 := by omega
      have byte : lzeroes[bits.toNat / 2 ^ 16 % 256]? = some more :=
        lzeroes_eq within (by interval_cases more <;> omega) (by interval_cases more <;> omega)
      rw [if_pos (mt second.mp (by interval_cases more <;> omega)), masked,
        readAt_of_getElem? byte, ok_bind, addChecked_ok (by omega)]
    · obtain rfl : zeroes = 17 := by omega
      have byte : lzeroes[bits.toNat / 2 ^ 8 % 256]? = some 1 :=
        lzeroes_eq (by decide) (by omega) (by omega)
      rw [if_neg (not_not.mpr (second.mpr (by omega))), if_pos (mt third.mp (by omega)), masked,
        readAt_of_getElem? byte, ok_bind, addChecked_ok (by decide)]

theorem bppmask_eq {count : Nat} (small : count ≤ 8) :
    (readAt bppmask count : Outcome Unit Nat) = .ok (2 ^ count - 1) := by
  interval_cases count <;> rfl

theorem low_byte (byte : n < 256) : n &&& 0xff = n :=
  (Nat.and_two_pow_sub_one_eq_mod n 8).trans (Nat.mod_eq_of_lt byte)

theorem toNat_shiftRight (amount : Nat) : (bits >>> amount).toNat = bits.toNat / 2 ^ amount := by
  rw [BitVec.toNat_ushiftRight, Nat.shiftRight_eq_div_pow]

section

variable (code : family.Code l alt suffix)
include code

theorem golombDecoding8bpc_plain (small : l < 8) (byte : n < 256)
    (plain : n < alt * 2 ^ l) (starts : StartsWith bits (n / 2 ^ l + 1 + l, 2 ^ l + n % 2 ^ l)) :
    golombDecoding8bpc l bits family = .ok (n / 2 ^ l + 1 + l, n) := by
  have unary : n / 2 ^ l < alt := Nat.div_lt_of_lt_mul (Nat.mul_comm alt _ ▸ plain)
  have alt_le := code.alt_le
  have rest : n % 2 ^ l < 2 ^ l := Nat.mod_lt _ (Nat.two_pow_pos l)
  have whole : 2 ^ l * (n / 2 ^ l) + n % 2 ^ l = n := Nat.div_add_mod n (2 ^ l)
  generalize n / 2 ^ l = zeroes at *
  generalize n % 2 ^ l = low at *
  have scale : 2 ^ l * 2 ^ (32 - (zeroes + 1 + l)) = 2 ^ (31 - zeroes) := by
    rw [← Nat.pow_add]
    congr 1
    omega
  have double : 2 ^ (32 - zeroes) = 2 * 2 ^ (31 - zeroes) := by
    rw [← Nat.pow_succ']
    congr 1
    omega
  rw [StartsWith] at starts
  have lower : 2 ^ (31 - zeroes) ≤ bits.toNat := by
    rw [← scale, ← Nat.le_div_iff_mul_le (Nat.two_pow_pos _), starts]
    omega
  have upper : bits.toNat < 2 ^ (32 - zeroes) := by
    rw [double, ← scale, ← Nat.mul_assoc, ← Nat.div_lt_iff_lt_mul (Nat.two_pow_pos _), starts]
    omega
  have golomb : isGolombCode l bits family = .ok true := by
    have above : 2 ^ (32 - alt) ≤ 2 ^ (31 - zeroes) := Nat.pow_le_pow_right (by decide) (by omega)
    rw [isGolombCode, readAt_of_getElem? code.prefixMask]
    split
    · rfl
    · rw [ok_bind, decide_eq_true (by omega)]
      rfl
  rw [golombDecoding8bpc, golomb, ok_bind, if_pos rfl, cntLZeroes_eq (by omega) lower upper]
  simp (disch := omega) only [ok_bind, addChecked_ok, shlChecked_ok, subChecked_ok,
    shrWord_ok, bppmask_eq small.le, toNat_shiftRight, starts, pure_eq]
  have suffix_bits : (2 ^ l + low) &&& (2 ^ l - 1) = low := by
    rw [Nat.and_two_pow_sub_one_eq_mod, Nat.add_mod_left, Nat.mod_eq_of_lt rest]
  have high : zeroes <<< l % 2 ^ 32 = 2 ^ l * zeroes := by
    rw [Nat.shiftLeft_eq, Nat.mul_comm]
    omega
  rw [suffix_bits, high, ← Nat.two_pow_add_eq_or_of_lt rest, whole, low_byte byte]

theorem golombDecoding8bpc_escape (byte : n < 256)
    (escaped : alt * 2 ^ l ≤ n) (starts : StartsWith bits (alt + suffix, n - alt * 2 ^ l)) :
    golombDecoding8bpc l bits family = .ok (alt + suffix, n) := by
  obtain ⟨codewords, cwLen, prefixMask, suffixLen, alt_pos, alt_le, suffix_le, room⟩ := code
  have short : n - alt * 2 ^ l < 2 ^ suffix := by omega
  have scale : 2 ^ suffix * 2 ^ (32 - (alt + suffix)) = 2 ^ (32 - alt) := by
    rw [← Nat.pow_add]
    congr 1
    omega
  have upper : bits.toNat < 2 ^ (32 - alt) := by
    rw [← scale, ← Nat.div_lt_iff_lt_mul (Nat.two_pow_pos _), starts]
    exact short
  have golomb : isGolombCode l bits family = .ok false := by
    have half : 2 ^ (32 - alt) ≤ 2 ^ 31 := Nat.pow_le_pow_right (by decide) (by omega)
    have positive : ¬ bits.toInt < 0 := by
      rw [BitVec.toInt_eq_toNat_cond, if_pos (by omega)]
      omega
    rw [isGolombCode, if_neg positive, readAt_of_getElem? prefixMask, ok_bind,
      decide_eq_false (by omega)]
    rfl
  rw [golombDecoding8bpc, golomb, ok_bind, if_neg Bool.false_ne_true, readAt_of_getElem? cwLen,
    ok_bind, readAt_of_getElem? codewords, ok_bind, subChecked_ok (by omega), ok_bind,
    shrWord_ok (by omega), ok_bind, readAt_of_getElem? suffixLen, ok_bind, bppmask_eq suffix_le,
    ok_bind, toNat_shiftRight, starts, Nat.and_two_pow_sub_one_eq_mod, Nat.mod_eq_of_lt short,
    addChecked_ok (by omega), ok_bind, Nat.add_sub_cancel' escaped, low_byte byte]
  rfl

theorem golombCodeword_agrees (small : l < 8) (byte : n < 256) :
    ∃ word, golombCodeword n l family = some word ∧ word.1 ≤ 32 ∧ word.2 < 2 ^ word.1 ∧
      golombCodeLen8bpc n l family = .ok word.1 ∧
      ∀ bits, StartsWith bits word → golombDecoding8bpc l bits family = .ok (word.1, n) := by
  have alt_le := code.alt_le
  have suffix_le := code.suffix_le
  have room := code.room
  rw [golombCodeword, golombCodeLen8bpc, readAt_of_getElem? code.codewords, code.codewords]
  by_cases plain : n < alt * 2 ^ l
  · have unary : n / 2 ^ l < alt := Nat.div_lt_of_lt_mul (Nat.mul_comm alt _ ▸ plain)
    refine ⟨(n / 2 ^ l + 1 + l, 2 ^ l + n % 2 ^ l), by simp [plain], by simp only; omega, ?_, ?_,
      fun bits => golombDecoding8bpc_plain code small byte plain⟩
    · calc 2 ^ l + n % 2 ^ l < 2 ^ (l + 1) := by rw [Nat.pow_succ]; omega
        _ ≤ 2 ^ (n / 2 ^ l + 1 + l) := Nat.pow_le_pow_right (by decide)
          (Nat.add_right_comm (n / 2 ^ l) l 1 ▸ Nat.le_add_left (l + 1) (n / 2 ^ l))
    · rw [ok_bind, if_pos plain, Nat.shiftRight_eq_div_pow, addChecked_ok (by omega),
        ok_bind, addChecked_ok (by omega)]
  · refine ⟨(alt + suffix, n - alt * 2 ^ l), by simp [plain, code.cwLen], by simp only; omega, ?_,
      ?_, fun bits => golombDecoding8bpc_escape code byte (Nat.not_lt.mp plain)⟩
    · calc n - alt * 2 ^ l < 2 ^ suffix := by omega
        _ ≤ 2 ^ (alt + suffix) := Nat.pow_le_pow_right (by decide) (by omega)
    · rw [ok_bind, if_neg plain]
      exact readAt_of_getElem? code.cwLen

end

end Decoding

/-! ## Buckets of levels -/

/-- The bucket of each level when bucket after bucket has the given number of levels. -/
def bucketRanges (sizes : List Nat) : List Nat :=
  sizes.zipIdx.flatMap fun (size, bucket) => List.replicate size bucket

/-- Each residual has a code word, decoded to it and its length whatever bits follow, and no window
starts with two.  The 256 levels fall into consecutive, non-empty buckets. -/
theorem golomb_codes_and_buckets :
    (∃ family, familyInit Family.new 8 defmaxclen = .ok family ∧ family.Sound ∧ ∀ l < 8,
      (∀ n < 256, ∃ word, golombCodeword n l family = some word ∧
        word.1 ≤ 32 ∧ word.2 < 2 ^ word.1 ∧ golombCodeLen8bpc n l family = .ok word.1 ∧
        ∀ bits, StartsWith bits word → golombDecoding8bpc l bits family = .ok (word.1, n)) ∧
      ∀ n < 256, ∀ n' < 256, n ≠ n' → ∀ word word', golombCodeword n l family = some word →
        golombCodeword n' l family = some word' →
          ∀ bits, ¬ (StartsWith bits word ∧ StartsWith bits word')) ∧
    ∃ model stat sizes, QuicModel.new 8 = .ok model ∧ fillModelStructures model = .ok stat ∧
      stat.nBuckets = model.nBuckets ∧ sizes.length = model.nBuckets ∧ (∀ size ∈ sizes, 0 < size) ∧
      stat.bucketsPtrs = bucketRanges sizes ∧ stat.bucketsPtrs.length = 256 ∧ ∀ level < 256,
        ∃ bucket, stat.bucketsPtrs[level]? = some bucket ∧ bucket < model.nBuckets := by
  constructor
  · obtain ⟨family, returned, codes⟩ := familyInit_codes
    refine ⟨family, returned, familyInit_8bpc.of_eq_ok returned, fun l small => ?_⟩
    obtain ⟨alt, suffix, code⟩ := codes l small
    refine ⟨fun n byte => golombCodeword_agrees code small byte, ?_⟩
    rintro n byte n' byte' differ word word' coded coded' bits ⟨starts, starts'⟩
    obtain ⟨_, found, -, -, -, decoded⟩ := golombCodeword_agrees code small byte
    obtain ⟨_, found', -, -, -, decoded'⟩ := golombCodeword_agrees code small byte'
    obtain rfl := Option.some.inj (coded.symm.trans found)
    obtain rfl := Option.some.inj (coded'.symm.trans found')
    have same := (decoded bits starts).symm.trans (decoded' bits starts')
    simp only [Outcome.ok.injEq, Prod.mk.injEq] at same
    exact differ same.2
  · have model : QuicModel.new 8 = .ok ⟨8, 1, 1, 1, 2, 256⟩ := by decide +kernel
    have filled : fillModelStructures ⟨8, 1, 1, 1, 2, 256⟩ =
        .ok ⟨bucketRanges [1, 2, 4, 8, 16, 32, 64, 129], 8⟩ := by decide +kernel
    have sound := @fillModelStructures_ensures ⟨8, 1, 1, 1, 2, 256⟩ (by decide) (by decide)
      rfl rfl rfl rfl
    rw [filled] at sound
    obtain ⟨levels, listed⟩ := sound
    refine ⟨_, _, _, model, filled, rfl, rfl, by decide, rfl, levels, fun level small => ?_⟩
    have inside : level < (bucketRanges [1, 2, 4, 8, 16, 32, 64, 129]).length := by
      rw [levels]
      exact small
    exact ⟨_, List.getElem?_eq_getElem inside, listed _ (List.getElem_mem inside)⟩

end Quic

end Ryll
