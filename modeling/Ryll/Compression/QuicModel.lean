import Ryll.Foundation.Words

/-!
# The adaptive Golomb model of QUIC

Each channel sorts its samples into buckets by the neighbouring sample, and each bucket chooses
among eight Golomb codes the one that would have been shortest so far.  The code families and the
bucket boundaries are computed when a decoder is created.
-/

namespace Ryll

namespace Quic

/-! ## Constants -/

def defevol : Nat := 3

def defwmimax : Nat := 6

def defwminext : Nat := 2048

def defmaxclen : Nat := 26

def bppmask : List Nat :=
  [0x00000000, 0x00000001, 0x00000003, 0x00000007, 0x0000000f, 0x0000001f, 0x0000003f, 0x0000007f,
   0x000000ff, 0x000001ff, 0x000003ff, 0x000007ff, 0x00000fff, 0x00001fff, 0x00003fff, 0x00007fff,
   0x0000ffff, 0x0001ffff, 0x0003ffff, 0x0007ffff, 0x000fffff, 0x001fffff, 0x003fffff, 0x007fffff,
   0x00ffffff, 0x01ffffff, 0x03ffffff, 0x07ffffff, 0x0fffffff, 0x1fffffff, 0x3fffffff, 0x7fffffff,
   0xffffffff]

def besttrigtab : List (List Nat) :=
  [[550, 900, 800, 700, 500, 350, 300, 200, 180, 180, 160],
   [110, 550, 900, 800, 550, 400, 350, 250, 140, 160, 140],
   [100, 120, 550, 900, 700, 500, 400, 300, 220, 250, 160]]

def melcstates : Nat := 32

def melcodeJ : List Nat :=
  [0, 0, 0, 0, 1, 1, 1, 1, 2, 2, 2, 2, 3, 3, 3, 3,
   4, 4, 5, 5, 6, 6, 7, 7, 8, 9, 10, 11, 12, 13, 14, 15]

/-- The number of leading zeroes of each byte. -/
def lzeroes : List Nat :=
  [8, 7, 6, 6] ++ List.replicate 4 5 ++ List.replicate 8 4 ++ List.replicate 16 3 ++
    List.replicate 32 2 ++ List.replicate 64 1 ++ List.replicate 128 0

def tabrandChaos : List Nat :=
  [0x02c57542, 0x35427717, 0x2f5a2153, 0x9244f155, 0x7bd26d07, 0x354c6052, 0x57329b28, 0x2993868e,
   0x6cd8808c, 0x147b46e0, 0x99db66af, 0xe32b4cac, 0x1b671264, 0x9d433486, 0x62a4c192, 0x06089a4b,
   0x9e3dce44, 0xdaabee13, 0x222425ea, 0xa46f331d, 0xcd589250, 0x8bb81d7f, 0xc8b736b9, 0x35948d33,
   0xd7ac7fd0, 0x5fbe2803, 0x2cfbc105, 0x013dbc4e, 0x7a37820f, 0x39f88e9e, 0xedd58794, 0xc5076689,
   0xfcada5a4, 0x64c2f46d, 0xb3ba3243, 0x8974b4f9, 0x5a05aebd, 0x20afcd00, 0x39e2b008, 0x88a18a45,
   0x600bde29, 0xf3971ace, 0xf37b0a6b, 0x7041495b, 0x70b707ab, 0x06beffbb, 0x4206051f, 0xe13c4ee3,
   0xc1a78327, 0x91aa067c, 0x8295f72a, 0x732917a6, 0x1d871b4d, 0x4048f136, 0xf1840e7e, 0x6a6048c1,
   0x696cb71a, 0x7ff501c3, 0x0fc6310b, 0x57e0f83d, 0x8cc26e74, 0x11a525a2, 0x946934c7, 0x7cd888f0,
   0x8f9d8604, 0x4f86e73b, 0x04520316, 0xdeeea20c, 0xf1def496, 0x67687288, 0xf540c5b2, 0x22401484,
   0x3478658a, 0xc2385746, 0x01979c2c, 0x5dad73c8, 0x0321f58b, 0xf0fedbee, 0x92826ddf, 0x284bec73,
   0x5b1a1975, 0x03df1e11, 0x20963e01, 0xa17cf12b, 0x740d776e, 0xa7a6bf3c, 0x01b5cce4, 0x1118aa76,
   0xfc6fac0a, 0xce927e9b, 0x00bf2567, 0x806f216c, 0xbca69056, 0x795bd3e9, 0xc9dc4557, 0x8929b6c2,
   0x789d52ec, 0x3f3fbf40, 0xb9197368, 0xa38c15b5, 0xc3b44fa8, 0xca8333b0, 0xb7e8d590, 0xbe807feb,
   0xbf5f8360, 0xd99e2f5c, 0x372928e1, 0x7c757c4c, 0x0db5b154, 0xc01ede02, 0x1fc86e78, 0x1f3985be,
   0xb4805c77, 0x00c880fa, 0x974c1b12, 0x35ab0214, 0xb2dc840d, 0x5b00ae37, 0xd313b026, 0xb260969d,
   0x7f4c8879, 0x1734c4d3, 0x49068631, 0xb9f6a021, 0x6b863e6f, 0xcee5debf, 0x29f8c9fb, 0x53dd6880,
   0x72b61223, 0x1f67a9fd, 0x0a0f6993, 0x13e59119, 0x11cca12e, 0xfe6b6766, 0x16b6effc, 0x97918fc4,
   0xc2b8a563, 0x94f2f741, 0x0bfa8c9a, 0xd1537ae8, 0xc1da349c, 0x873c60ca, 0x95005b85, 0x9b5c080e,
   0xbc8abbd9, 0xe1eab1d2, 0x6dac9070, 0x4ea9ebf1, 0xe0cf30d4, 0x1ef5bd7b, 0xd161043e, 0x5d2fa2e2,
   0xff5d3cae, 0x86ed9f87, 0x2aa1daa1, 0xbd731a34, 0x9e8f4b22, 0xb1c2c67a, 0xc21758c9, 0xa182215d,
   0xccb01948, 0x8d168df7, 0x04238cfe, 0x368c3dbc, 0x0aeadca5, 0xbad21c24, 0x0a71fee5, 0x9fc5d872,
   0x54c152c6, 0xfc329483, 0x6783384a, 0xeddb3e1c, 0x65f90e30, 0x884ad098, 0xce81675a, 0x4b372f7d,
   0x68bf9a39, 0x43445f1e, 0x40f8d8cb, 0x90d5acb6, 0x4cd07282, 0x349eeb06, 0x0c9d5332, 0x520b24ef,
   0x80020447, 0x67976491, 0x2f931ca3, 0xfe9b0535, 0xfcd30220, 0x61a9e6cc, 0xa487d8d7, 0x3f7c5dd1,
   0x7d0127c5, 0x48f51d15, 0x60dea871, 0xc9a91cb7, 0x58b53bb3, 0x9d5e0b2d, 0x624a78b4, 0x30dbee1b,
   0x9bdf22e7, 0x1df5c299, 0x2d5643a7, 0xf4dd35ff, 0x03ca8fd6, 0x53b47ed8, 0x6f2c19aa, 0xfeb0c1f4,
   0x49e54438, 0x2f2577e6, 0xbf876969, 0x72440ea9, 0xfa0bafb8, 0x74f5b3a0, 0x7dd357cd, 0x89ce1358,
   0x6ef2cdda, 0x1e7767f3, 0xa6be9fdb, 0x4f5f88f8, 0xba994a3a, 0x08ca6b65, 0xe0893818, 0x9e00a16a,
   0xf42bfc8f, 0x9972eedc, 0x749c8b51, 0x32c05f5e, 0xd706805f, 0x6bfbb7cf, 0xd9210a10, 0x31a1db97,
   0x923a9559, 0x37a7a1f6, 0x059f8861, 0xca493e62, 0x65157e81, 0x8f6467dd, 0xab85ff9f, 0x9331aff2,
   0x8616b9f5, 0xedbd5695, 0xee7e29b1, 0x313ac44f, 0xb903112f, 0x432ef649, 0xdc0a36c0, 0x61cf2bba,
   0x81474925, 0xa8b6c7ad, 0xee5931de, 0xb2f8158d, 0x59fb7409, 0x2e3dfaed, 0x9af25a3f, 0xe1fed4d5]

/-! ## Code families -/

/-- The Golomb codes with 0 to 7 suffix bits, their escapes, and the map to signed differences. -/
structure Family where
  /-- Number of values with a plain Golomb code. -/
  nGrCodewords : List Nat
  /-- Length of the escape codes. -/
  notGrCwLen : List Nat
  /-- Largest word that starts with the escape. -/
  notGrPrefixMask : List Nat
  /-- Number of bits after the escape. -/
  notGrSuffixLen : List Nat
  xlatU2l : List Nat
  /-- From a rank to its difference. -/
  xlatL2u : List Nat
  deriving DecidableEq

def Family.new : Family where
  nGrCodewords := List.replicate 8 0
  notGrCwLen := List.replicate 8 0
  notGrPrefixMask := List.replicate 8 0
  notGrSuffixLen := List.replicate 8 0
  xlatU2l := []
  xlatL2u := []

def ceilLog2Round : Nat × Nat → Outcome Unit (Flow (Nat × Nat) Nat)
  | (val, result) =>
    if val = 0 then
      .ok (.leave result)
    else
      let val := val >>> 1
      if val ≠ 0 then do
        let result ← addChecked 32 result 1
        return .next (val, result)
      else
        .ok (.next (val, result))

def ceilLog2 (val : Nat) : Outcome Unit Nat :=
  if val = 1 then
    .ok 0
  else do
    let val ← subChecked val 1
    loop ceilLog2Round 33 (val, 1)

def familyCode (bpc limit l : Nat) (family : Family) : Outcome Unit Family := do
  let longest ← subChecked limit bpc
  let bits ← subChecked bpc l
  let mask ← readAt bppmask bits
  let altprefixlen := if longest > mask then mask else longest
  let largest ← readAt bppmask bpc
  let values ← addChecked 32 largest 1
  let codewords ← shlChecked 32 altprefixlen l
  let altcodewords ← subChecked values codewords
  let suffixLen ← ceilLog2 altcodewords
  let nGrCodewords ← writeAt family.nGrCodewords l codewords
  let cwLen ← addChecked 32 altprefixlen suffixLen
  let notGrCwLen ← writeAt family.notGrCwLen l cwLen
  let shift ← subChecked 32 altprefixlen
  let escapeMask ← readAt bppmask shift
  let notGrPrefixMask ← writeAt family.notGrPrefixMask l escapeMask
  let notGrSuffixLen ← writeAt family.notGrSuffixLen l suffixLen
  return { family with nGrCodewords, notGrCwLen, notGrPrefixMask, notGrSuffixLen }

def rankOf (pixelbitmask s : Nat) : Outcome Unit Nat :=
  if s ≤ pixelbitmask >>> 1 then
    shlChecked 32 s 1
  else do
    let distance ← subChecked pixelbitmask s
    let doubled ← shlChecked 32 distance 1
    addChecked 32 doubled 1

def differenceOf (pixelbitmask s : Nat) : Outcome Unit Nat :=
  if s &&& 0x1 = 1 then subChecked pixelbitmask (s >>> 1) else .ok (s >>> 1)

@[irreducible]
def familyInit (family : Family) (bpc limit : Nat) : Outcome Unit Family := do
  let family ← forIndex (familyCode bpc limit) 0 bpc family
  let pixelbitmask ← readAt bppmask bpc
  let values ← addChecked 32 pixelbitmask 1
  let xlatU2l ← fillTable (rankOf pixelbitmask) values (List.replicate values 0)
  let xlatL2u ← fillTable (differenceOf pixelbitmask) values (List.replicate values 0)
  return { family with xlatU2l, xlatL2u }

/-- The tables of a family have their sizes, and their entries are in range. -/
structure Family.Sound (family : Family) : Prop where
  nGrCodewords_length : family.nGrCodewords.length = 8
  notGrCwLen_length : family.notGrCwLen.length = 8
  notGrPrefixMask_length : family.notGrPrefixMask.length = 8
  notGrSuffixLen_length : family.notGrSuffixLen.length = 8
  nGrCodewords_le : ∀ count ∈ family.nGrCodewords, count ≤ 255
  notGrCwLen_bounds : ∀ length ∈ family.notGrCwLen, 1 ≤ length ∧ length ≤ 26
  le_notGrPrefixMask : ∀ mask ∈ family.notGrPrefixMask, 2 ^ 14 ≤ mask + 1
  notGrSuffixLen_le : ∀ length ∈ family.notGrSuffixLen, length ≤ 8
  xlatL2u_length : family.xlatL2u.length = 256
  xlatL2u_le : ∀ difference ∈ family.xlatL2u, difference ≤ 255

variable {pixelbitmask l curval : Nat} {bits : BitVec 32} {family : Family} {counters : List Nat}

theorem rankOf_ensures {s : Nat} (inside : s ≤ pixelbitmask) :
    (rankOf pixelbitmask s).Ensures fun _ => True := by
  rw [rankOf]
  split
  · rw [shlChecked_ok (by decide)]
    trivial
  · rw [subChecked_ok inside, ok_bind, shlChecked_ok (by decide), ok_bind,
      addChecked_ok (by rw [Nat.shiftLeft_eq]; omega)]
    trivial

theorem differenceOf_ensures {s : Nat} (inside : s ≤ pixelbitmask) :
    (differenceOf pixelbitmask s).Ensures (· ≤ pixelbitmask) := by
  have half : s >>> 1 ≤ pixelbitmask := by
    omega
  rw [differenceOf]
  split
  · rw [subChecked_ok half]
    exact Nat.sub_le _ _
  · exact half

theorem familyInit_ensures {bpc limit : Nat} {codes : Family → Prop}
    (mask : bppmask[bpc]? = some pixelbitmask) (small : pixelbitmask < 2 ^ 31)
    (filled : (forIndex (familyCode bpc limit) 0 bpc Family.new).Ensures codes) :
    (familyInit Family.new bpc limit).Ensures fun family =>
      (∃ xlatU2l xlatL2u, codes { family with xlatU2l, xlatL2u }) ∧
        family.xlatL2u.length = pixelbitmask + 1 ∧
        ∀ difference ∈ family.xlatL2u, difference ≤ pixelbitmask := by
  rw [familyInit]
  refine filled.bind fun family coded => ?_
  rw [readAt_of_getElem? mask, ok_bind, addChecked_ok (by omega), ok_bind]
  have zeros : ∀ entry ∈ List.replicate (pixelbitmask + 1) 0, entry ≤ pixelbitmask := by
    intro entry present
    rw [List.eq_of_mem_replicate present]
    exact Nat.zero_le _
  refine (fillTable_ensures (by simp) (fun _ _ => trivial)
    fun s inside => rankOf_ensures (by omega)).bind fun xlatU2l _ => ?_
  refine (fillTable_ensures (by simp) zeros
    fun s inside => differenceOf_ensures (by omega)).bind fun xlatL2u translated => ?_
  rw [List.length_replicate] at translated
  exact ⟨⟨family.xlatU2l, family.xlatL2u, coded⟩, translated⟩

theorem familyInit_8bpc : (familyInit Family.new 8 defmaxclen).Ensures Family.Sound := by
  have codes : (forIndex (familyCode 8 defmaxclen) 0 8 Family.new).Ensures fun family =>
      (family.nGrCodewords.length = 8 ∧ family.notGrCwLen.length = 8 ∧
        family.notGrPrefixMask.length = 8 ∧ family.notGrSuffixLen.length = 8) ∧
      (∀ count ∈ family.nGrCodewords, count ≤ 255) ∧
      (∀ length ∈ family.notGrCwLen, 1 ≤ length ∧ length ≤ 26) ∧
      (∀ mask ∈ family.notGrPrefixMask, 2 ^ 14 ≤ mask + 1) ∧
      ∀ length ∈ family.notGrSuffixLen, length ≤ 8 := by
    decide +kernel
  have mask : bppmask[8]? = some 255 := rfl
  refine (familyInit_ensures mask (by decide) codes).mono ?_
  rintro family ⟨⟨_, _, ⟨l1, l2, l3, l4⟩, b1, b2, b3, b4⟩, l5, b5⟩
  exact ⟨l1, l2, l3, l4, b1, b2, b3, b4, l5, b5⟩

theorem familyInit_5bpc : (familyInit Family.new 5 defmaxclen).Ensures fun _ => True := by
  have codes : (forIndex (familyCode 5 defmaxclen) 0 5 Family.new).Ensures fun _ => True := by
    decide +kernel
  have mask : bppmask[5]? = some 31 := rfl
  exact (familyInit_ensures mask (by decide) codes).mono fun _ _ => trivial

/-! ## Golomb codes -/

def cntLZeroes (bits : BitVec 32) : Outcome Unit Nat :=
  if bits &&& 0xff800000#32 ≠ 0 then
    readAt lzeroes (bits >>> 24).toNat
  else if bits &&& 0xffff8000#32 ≠ 0 then do
    let zeroes ← readAt lzeroes ((bits >>> 16) &&& 0xff#32).toNat
    addChecked 32 8 zeroes
  else if bits &&& 0xffffff80#32 ≠ 0 then do
    let zeroes ← readAt lzeroes ((bits >>> 8) &&& 0xff#32).toNat
    addChecked 32 16 zeroes
  else do
    let zeroes ← readAt lzeroes (bits &&& 0xff#32).toNat
    addChecked 32 24 zeroes

def isGolombCode (l : Nat) (bits : BitVec 32) (family : Family) : Outcome Unit Bool :=
  if bits.toInt < 0 then
    .ok true
  else do
    let mask ← readAt family.notGrPrefixMask l
    return decide (bits.toNat > mask)

def golombDecoding8bpc (l : Nat) (bits : BitVec 32) (family : Family) :
    Outcome Unit (Nat × Nat) := do
  let golomb ← isGolombCode l bits family
  if golomb then
    let zeroprefix ← cntLZeroes bits
    let unary ← addChecked 32 zeroprefix 1
    let cwlen ← addChecked 32 unary l
    let high ← shlChecked 32 zeroprefix l
    let amount ← subChecked 32 cwlen
    let shifted ← shrWord bits amount
    let mask ← readAt bppmask l
    -- The value is clamped to the range of samples before it indexes a table.
    return (cwlen, (high ||| (shifted.toNat &&& mask)) &&& 0xff)
  else
    let cwlen ← readAt family.notGrCwLen l
    let codewords ← readAt family.nGrCodewords l
    let amount ← subChecked 32 cwlen
    let shifted ← shrWord bits amount
    let suffixLen ← readAt family.notGrSuffixLen l
    let mask ← readAt bppmask suffixLen
    let rc ← addChecked 32 codewords (shifted.toNat &&& mask)
    return (cwlen, rc &&& 0xff)

def golombCodeLen8bpc (n l : Nat) (family : Family) : Outcome Unit Nat := do
  let codewords ← readAt family.nGrCodewords l
  if n < codewords then
    let unary ← addChecked 32 (n >>> l) 1
    addChecked 32 unary l
  else
    readAt family.notGrCwLen l

theorem lzeroes_length : lzeroes.length = 256 := by decide +kernel

theorem lzeroes_le : ∀ zeroes ∈ lzeroes, zeroes ≤ 8 := by decide +kernel

theorem lzeroes_of_le (byte : Nat) (lower : 64 ≤ byte) (upper : byte < 256) :
    ∃ zeroes ≤ 1, lzeroes[byte]? = some zeroes := by
  have table : ∀ byte < 256, 64 ≤ byte → ∃ zeroes ≤ 1, lzeroes[byte]? = some zeroes := by
    decide +kernel
  exact table byte upper lower

theorem cntLZeroes_ensures (large : 2 ^ 14 ≤ bits.toNat) : (cntLZeroes bits).Ensures (· ≤ 17) := by
  have byte_lt : ∀ word : BitVec 32, (word &&& 0xff#32).toNat < 256 := fun word =>
    Nat.lt_of_le_of_lt Nat.and_le_right (by decide)
  have medium := word_and_highMask_eq_zero 15 17 bits
  have tiny := word_and_highMask_eq_zero 7 25 bits
  rw [cntLZeroes]
  split
  · refine (readAt_ensures ?_).mono fun zeroes listed =>
      (lzeroes_le zeroes listed).trans (by decide)
    rw [lzeroes_length, BitVec.toNat_ushiftRight, Nat.shiftRight_eq_div_pow]
    omega
  split
  · refine (readAt_ensures (by rw [lzeroes_length]; exact byte_lt _)).bind fun zeroes listed => ?_
    have bound := lzeroes_le zeroes listed
    rw [addChecked_ok (by omega)]
    change 8 + zeroes ≤ 17
    omega
  · rename_i first second
    have below : bits.toNat < 2 ^ 15 := medium.mp (Decidable.not_not.mp second)
    split
    · have byte : ((bits >>> 8) &&& 0xff#32).toNat = bits.toNat / 256 := by
        rw [BitVec.toNat_and, BitVec.toNat_ushiftRight, Nat.shiftRight_eq_div_pow]
        change bits.toNat / 2 ^ 8 &&& 2 ^ 8 - 1 = _
        rw [Nat.and_two_pow_sub_one_eq_mod]
        omega
      obtain ⟨zeroes, bound, found⟩ := lzeroes_of_le (bits.toNat / 256) (by omega) (by omega)
      rw [byte, readAt_of_getElem? found, ok_bind, addChecked_ok (by omega)]
      change 16 + zeroes ≤ 17
      omega
    · rename_i third
      have := tiny.mp (Decidable.not_not.mp third)
      omega

section

variable (sound : family.Sound)
include sound

theorem isGolombCode_ensures (small : l < 8) :
    (isGolombCode l bits family).Ensures fun golomb => golomb → 2 ^ 14 ≤ bits.toNat := by
  rw [isGolombCode]
  split
  · rename_i negative
    intro _
    rw [BitVec.toInt_eq_toNat_cond] at negative
    split at negative <;> omega
  · refine (readAt_ensures (by rw [sound.notGrPrefixMask_length]; exact small)).bind ?_
    intro mask listed golomb
    have := sound.le_notGrPrefixMask mask listed
    have := of_decide_eq_true golomb
    omega

theorem golombDecoding8bpc_ensures (small : l < 8) :
    (golombDecoding8bpc l bits family).Ensures fun (cwlen, rc) =>
      1 ≤ cwlen ∧ cwlen ≤ 26 ∧ rc ≤ 255 := by
  have mask_listed :
      ∀ length ≤ 8, (readAt bppmask length : Outcome Unit Nat).Ensures (· ≤ 255) := by
    decide
  refine (isGolombCode_ensures sound small).bind fun golomb large => ?_
  split
  · rename_i is_golomb
    refine (cntLZeroes_ensures (large is_golomb)).bind fun zeroprefix bound => ?_
    simp (disch := omega) only [addChecked_ok, shlChecked_ok, subChecked_ok, shrWord_ok, ok_bind]
    refine (mask_listed l small.le).bind fun mask _ => ⟨?_, ?_, Nat.and_le_right⟩ <;> omega
  · refine (readAt_ensures (by rw [sound.notGrCwLen_length]; exact small)).bind
      fun cwlen listed => ?_
    obtain ⟨lower, upper⟩ := sound.notGrCwLen_bounds cwlen listed
    refine (readAt_ensures (by rw [sound.nGrCodewords_length]; exact small)).bind
      fun codewords counted => ?_
    have few := sound.nGrCodewords_le codewords counted
    simp (disch := omega) only [subChecked_ok, shrWord_ok, ok_bind]
    refine (readAt_ensures (by rw [sound.notGrSuffixLen_length]; exact small)).bind
      fun suffixLen suffix => ?_
    refine (mask_listed suffixLen (sound.notGrSuffixLen_le suffixLen suffix)).bind
      fun mask low => ?_
    have masked : ∀ value, value &&& mask ≤ 255 := fun value => Nat.and_le_right.trans low
    rw [addChecked_ok (by have := masked (bits >>> (32 - cwlen)).toNat; omega)]
    exact ⟨lower, upper, Nat.and_le_right⟩

theorem golombCodeLen8bpc_ensures {n : Nat} (small : l < 8) :
    (golombCodeLen8bpc n l family).Ensures fun _ => True := by
  refine (readAt_ensures (by rw [sound.nGrCodewords_length]; exact small)).bind
    fun codewords counted => ?_
  have few := sound.nGrCodewords_le codewords counted
  split
  · have shifted : n >>> l ≤ n := Nat.shiftRight_le n l
    rw [addChecked_ok (by omega), ok_bind, addChecked_ok (by omega)]
    trivial
  · exact (readAt_ensures (by rw [sound.notGrCwLen_length]; exact small)).mono fun _ _ => trivial

/-! ## Buckets -/

/-- How well each code has done for the samples of one bucket. -/
structure QuicBucket where
  /-- Number of suffix bits of the best code. -/
  bestcode : Nat
  /-- Accumulated lengths under the eight codes. -/
  counters : List Nat

def QuicBucket.reset (bpp : Nat) : QuicBucket := ⟨bpp, List.replicate 8 0⟩

def chargeCode (curval l : Nat) (family : Family) (counters : List Nat) :
    Outcome Unit (List Nat × Nat) := do
  let count ← readAt counters l
  let codeLen ← golombCodeLen8bpc curval l family
  let count := min (count + codeLen) (2 ^ 32 - 1)
  let counters ← writeAt counters l count
  return (counters, count)

/-- Counters, the best code so far and its accumulated length. -/
structure CodeChoice where
  counters : List Nat
  bestcode : Nat
  bestcodelen : Nat

def CodeChoice.tryCode (curval : Nat) (family : Family) (i : Nat) (choice : CodeChoice) :
    Outcome Unit CodeChoice := do
  let (counters, count) ← chargeCode curval i family choice.counters
  if count < choice.bestcodelen then
    return ⟨counters, i, count⟩
  else
    return { choice with counters }

def halveCounter (i : Nat) (counters : List Nat) : Outcome Unit (List Nat) := do
  let count ← readAt counters i
  writeAt counters i (count >>> 1)

def QuicBucket.updateModel8bpc (bucket : QuicBucket) (wmTrigger curval bpp : Nat)
    (family : Family) : Outcome Unit QuicBucket := do
  let longest ← subChecked bpp 1
  let (counters, bestcodelen) ← chargeCode curval longest family bucket.counters
  let last ← subChecked bpp 2
  -- The other codes are tried from the longest suffix down.
  let choice ← forIndex (fun round => CodeChoice.tryCode curval family (last - round)) 0 (last + 1)
    ⟨counters, longest, bestcodelen⟩
  let counters ←
    if choice.bestcodelen > wmTrigger then forIndex halveCounter 0 bpp choice.counters
    else pure choice.counters
  return ⟨choice.bestcode, counters⟩

/-- A bucket has a code and eight counters. -/
def QuicBucket.Sound (bucket : QuicBucket) : Prop :=
  bucket.bestcode < 8 ∧ bucket.counters.length = 8

theorem chargeCode_ensures (small : l < 8) (length : counters.length = 8) :
    (chargeCode curval l family counters).Ensures fun charged => charged.1.length = 8 := by
  refine (readAt_ensures (by omega)).bind fun count _ => ?_
  refine (golombCodeLen8bpc_ensures sound small).bind fun codeLen _ => ?_
  dsimp only
  rw [writeAt_ok (by omega)]
  exact List.length_set.trans length

theorem updateModel8bpc_ensures {bucket : QuicBucket} {wmTrigger : Nat}
    (bucket_sound : bucket.Sound) :
    (bucket.updateModel8bpc wmTrigger curval 8 family).Ensures QuicBucket.Sound := by
  refine (chargeCode_ensures sound (by decide) bucket_sound.2).bind fun (counters, len) length => ?_
  refine (forIndex_ensures (fun _ (choice : CodeChoice) =>
    choice.bestcode < 8 ∧ choice.counters.length = 8) ?_ ⟨Nat.lt_succ_self 7, length⟩).bind ?_
  · rintro round choice - - ⟨best, kept⟩
    refine (chargeCode_ensures sound (by omega) kept).bind fun (counters, count) charged => ?_
    dsimp only
    split
    · exact ⟨by dsimp only; omega, charged⟩
    · exact ⟨best, charged⟩
  rintro choice ⟨best, kept⟩
  split
  · refine (forIndex_ensures (fun _ (counters : List Nat) => counters.length = 8) ?_ kept).bind ?_
    · rintro i counters - inside length
      refine (readAt_ensures (by omega)).bind fun count _ => ?_
      rw [writeAt_ok (by omega)]
      exact List.length_set.trans length
    · exact fun halved same => ⟨best, same⟩
  · exact ⟨best, kept⟩

end

/-! ## Bucket boundaries -/

/-- How the sample values are divided into buckets of growing size. -/
structure QuicModel where
  nBuckets : Nat
  repfirst : Nat
  firstsize : Nat
  repnext : Nat
  mulsize : Nat
  levels : Nat
  deriving DecidableEq

/-- The last bucket laid out, and the size of the next. -/
structure BucketWalk where
  bend : Nat
  number : Nat
  repcntr : Nat
  bsize : Nat

def BucketWalk.next (repnext mulsize levels : Nat) (walk : BucketWalk) :
    Outcome Unit (Nat × BucketWalk) := do
  let bstart ← if walk.number > 0 then addChecked 32 walk.bend 1 else pure 0
  let repcntr ← subChecked walk.repcntr 1
  let bsize ← if repcntr = 0 then mulChecked 32 walk.bsize mulsize else pure walk.bsize
  let repcntr := if repcntr = 0 then repnext else repcntr
  let stop ← addChecked 32 bstart bsize
  let bend ← subChecked stop 1
  let reach ← addChecked 32 bend bsize
  let bend ← if reach ≥ levels then subChecked levels 1 else pure bend
  return (bstart, ⟨bend, walk.number + 1, repcntr, bsize⟩)

def evolution : Nat × Nat × Nat × Nat :=
  match defevol with
  | 1 => (3, 1, 2, 2)
  | 3 => (1, 1, 1, 2)
  | 5 => (1, 1, 1, 4)
  | _ => (1, 1, 1, 2)

def QuicModel.new (bpc : Nat) : Outcome Unit QuicModel := do
  let levels ← shlChecked 32 1 bpc
  let (repfirst, firstsize, repnext, mulsize) := evolution
  let repcntr ← addChecked 32 repfirst 1
  let nBuckets ← loop (fun (walk : BucketWalk) => do
    let (_, walk) ← walk.next repnext mulsize levels
    let top ← subChecked levels 1
    return if walk.bend ≥ top then .leave walk.number else .next walk)
    (levels + 1) ⟨0, 0, repcntr, firstsize⟩
  return { nBuckets, repfirst, firstsize, repnext, mulsize, levels }

/-- The bucket of each sample value, and the number of buckets. -/
structure QuicFamilyStat where
  bucketsPtrs : List Nat
  nBuckets : Nat
  deriving DecidableEq

def fillBucket (model : QuicModel) (state : BucketWalk × List Nat) :
    Outcome Unit (Flow (BucketWalk × List Nat) QuicFamilyStat) := do
  let (walk, bucketsPtrs) := state
  let (bstart, walk') ← walk.next model.repnext model.mulsize model.levels
  let bucketsPtrs ← forIndex (fun i table => writeAt table i walk.number) bstart
    (walk'.bend + 1 - bstart) bucketsPtrs
  let top ← subChecked model.levels 1
  return if walk'.bend ≥ top then .leave ⟨bucketsPtrs, walk'.number⟩ else .next (walk', bucketsPtrs)

@[irreducible]
def fillModelStructures (model : QuicModel) : Outcome Unit QuicFamilyStat := do
  let repcntr ← addChecked 32 model.repfirst 1
  loop (fillBucket model) (model.levels + 1)
    (⟨0, 0, repcntr, model.firstsize⟩, List.replicate model.levels 0)

/-- The walk is at a bucket after which another follows, for the sizes of `evolution`. -/
def BucketWalk.Ready (levels : Nat) (walk : BucketWalk) : Prop :=
  (walk.number = 0 ∧ walk.repcntr = 2 ∧ walk.bsize = 1) ∨
    (0 < walk.number ∧ walk.repcntr = 1 ∧ 0 < walk.bsize ∧ walk.bsize ≤ walk.bend + 1 ∧
      walk.bend + walk.bsize < levels)

def BucketWalk.remaining (levels : Nat) (walk : BucketWalk) : Nat :=
  if walk.number = 0 then levels else levels - 1 - walk.bend

open BucketWalk

theorem next_ensures {levels : Nat} {walk : BucketWalk} (lower : 2 ≤ levels)
    (upper : levels ≤ 256) (ready : walk.Ready levels) :
    (walk.next 1 2 levels).Ensures fun (bstart, walk') =>
      walk'.number = walk.number + 1 ∧ bstart ≤ walk'.bend ∧ walk'.bend < levels ∧
        walk'.remaining levels < walk.remaining levels ∧
        (walk'.bend < levels - 1 → walk'.Ready levels) := by
  obtain ⟨bend, number, repcntr, bsize⟩ := walk
  rw [next]
  rcases ready with ⟨none, rep, size⟩ | ⟨some, rep, positive, small, room⟩
  · simp only at none rep size
    subst none rep size
    have more : ¬ 0 + 1 - 1 + 1 ≥ levels := by omega
    simp [subChecked, addChecked, remaining, Ready, more]
    omega
  · simp only at some rep positive small room
    subst rep
    simp (disch := omega) only [some, addChecked_ok, subChecked_ok, mulChecked_ok, if_true,
      ok_bind, Nat.sub_self, pure_eq]
    split
    · simp only [ensures_ok, remaining, Ready]
      refine ⟨trivial, by omega, by omega, ?_, by omega⟩
      rw [if_neg (by omega), if_neg (by omega)]
      omega
    · simp only [ensures_ok, remaining, Ready]
      refine ⟨trivial, by omega, by omega, ?_, ?_⟩
      · rw [if_neg (by omega), if_neg (by omega)]
        omega
      · exact fun _ => .inr ⟨by omega, trivial, by omega, by omega, by omega⟩

/-- Every sample value has a bucket, and every entry of the table is one. -/
def QuicFamilyStat.Sound (levels : Nat) (stat : QuicFamilyStat) : Prop :=
  stat.bucketsPtrs.length = levels ∧ ∀ bucket ∈ stat.bucketsPtrs, bucket < stat.nBuckets

theorem fillModelStructures_ensures {model : QuicModel} (lower : 2 ≤ model.levels)
    (upper : model.levels ≤ 256) (repfirst : model.repfirst = 1) (firstsize : model.firstsize = 1)
    (repnext : model.repnext = 1) (mulsize : model.mulsize = 2) :
    (fillModelStructures model).Ensures (QuicFamilyStat.Sound model.levels) := by
  rw [fillModelStructures, repfirst, firstsize, addChecked_ok (by decide), ok_bind]
  refine loop_ensures (fun state => state.1.Ready model.levels ∧ state.2.length = model.levels ∧
      ∀ bucket ∈ state.2, bucket ≤ state.1.number)
    (fun state => state.1.remaining model.levels) ?_ ⟨.inl ⟨rfl, rfl, rfl⟩, by simp, by simp⟩ ?_
  · rintro ⟨walk, table⟩ ⟨ready, length, entries⟩
    simp only at ready length entries
    rw [fillBucket, repnext, mulsize]
    refine (next_ensures lower upper ready).bind ?_
    rintro ⟨bstart, walk'⟩ ⟨number, ordered, inside, progress, further⟩
    refine (forIndex_ensures (fun _ (table : List Nat) => table.length = model.levels ∧
      ∀ bucket ∈ table, bucket ≤ walk.number) ?_ ⟨length, entries⟩).bind ?_
    · rintro i table - below ⟨length, entries⟩
      refine (writeAt_ensures (by omega) entries le_rfl).mono ?_
      exact fun _ ⟨same, kept⟩ => ⟨same.trans length, kept⟩
    rintro table' ⟨length', entries'⟩
    rw [subChecked_ok (by omega), ok_bind]
    by_cases last : walk'.bend ≥ model.levels - 1
    · rw [if_pos last]
      refine ⟨length', fun bucket listed => ?_⟩
      have := entries' bucket listed
      simp only
      omega
    · rw [if_neg last]
      refine ⟨⟨further (by omega), length', fun bucket listed => ?_⟩, progress⟩
      have := entries' bucket listed
      simp only
      omega
  · simp [remaining]

/-! ## The table of leading ones -/

/-- Filling position of `zeroLut`: the next value and how long it lasts. -/
structure LutWalk where
  table : List Nat
  j : Nat
  k : Nat
  l : Nat

def LutWalk.next (slot : Nat) (walk : LutWalk) : Outcome Unit LutWalk := do
  let table ← writeAt walk.table slot walk.l
  let k ← subChecked walk.k 1
  if k = 0 then
    let j ← mulUsize walk.j 2
    return ⟨table, j, walk.j, walk.l - 1⟩
  else
    return ⟨table, walk.j, k, walk.l⟩

@[irreducible]
def zeroLut (size : Nat) : Outcome Unit (List Nat) := do
  let walk ← forIndex LutWalk.next 0 size ⟨List.replicate size 0, 1, 1, 8⟩
  return walk.table

theorem zeroLut_ensures {size : Nat} (small : size ≤ 256) :
    (zeroLut size).Ensures fun table => table.length = size ∧ ∀ zeroes ∈ table, zeroes ≤ 8 := by
  rw [zeroLut]
  refine (forIndex_ensures (fun slot (walk : LutWalk) => (walk.table.length = size ∧
    ∀ zeroes ∈ walk.table, zeroes ≤ 8) ∧ walk.l ≤ 8 ∧ 0 < walk.k ∧ slot + walk.k = walk.j)
    ?_ ⟨by simp, by simp⟩).bind fun walk kept => kept.1
  rintro slot ⟨table, j, k, l⟩ - inside ⟨⟨length, entries⟩, low, positive, position⟩
  simp only at length entries low positive position
  refine (writeAt_ensures (by omega) entries low).bind ?_
  rintro table' ⟨length', entries'⟩
  rw [subChecked_ok positive, ok_bind]
  split
  · rw [mulUsize_ok (by simp only; omega), ok_bind]
    exact ⟨⟨length'.trans length, entries'⟩, by simp only; omega, by simp only; omega, by
      simp only; omega⟩
  · exact ⟨⟨length'.trans length, entries'⟩, low, by simp only; omega, by simp only; omega⟩

end Quic

end Ryll
