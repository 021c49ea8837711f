import TeeOs.Arith.Number

/-!
# Conversions from and to 32 bits

The least number has no negation in 32 bits: as a word of 64 bits it becomes one of eight
bytes. Its magnitude is also refused on the way back, and the comparison goes on with zero.
Numbers in two words cannot be written, and compare as smaller than any other.
-/

namespace TeeOs.Arith

open SoftRsa List

/-- `BN_set_word`, with the conversion of its argument to 64 bits without a sign. -/
def bnSetWord (x : Int32) : Int := x.toInt % 2^64

def bigIntNeg (dest src : BigInt) : BigInt := store dest (some (-(bigIntToBn src.toWords).getD 0))

def bigIntConvertFromS32 (dest : BigInt) (shortVal : Int32) : BigInt :=
  if shortVal.toInt < 0 then
    match bnToBigInt dest (bnSetWord (-shortVal)) with
    | none => dest
    | some dest => bigIntNeg dest dest
  else store dest (some (bnSetWord shortVal))

/-- The bytes from the last one on, each shifted to its place. -/
def sumBytes : List UInt8 → Nat → Nat
  | [], _ => 0
  | b :: l, i => b.toNat <<< (8*i) + sumBytes l (i+1)

/-- `none` is the overflow. -/
def bigIntConvertToS32 (src : Words) : Option Int :=
  let blen := bnLen src
  if blen > 4 ∨ blen = 4 ∧ src.digits.headD 0 >>> 7 ≠ 0 then none
  else
    let tmp2 : Int := sumBytes (src.digits.take blen).reverse 0
    some (if bnSign src ≠ 0 then -tmp2 else tmp2)

def bigIntCmp (op1 op2 : BigInt) : Int :=
  match bigIntToBn op1.toWords, bigIntToBn op2.toWords with
  | some a, some b => (a-b).sign
  | _, _ => -1

/-- The three words of the second operand. -/
def shortWords : BigInt := ⟨⟨3, 0, [0, 0, 0, 0]⟩, rfl, rfl, by simp⟩

def bigIntCmpS32 (op : BigInt) (shortVal : Int32) : Int :=
  bigIntCmp op (bigIntConvertFromS32 shortWords shortVal)

theorem sumBytes_eq (l : List UInt8) (i : Nat) :
    sumBytes l i = 256^i * Nat.ofDigits 256 (l.map UInt8.toNat) := by
  induction l generalizing i with
  | nil => rfl
  | cons b l ih =>
    rw [sumBytes, ih, map_cons, Nat.ofDigits_cons, Nat.shiftLeft_eq, Nat.pow_mul, Nat.pow_succ]
    push_cast
    ring

variable {d src : BigInt} {v : Int}

/-- Of four bytes, the highest bit says whether the number is below `2^31`. -/
theorem highBit_iff {l : List UInt8} (hl : 4 ≤ l.length) :
    l.headD 0 >>> 7 ≠ 0 ↔ 2^31 ≤ bnBin2bn (l.take 4) := by
  match l, hl with
  | b₀ :: b₁ :: b₂ :: b₃ :: l, _ =>
    have h₁ := b₁.toNat_lt
    have h₂ := b₂.toNat_lt
    have h₃ := b₃.toNat_lt
    rw [ne_eq, ← UInt8.toNat_inj, headD_cons, UInt8.toNat_shiftRight]
    simp [bnBin2bn, Nat.shiftRight_eq_div_pow]
    omega

/-- What is not refused is right. -/
theorem convertToS32_eq (src : BigInt) : bigIntConvertToS32 src.toWords =
    if bnLen src.toWords ≤ 4 ∧ src.value.natAbs < 2^31 then some src.value else none := by
  have hin : bnLen src.toWords ≤ src.digits.length := src.inside
  have hiff : (bnLen src.toWords > 4 ∨ bnLen src.toWords = 4 ∧ src.digits.headD 0 >>> 7 ≠ 0) ↔
      ¬ (bnLen src.toWords ≤ 4 ∧ src.value.natAbs < 2^31) := by
    rw [natAbs_value]
    by_cases h4 : bnLen src.toWords = 4
    · rw [h4, highBit_iff (h4 ▸ hin)]
      omega
    · have hlt := bnBin2bn_lt (src.digits.take (bnLen src.toWords))
      rw [length_take_of_le hin] at hlt
      have hle : bnLen src.toWords ≤ 3 → 256^bnLen src.toWords ≤ 256^3 :=
        Nat.pow_le_pow_right (by decide)
      omega
  have hval : (if bnSign src.toWords ≠ 0
      then -(sumBytes (src.digits.take (bnLen src.toWords)).reverse 0 : Int)
      else sumBytes (src.digits.take (bnLen src.toWords)).reverse 0) = src.value := by
    rw [sumBytes_eq, Nat.pow_zero, Nat.one_mul, ← bnBin2bn_eq, ite_not]
    rfl
  unfold bigIntConvertToS32
  dsimp only
  simp only [hiff, hval, ite_not]

/-- What is stored where there is room. -/
structure Stored (d d' : BigInt) (v : Int) : Prop where
  value : d'.value = v
  alloc : d'.alloc = d.alloc
  short : bnLen d'.toWords ≤ 4

theorem bnToBigInt_short (h : 2 < d.alloc) (hv : v.natAbs < 2^31) :
    ∃ d', bnToBigInt d v = some d' ∧ Stored d d' v := by
  have hbytes : bnNumBytes v ≤ 4 := bnNumBytes_le_iff.mpr (hv.trans (by decide))
  have hfits : Fits d v := hbytes.trans (by omega)
  exact ⟨_, dif_pos ⟨h, hfits⟩, value_put _ (by omega), rfl,
    (bnLen_put d.toWords (by omega)).trans_le hbytes⟩

theorem convertFromS32_stored {x : Int32} (h : 2 < d.alloc) (hx : x ≠ Int32.minValue) :
    Stored d (bigIntConvertFromS32 d x) x.toInt := by
  have hlt := x.toInt_lt
  have hle := x.le_toInt
  have hmin : x.toInt ≠ -2^31 := fun h => hx (Int32.toInt_inj.mp h)
  unfold bigIntConvertFromS32
  split
  · next hneg =>
    have hword : bnSetWord (-x) = -x.toInt := by
      rw [bnSetWord, Int32.toInt_neg, Int.bmod_eq_of_le (by omega) (by omega)]
      exact Int.emod_eq_of_lt (by omega) (by omega)
    obtain ⟨d₁, hd₁, hs₁⟩ := bnToBigInt_short h (v := -x.toInt) (by omega)
    obtain ⟨d₂, hd₂, hs₂⟩ := bnToBigInt_short (d := d₁) (v := x.toInt) (by rw [hs₁.alloc]; exact h) (by omega)
    rw [hword, hd₁]
    dsimp only
    rw [bigIntNeg, bigIntToBn, if_neg (by rw [hs₁.alloc]; omega), Option.getD_some, hs₁.value,
      Int.neg_neg, store, Option.bind_some, hd₂]
    exact { hs₂ with alloc := hs₂.alloc.trans hs₁.alloc }
  · next hpos =>
    have hword : bnSetWord x = x.toInt := Int.emod_eq_of_lt (by omega) (by omega)
    obtain ⟨d', hd', hs⟩ := bnToBigInt_short h (v := x.toInt) (by omega)
    rw [hword, store, Option.bind_some, hd']
    exact hs

/-- Where the word cannot be written the number stays. -/
theorem convertFromS32_none {x : Int32} (h : ∀ y ∈ [x, -x], bnToBigInt d (bnSetWord y) = none) :
    bigIntConvertFromS32 d x = d := by
  unfold bigIntConvertFromS32
  rw [h (-x) (by simp), store, Option.bind_some, h x (by simp)]
  exact ite_self _

theorem convertFromS32_minValue : bigIntConvertFromS32 shortWords .minValue = shortWords :=
  convertFromS32_none fun y hy => dif_neg fun h => by
    have hword : bnSetWord y = 2^64 - 2^31 := by rcases mem_pair.mp hy with rfl | rfl <;> decide
    exact absurd (bnNumBytes_le_iff.mp h.2) (by rw [hword]; decide)

theorem convertToS32_convertFromS32_iff (d : BigInt) (x : Int32) :
    bigIntConvertToS32 (bigIntConvertFromS32 d x).toWords = some x.toInt ↔
      x ≠ Int32.minValue ∧ (2 < d.alloc ∨ x = 0) := by
  have hlt := x.toInt_lt
  rw [convertToS32_eq]
  by_cases hmin : x = Int32.minValue
  · have hx : x.toInt = -2^31 := by rw [hmin]; rfl
    refine iff_of_false (fun h => ?_) fun h => h.1 hmin
    split at h
    · rw [Option.some.injEq] at h
      omega
    · cases h
  by_cases h2 : 2 < d.alloc
  · have hs := convertFromS32_stored h2 hmin
    have hne : x.toInt ≠ -2^31 := fun h => hmin (Int32.toInt_inj.mp h)
    have hle := x.le_toInt
    rw [hs.value, if_pos ⟨hs.short, by omega⟩]
    exact iff_of_true rfl ⟨hmin, .inl h2⟩
  · have hval := value_of_alloc_two (d := d) (by omega)
    have hlen : bnLen d.toWords ≤ 4 := d.inside.trans (by rw [d.size]; omega)
    rw [convertFromS32_none fun y _ => dif_neg fun h => h2 h.1, hval, if_pos ⟨hlen, by decide⟩,
      Option.some.injEq, and_iff_right hmin, or_iff_right h2, eq_comm]
    exact Int32.toInt_inj (y := 0)

theorem convertToS32_iff (src : BigInt) : (∀ v, bigIntConvertToS32 src.toWords = some v ↔
      src.value = v ∧ -2^31 ≤ v ∧ v < 2^31) ↔
    (-2^31 ≤ src.value ∧ src.value < 2^31 → bnLen src.toWords ≤ 4 ∧ src.value ≠ -2^31) := by
  rw [convertToS32_eq]
  constructor
  · intro h hrange
    have hv := (h src.value).mpr ⟨rfl, hrange⟩
    split at hv
    · omega
    · cases hv
  · intro h v
    split
    · rw [Option.some.injEq]
      constructor
      · rintro rfl
        omega
      · exact And.left
    · next hno =>
      refine ⟨nofun, ?_⟩
      rintro ⟨rfl, hrange⟩
      have := h hrange
      omega

theorem cmpS32_iff (op : BigInt) (x : Int32) :
    (bigIntCmpS32 op x).sign = (op.value-x.toInt).sign ↔
      if op.alloc ≤ 2 then 0 < x.toInt
      else x = Int32.minValue → 0 < op.value ∨ op.value < -2^31 := by
  unfold bigIntCmpS32 bigIntCmp
  by_cases h2 : op.alloc ≤ 2
  · rw [if_pos h2, bigIntToBn, if_pos h2, value_of_alloc_two h2, Int.zero_sub]
    dsimp only
    have hone : (-1 : Int).sign = -1 := rfl
    have hpos := Int.sign_eq_one_iff_pos (a := x.toInt)
    rw [hone, Int.sign_neg]
    omega
  rw [if_neg h2, bigIntToBn, if_neg h2]
  by_cases hmin : x = Int32.minValue
  · rw [hmin, convertFromS32_minValue]
    have hzero : bigIntToBn shortWords.toWords = some 0 := rfl
    have hx : Int32.minValue.toInt = -2^31 := rfl
    rw [hzero, hx]
    dsimp only
    have hpos := Int.sign_eq_one_iff_pos (a := op.value)
    have hneg := Int.sign_eq_neg_one_iff_neg (a := op.value)
    have hnull := Int.sign_eq_zero_iff_zero (a := op.value)
    have hpos' := Int.sign_eq_one_iff_pos (a := op.value - -2^31)
    have hneg' := Int.sign_eq_neg_one_iff_neg (a := op.value - -2^31)
    rw [Int.sign_sign, Int.sub_zero, forall_prop_of_true rfl]
    omega
  · have hs := convertFromS32_stored (d := shortWords) (by decide) hmin
    rw [bigIntToBn, if_neg (by rw [hs.alloc]; decide), hs.value]
    exact iff_of_true Int.sign_sign fun h => absurd h hmin

/-- Numbers of 32 bits go through a `BigInt` and back and compare as they should, but for the
least one, for numbers in two words, and for zeros in front of a number. -/
theorem s32_iff (d src op : BigInt) (x : Int32) :
    (bigIntConvertToS32 (bigIntConvertFromS32 d x).toWords = some x.toInt ↔
      x ≠ Int32.minValue ∧ (2 < d.alloc ∨ x = 0)) ∧
    ((∀ v, bigIntConvertToS32 src.toWords = some v ↔
        src.value = v ∧ -2^31 ≤ v ∧ v < 2^31) ↔
      (-2^31 ≤ src.value ∧ src.value < 2^31 → bnLen src.toWords ≤ 4 ∧ src.value ≠ -2^31)) ∧
    ((bigIntCmpS32 op x).sign = (op.value-x.toInt).sign ↔
      if op.alloc ≤ 2 then 0 < x.toInt
      else x = Int32.minValue → 0 < op.value ∨ op.value < -2^31) :=
  ⟨convertToS32_convertFromS32_iff d x, convertToS32_iff src, cmpS32_iff op x⟩

/-- The least number is not written: what is read back, and what zero is compared with, is
the zero that was there. -/
theorem s32_least :
    bigIntConvertToS32 (bigIntConvertFromS32 shortWords .minValue).toWords = some 0 ∧
      bigIntCmpS32 shortWords .minValue = 0 := by
  rw [bigIntCmpS32, convertFromS32_minValue]
  exact ⟨rfl, rfl⟩

end TeeOs.Arith
