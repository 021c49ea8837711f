import TeeOs.SoftRsa.CrtKey

/-!
# The packed words of a big integer

A word for the allocated length, a word with the number of bytes and the sign, and
the magnitude with the highest byte first. Two words hold no byte, and are refused
by both conversions; the number of bytes has 16 bits of its word, and a longer
number spills into the sign.
-/

namespace TeeOs.Arith

open SoftRsa List

structure Words where
  alloc : Nat
  head : Nat
  digits : List UInt8

open Words

variable (v : Int) (w : Words)

def bnLen : Nat := w.head % 2^16

def bnSign : Nat := w.head / 2^16

def invalidBigIntLen (len : Nat) : Bool := len < 2 || len-2 > (2^32-1)/4

/-- What `TEE_BigIntInit` accepts, with a number that is inside. -/
structure BigInt extends Words where
  valid : invalidBigIntLen alloc = false
  size : digits.length = 4*(alloc-2)
  inside : head % 2^16 ≤ digits.length

def Words.value (w : Words) : Int :=
  let v : Int := bnBin2bn (w.digits.take (bnLen w))
  if bnSign w = 0 then v else -v

def bigIntToBn : Option Int := if w.alloc ≤ 2 then none else some w.value

def bnNumBytes : Nat := (Nat.digits 256 v.natAbs).length

def bnBn2bin : List UInt8 := (Nat.digits 256 v.natAbs).reverse.map .ofNat

def Fits (d : BigInt) (v : Int) : Prop := bnNumBytes v ≤ 4*(d.alloc-2)

instance (d : BigInt) (v : Int) : Decidable (Fits d v) := inferInstanceAs (Decidable (_ ≤ _))

theorem length_bnBn2bin : (bnBn2bin v).length = bnNumBytes v := by
  rw [bnBn2bin, length_map, length_reverse, bnNumBytes]

theorem or_sign_mod (n : Nat) (neg : Bool) : (n ||| neg.toNat <<< 16) % 2^16 = n % 2^16 := by
  rw [Nat.or_mod_two_pow]
  cases neg <;> simp

/-- The number over the digits that are there. -/
def Words.put (w : Words) (v : Int) : Words where
  alloc := w.alloc
  head := bnNumBytes v ||| (decide (v < 0)).toNat <<< 16
  digits := bnBn2bin v ++ w.digits.drop (bnNumBytes v)

def bnToBigInt (d : BigInt) (v : Int) : Option BigInt :=
  if h : 2 < d.alloc ∧ Fits d v then
    some
      { toWords := d.put v
        valid := d.valid
        size := by
          have hfits : bnNumBytes v ≤ d.digits.length := d.size ▸ h.2
          simp only [put, length_append, length_bnBn2bin, length_drop, ← d.size]
          omega
        inside := by
          rw [put, or_sign_mod, length_append, length_bnBn2bin]
          exact (Nat.mod_le ..).trans (Nat.le_add_right ..) }
  else none

/-- The destination, written if there is a number and it can be. -/
def store (d : BigInt) (v : Option Int) : BigInt := (v.bind (bnToBigInt d)).getD d

theorem bnBin2bn_eq (b : List UInt8) :
    bnBin2bn b = Nat.ofDigits 256 (b.reverse.map UInt8.toNat) := by
  rw [bnBin2bn, foldl_eq_foldr_reverse, Nat.ofDigits_eq_foldr, foldr_map]
  simp [Nat.add_comm]

theorem bnBin2bn_lt (b : List UInt8) : bnBin2bn b < 256^b.length := by
  rw [bnBin2bn_eq]
  have h := Nat.ofDigits_lt_base_pow_length (b := 256) (l := b.reverse.map UInt8.toNat)
    (by decide) fun x hx => ?_
  · simpa using h
  · obtain ⟨y, -, rfl⟩ := mem_map.mp hx
    exact y.toNat_lt

theorem bnBin2bn_bnBn2bin : bnBin2bn (bnBn2bin v) = v.natAbs := by
  rw [bnBin2bn_eq, bnBn2bin, ← map_reverse, reverse_reverse, map_map]
  have hmap : (Nat.digits 256 v.natAbs).map (UInt8.toNat ∘ UInt8.ofNat) = Nat.digits 256 v.natAbs := by
    refine (map_congr_left fun x hx => ?_).trans (map_id _)
    exact Nat.mod_eq_of_lt (Nat.digits_lt_base (by decide) hx)
  rw [hmap, Nat.ofDigits_digits]

theorem bnNumBytes_le_iff {v : Int} {k : Nat} : bnNumBytes v ≤ k ↔ v.natAbs < 256^k :=
  Nat.digits_length_le_iff (by decide) _

theorem natAbs_value : w.value.natAbs = bnBin2bn (w.digits.take (bnLen w)) := by
  unfold value
  dsimp only
  split
  · rfl
  · exact Int.natAbs_neg _

theorem bnNumBytes_value : bnNumBytes w.value < 2^16 := by
  have hlen : bnLen w < 2^16 := Nat.mod_lt _ (by decide)
  have hlt := bnBin2bn_lt (w.digits.take (bnLen w))
  have hle : bnNumBytes w.value ≤ bnLen w := by
    rw [bnNumBytes_le_iff, natAbs_value]
    exact hlt.trans_le (Nat.pow_le_pow_right (by decide) (length_take_le ..))
  omega

section Store

variable {d d' : BigInt} {v : Int}

theorem value_of_alloc_two (h : d.alloc ≤ 2) : d.value = 0 := by
  have hnil : d.digits = [] := by
    rw [← length_eq_zero_iff, d.size]
    omega
  unfold value
  rw [hnil]
  simp [bnBin2bn]

theorem bnLen_put (w : Words) (h : bnNumBytes v < 2^16) : bnLen (w.put v) = bnNumBytes v :=
  (or_sign_mod ..).trans (Nat.mod_eq_of_lt h)

theorem value_put (w : Words) (h : bnNumBytes v < 2^16) : (w.put v).value = v := by
  have hsign : bnSign (w.put v) = (decide (v < 0)).toNat := by
    rw [bnSign, put, ← Nat.shiftRight_eq_div_pow, Nat.shiftRight_or_distrib,
      Nat.shiftRight_eq_div_pow, Nat.div_eq_of_lt h, Nat.zero_or, Nat.shiftLeft_shiftRight]
  unfold value
  rw [bnLen_put w h, hsign, put, ← length_bnBn2bin, take_left, bnBin2bn_bnBn2bin]
  by_cases hv : v < 0
  · simp [hv, abs_of_neg hv]
  · simp [hv]
    omega

theorem bnNumBytes_mono {x : Int} (h : x.natAbs ≤ v.natAbs) : bnNumBytes x ≤ bnNumBytes v :=
  bnNumBytes_le_iff.mpr (h.trans_lt (bnNumBytes_le_iff.mp le_rfl))

theorem bnToBigInt_some (h : 2 < d.alloc) (hf : Fits d v) (hv : bnNumBytes v < 2^16) :
    ∃ d', bnToBigInt d v = some d' ∧ d'.value = v :=
  ⟨_, dif_pos ⟨h, hf⟩, value_put d.toWords hv⟩

/-- A destination for `k` bytes, with 0 or 1 in it. -/
def blank (k : Nat) (h : k < 2^20) (one : Bool) : BigInt where
  alloc := k+3
  head := one.toNat
  digits := replicate (4*(k+1)) 1
  valid := by simp [invalidBigIntLen]; omega
  size := length_replicate
  inside := by cases one <;> simp; omega

theorem value_blank {k : Nat} (h : k < 2^20) (one : Bool) : (blank k h one).value = one.toNat := by
  cases one with
  | false => simp [blank, value, bnLen, bnSign, bnBin2bn]
  | true => simp [blank, value, bnLen, bnSign, bnBin2bn, replicate_succ, Nat.mul_add]

end Store

/-- One byte in three words. -/
def byte (n : UInt8) : BigInt := ⟨⟨3, 1, [n, 0, 0, 0]⟩, rfl, rfl, by simp⟩

/-- Both operands are decoded, and the result is stored if it can be. -/
def bigIntOp (f : Int → Int → Int) (dest op1 op2 : BigInt) : BigInt :=
  store dest ((bigIntToBn op1.toWords).bind fun a => (bigIntToBn op2.toWords).map (f a))

def bigIntAdd : BigInt → BigInt → BigInt → BigInt := bigIntOp (· + ·)

def bigIntSub : BigInt → BigInt → BigInt → BigInt := bigIntOp (· - ·)

def bigIntMul : BigInt → BigInt → BigInt → BigInt := bigIntOp (· * ·)

theorem value_bigIntOp (f : Int → Int → Int) {dest op1 op2 : BigInt} (hd : dest.alloc ≤ 2^14)
    (h : 2 < min dest.alloc (min op1.alloc op2.alloc)) : (bigIntOp f dest op1 op2).value =
      if Fits dest (f op1.value op2.value) then f op1.value op2.value else dest.value := by
  rw [bigIntOp, bigIntToBn, if_neg (by omega), bigIntToBn, if_neg (by omega)]
  change ((bnToBigInt dest (f op1.value op2.value)).getD dest).value = _
  unfold bnToBigInt
  split_ifs with hf hfits hfits
  · exact value_put dest.toWords (by unfold Fits at hfits; omega)
  · exact absurd hf.2 hfits
  · exact absurd ⟨by omega, hfits⟩ hf
  · rfl

/-- The destination, also one of the operands, holds a result that fits, or keeps its number. -/
theorem ring_operations_exact (dest op1 op2 : BigInt) (hd : dest.alloc ≤ 2^14)
    (h : 2 < min dest.alloc (min op1.alloc op2.alloc)) :
    let holds (r : BigInt) (v : Int) := r.value = if Fits dest v then v else dest.value
    holds (bigIntAdd dest op1 op2) (op1.value+op2.value) ∧
      holds (bigIntSub dest op1 op2) (op1.value-op2.value) ∧
      holds (bigIntMul dest op1 op2) (op1.value*op2.value) :=
  ⟨value_bigIntOp _ hd h, value_bigIntOp _ hd h, value_bigIntOp _ hd h⟩

theorem ring_operations_exact_byte : (bigIntAdd (byte 0) (byte 200) (byte 100)).value = 300 :=
  (ring_operations_exact (byte 0) (byte 200) (byte 100) (by decide) (by decide)).1

end TeeOs.Arith
