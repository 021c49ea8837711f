import TeeOs.Arith.Number

/-!
# Fast modular multiplication

The context is a copy of the modulus, but the word that holds the allocated length is
made two words too small. A context of three or four words is then refused where it is
decoded, and the product is not computed.
-/

namespace TeeOs.Arith

open SoftRsa List Option

def bigIntInitFmmContext1 (context : Words) (len : Nat) (modulus : BigInt) : Option Words :=
  let modlen := bnLen modulus.toWords
  if invalidBigIntLen len || 4*(len-2) < modlen then none
  else some ⟨len-2, modulus.head, modulus.digits.take modlen ++ context.digits.drop modlen⟩

/-- The radix of a modulus, a power of the words that it takes. -/
def radix (n : Int) : Int := 2^(64*((n.natAbs.size+63)/64))

def bnMontCtxSet (n : Int) : Option Int := if 0 < n ∧ n % 2 = 1 then some n else none

def bnToMontgomery (a n : Int) : Int := a*radix n % n

def bnFromMontgomery (a n : Int) : Int := a*Int.gcdA (radix n) n % n

def bnModMulMontgomery (a b n : Int) : Int := bnFromMontgomery (a*b) n

def bigIntConvertToFmm (dest src n : BigInt) : BigInt :=
  store dest do
    let a ← bigIntToBn src.toWords
    let c ← bigIntToBn n.toWords
    return bnToMontgomery a (← bnMontCtxSet c)

def bigIntConvertFromFmm (dest src n : BigInt) : BigInt :=
  store dest do
    let a ← bigIntToBn src.toWords
    let c ← bigIntToBn n.toWords
    return bnFromMontgomery a (← bnMontCtxSet c)

def bigIntComputeFmm (dest op1 op2 : BigInt) (context : Words) : BigInt :=
  store dest do
    let a ← bigIntToBn op1.toWords
    let b ← bigIntToBn op2.toWords
    let d ← bigIntToBn context
    return bnModMulMontgomery a b (← bnMontCtxSet d)

/-- The four calls by which two numbers are multiplied. -/
def fmmProduct (dest fa fb fc a b n : BigInt) (context : Words) : BigInt :=
  let fa := bigIntConvertToFmm fa a n
  let fb := bigIntConvertToFmm fb b n
  bigIntConvertFromFmm dest (bigIntComputeFmm fc fa fb context) n

variable {n a b : Int}

theorem radix_inverse (hodd : n % 2 = 1) : radix n*Int.gcdA (radix n) n ≡ 1 [ZMOD n] := by
  have htwo : IsCoprime 2 n := ⟨-(n/2), 1, by omega⟩
  have hco : Int.gcd (radix n) n = 1 := Int.isCoprime_iff_gcd_eq_one.mp htwo.pow_left
  have hbezout := Int.gcd_eq_gcd_ab (radix n) n
  rw [hco] at hbezout
  exact (Int.modEq_iff_dvd.mpr ⟨-Int.gcdB (radix n) n, by linear_combination -hbezout⟩).symm

theorem montgomery_mul (hodd : n % 2 = 1) :
    bnFromMontgomery (bnModMulMontgomery (bnToMontgomery a n) (bnToMontgomery b n) n) n = a*b % n := by
  have hr := radix_inverse hodd
  unfold bnModMulMontgomery bnFromMontgomery bnToMontgomery
  generalize Int.gcdA (radix n) n = s at hr ⊢
  have ha := Int.mod_modEq (a*radix n) n
  have hb := Int.mod_modEq (b*radix n) n
  have hab := (Int.mod_modEq _ n).trans ((ha.mul hb).mul_right s)
  have hone : a*b*((radix n*s)*(radix n*s)) ≡ a*b*(1*1) [ZMOD n] := (hr.mul hr).mul_left _
  calc _ ≡ a*radix n*(b*radix n)*s*s [ZMOD n] := hab.mul_right s
    _ = a*b*((radix n*s)*(radix n*s)) := by ring
    _ ≡ a*b [ZMOD n] := by simpa using hone

/-- A destination that was initialized, with room for the modulus. -/
structure Fresh (n d : BigInt) : Prop where
  alloc : 2 < d.alloc
  room : Fits d n.value
  zero : d.value = 0

section

variable {d m x y : BigInt}

theorem alloc_store (v : Option Int) : (store d v).alloc = d.alloc := by
  cases v with
  | none => rfl
  | some v =>
    unfold store bnToBigInt
    rw [bind_some]
    split <;> rfl

theorem store_mod (hm : 0 < m.value) (hd : 2 < d.alloc) (hf : Fits d m.value) (v : Int) :
    (store d (some (v % m.value))).value = v % m.value := by
  have hlt := Int.emod_lt_of_pos v hm
  have hge := Int.emod_nonneg v hm.ne'
  have hle := bnNumBytes_mono (x := v % m.value) (v := m.value) (by omega)
  obtain ⟨d', hs, hv⟩ := bnToBigInt_some hd (hle.trans hf) (hle.trans_lt (bnNumBytes_value _))
  rw [store, bind_some, hs]
  exact hv

variable {context ctx : Words} {len : Nat}

theorem bigIntInitFmmContext1_some (h : bigIntInitFmmContext1 context len m = some ctx) :
    ctx.alloc = len-2 ∧ ctx.value = m.value := by
  unfold bigIntInitFmmContext1 at h
  dsimp only at h
  split at h
  · cases h
  obtain rfl := some.inj h
  refine ⟨rfl, ?_⟩
  have hlen := length_take_of_le m.inside
  have htake : (m.digits.take (bnLen m.toWords) ++ context.digits.drop (bnLen m.toWords)).take
      (bnLen m.toWords) = m.digits.take (bnLen m.toWords) := take_left' hlen
  exact congrArg (fun b => if m.head/2^16 = 0 then (bnBin2bn b : Int) else -bnBin2bn b) htake

variable (hm : 0 < m.value) (hodd : m.value % 2 = 1)
include hm

theorem bigIntToBn_some : bigIntToBn m.toWords = some m.value :=
  if_neg fun h => hm.ne' (value_of_alloc_two h)

include hodd

theorem bnMontCtxSet_some : bnMontCtxSet m.value = some m.value := if_pos ⟨hm, hodd⟩

theorem value_convertToFmm (hd : Fresh m d) :
    (bigIntConvertToFmm d x m).value = bnToMontgomery x.value m.value := by
  unfold bigIntConvertToFmm
  by_cases hx : x.alloc ≤ 2
  · rw [bigIntToBn, if_pos hx, value_of_alloc_two hx, bnToMontgomery, Int.zero_mul, Int.zero_emod]
    exact hd.zero
  · rw [bigIntToBn, if_neg hx, bigIntToBn_some hm]
    simp only [bind_eq_bind, bind_some, bnMontCtxSet_some hm hodd]
    exact store_mod hm hd.alloc hd.room _

theorem value_computeFmm (hx : 2 < x.alloc) (hy : 2 < y.alloc) (hd : Fresh m d)
    (hctx : ctx.value = m.value) : (bigIntComputeFmm d x y ctx).value =
      if 2 < ctx.alloc then bnModMulMontgomery x.value y.value m.value else 0 := by
  unfold bigIntComputeFmm
  rw [bigIntToBn, if_neg hx.not_ge, bigIntToBn, if_neg hy.not_ge, bigIntToBn]
  split
  · next h =>
    rw [if_neg h.not_gt]
    exact hd.zero
  · next h =>
    rw [if_pos (by omega), hctx]
    simp only [bind_eq_bind, bind_some, bnMontCtxSet_some hm hodd]
    exact store_mod hm hd.alloc hd.room _

theorem value_convertFromFmm (hx : 2 < x.alloc) (hd : 2 < d.alloc) (hf : Fits d m.value) :
    (bigIntConvertFromFmm d x m).value = bnFromMontgomery x.value m.value := by
  unfold bigIntConvertFromFmm
  rw [bigIntToBn, if_neg hx.not_ge, bigIntToBn_some hm]
  simp only [bind_eq_bind, bind_some, bnMontCtxSet_some hm hodd]
  exact store_mod hm hd hf _

end

/-- The product comes back exactly with a context of more than four words, or where it is 0. -/
theorem fmm_product_iff (n a b fa fb fc dest : BigInt) (context ctx : Words) (len : Nat)
    (hn : 1 < n.value) (hodd : n.value % 2 = 1)
    (hctx : bigIntInitFmmContext1 context len n = some ctx) (hfa : Fresh n fa) (hfb : Fresh n fb)
    (hfc : Fresh n fc) (hdest : 2 < dest.alloc) (hroom : Fits dest n.value) :
    (fmmProduct dest fa fb fc a b n ctx).value = a.value*b.value % n.value ↔
      4 < len ∨ a.value*b.value % n.value = 0 := by
  have hm : 0 < n.value := by omega
  obtain ⟨halloc, hvalue⟩ := bigIntInitFmmContext1_some hctx
  have hx : 2 < (bigIntConvertToFmm fa a n).alloc := (alloc_store _).symm ▸ hfa.alloc
  have hy : 2 < (bigIntConvertToFmm fb b n).alloc := (alloc_store _).symm ▸ hfb.alloc
  rw [fmmProduct, value_convertFromFmm hm hodd ((alloc_store _).symm ▸ hfc.alloc) hdest hroom,
    value_computeFmm hm hodd hx hy hfc hvalue, value_convertToFmm hm hodd hfa,
    value_convertToFmm hm hodd hfb, halloc]
  split
  · next h => exact iff_of_true (montgomery_mul hodd) (.inl (by omega))
  · next h =>
    rw [bnFromMontgomery, Int.zero_mul, Int.zero_emod, eq_comm, or_iff_right (by omega)]

theorem fresh_byte : Fresh (byte 3) (byte 0) := ⟨by decide, by decide +kernel, by decide⟩

theorem fmm_product_five_words :
    (fmmProduct (byte 0) (byte 0) (byte 0) (byte 0) (byte 2) (byte 2) (byte 3)
      ⟨3, 1, [3, 0, 0, 0]⟩).value = 1 :=
  (fmm_product_iff (byte 3) (byte 2) (byte 2) (byte 0) (byte 0) (byte 0) (byte 0) ⟨0, 0, [0, 0, 0, 0]⟩
    _ 5 (by decide) (by decide) rfl fresh_byte fresh_byte fresh_byte (by decide)
    fresh_byte.room).mpr (.inl (by decide))

/-- A context of three words, which is enough for the modulus 3: 2*2 gives 0. -/
theorem fmm_product_three_words :
    ∃ ctx, bigIntInitFmmContext1 ⟨0, 0, [0, 0, 0, 0]⟩ 3 (byte 3) = some ctx ∧
      (fmmProduct (byte 0) (byte 0) (byte 0) (byte 0) (byte 2) (byte 2) (byte 3) ctx).value = 0 :=
  ⟨_, rfl, by decide +kernel⟩

end TeeOs.Arith
