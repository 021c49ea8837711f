import TeeOs.Arith.Number

/-!
# The extended greatest common divisor

The cofactors are rebuilt from the inverse of the first operand modulo the second, both
divided by their divisor. There is none modulo 0 and 1, so nothing is stored in `u` and
`v` where the second operand is zero or divides the first.
-/

namespace TeeOs.Arith

open SoftRsa

/-- The last number and the quotient by which `v` is made. -/
def cofactor (a b c : Int) : Option Int := (bnDiv (1-a*c) b).map Prod.fst

def bigIntComputeExtendedGcd (gcd u v op1 op2 : BigInt) : BigInt × BigInt × BigInt :=
  match bigIntToBn op1.toWords, bigIntToBn op2.toWords with
  | some a, some b =>
    match bnToBigInt gcd (Int.gcd a b) with
    | none => (gcd, u, v)
    | some gcd =>
      match bnDiv a (Int.gcd a b), bnDiv b (Int.gcd a b) with
      | some (a, _), some (b, _) =>
        match bnModInverse a b with
        | none => (gcd, u, v)
        | some c =>
          match bnToBigInt u c with
          | none => (gcd, u, v)
          | some u => (gcd, u, store v (cofactor a b c))
      | _, _ => (gcd, u, v)
  | _, _ => (gcd, u, v)

/-- What the three destinations are to hold. -/
structure Bezout (a b : Int) (r : BigInt × BigInt × BigInt) : Prop where
  gcd : r.1.value = Int.gcd a b
  sum : r.2.1.value*a + r.2.2.value*b = Int.gcd a b

/-- As large as both operands. -/
def Roomy (op1 op2 d : BigInt) : Prop :=
  2 < d.alloc ∧ Fits d op1.value ∧ Fits d op2.value

variable {a b c : Int}

/-- The cofactor makes the identity whole and is not larger than the first operand. -/
theorem cofactor_spec (h : bnModInverse a b = some c) :
    ∃ e, cofactor a b c = some e ∧ c*a+e*b = 1 ∧ e.natAbs ≤ a.natAbs := by
  obtain ⟨hc, hlt, e, he⟩ := bnModInverse_spec h
  have hb : b ≠ 0 := by
    rintro rfl
    exact absurd (hc.trans_lt hlt) (by simp)
  have ha : a ≠ 0 := by
    rintro rfl
    simp [bnModInverse] at h
    omega
  refine ⟨e, ?_, by linear_combination -he, ?_⟩
  · rw [cofactor, bnDiv, if_neg hb, he]
    simp [hb]
  · have hle : |b| * |e| ≤ |b| * |a| := by
      rw [← abs_mul, ← he]
      have hac : |a*c| ≤ |a| * (|b|-1) := by
        rw [abs_mul, abs_of_nonneg hc]
        gcongr
        exact Int.le_sub_one_of_lt hlt
      have hpos : 1 ≤ |a| := Int.one_le_abs ha
      calc |1-a*c| ≤ |1| + |a*c| := abs_sub ..
        _ ≤ 1+|a| * (|b|-1) := by simpa using hac
        _ ≤ |b| * |a| := by linarith
    have habs := le_of_mul_le_mul_left hle (abs_pos.mpr hb)
    rwa [Int.abs_eq_natAbs, Int.abs_eq_natAbs, Int.ofNat_le] at habs

/-- There is no inverse where the second operand, without the divisor, is 0 or 1. -/
theorem natAbs_le_one_iff {a' b' : Int} {d : Nat} (hd : 0 < d) (hco : Int.gcd a' b' = 1)
    (ha : a = a'*d) (hb : b = b'*d) : b'.natAbs ≤ 1 ↔ b = 0 ∨ b ∣ a := by
  subst ha hb
  have hd' : (d : Int) ≠ 0 := by omega
  rw [Int.mul_dvd_mul_iff_right hd', Int.mul_eq_zero]
  constructor
  · intro h
    by_cases h0 : b' = 0
    · exact .inl (.inl h0)
    · exact .inr (Int.natAbs_dvd.mp ⟨a', by have h1 : b'.natAbs = 1 := by omega
                                            rw [h1]; simp⟩)
  · rintro ((rfl | h) | h)
    · decide
    · exact absurd h hd'
    · rw [Int.gcd_eq_natAbs_right_iff_dvd.mpr h] at hco
      omega

variable {op1 op2 gcd u v : BigInt}

theorem bnDiv_eq {x : Int} {d : Nat} (hd : 0 < d) (h : x = a*d) : bnDiv x d = some (a, x.tmod d) := by
  have hd' : (d : Int) ≠ 0 := by omega
  rw [bnDiv, if_neg hd', h, Int.mul_tdiv_cancel _ hd']

/-- Where there is no inverse, or an operand cannot be read, the cofactors stay. -/
theorem extendedGcd_stays (hne : op1.value ≠ 0 ∨ op2.value ≠ 0)
    (h : ¬ (2 < op1.alloc ∧ 2 < op2.alloc ∧ op2.value ≠ 0 ∧ ¬ op2.value ∣ op1.value)) :
    (bigIntComputeExtendedGcd gcd u v op1 op2).2 = (u, v) := by
  unfold bigIntComputeExtendedGcd bigIntToBn
  by_cases h1 : op1.alloc ≤ 2
  · rw [if_pos h1]
  by_cases h2 : op2.alloc ≤ 2
  · rw [if_neg h1, if_pos h2]
  rw [if_neg h1, if_neg h2]
  have hd : 0 < Int.gcd op1.value op2.value := Int.gcd_pos_iff.mpr hne
  obtain ⟨a', b', hco, ha, hb⟩ := Int.exists_gcd_one hd
  have hb' : b'.natAbs ≤ 1 := (natAbs_le_one_iff hd hco ha hb).mpr (by
    by_contra hcon
    rw [not_or] at hcon
    exact h ⟨by omega, by omega, hcon⟩)
  have hnone : bnModInverse a' b' = none := if_pos (.inl hb')
  simp only [bnDiv_eq hd ha, bnDiv_eq hd hb, hnone]
  split <;> rfl

theorem Roomy.written {d : BigInt} {x : Int} (h : Roomy op1 op2 d)
    (hx : x.natAbs ≤ op1.value.natAbs ∨ x.natAbs ≤ op2.value.natAbs) :
    ∃ d', bnToBigInt d x = some d' ∧ d'.value = x := by
  obtain ⟨halloc, h1, h2⟩ := h
  rcases hx with hx | hx
  · have hle := bnNumBytes_mono hx
    exact bnToBigInt_some halloc (hle.trans h1) (hle.trans_lt (bnNumBytes_value _))
  · have hle := bnNumBytes_mono hx
    exact bnToBigInt_some halloc (hle.trans h2) (hle.trans_lt (bnNumBytes_value _))

theorem natAbs_le_mul {d : Nat} (hd : 0 < d) (x : Int) : x.natAbs ≤ (x*d).natAbs := by
  rw [Int.natAbs_mul]
  exact Nat.le_mul_of_pos_right _ (by omega)

theorem extendedGcd_bezout (h1 : 2 < op1.alloc) (h2 : 2 < op2.alloc) (h0 : op2.value ≠ 0)
    (hdvd : ¬ op2.value ∣ op1.value) (hg : Roomy op1 op2 gcd) (hu : Roomy op1 op2 u)
    (hv : Roomy op1 op2 v) :
    Bezout op1.value op2.value (bigIntComputeExtendedGcd gcd u v op1 op2) := by
  have hd : 0 < Int.gcd op1.value op2.value := Int.gcd_pos_iff.mpr (.inr h0)
  have hle := Nat.le_of_dvd (Int.natAbs_pos.mpr h0) (Int.gcd_dvd_natAbs_right op1.value op2.value)
  obtain ⟨a', b', hco, ha, hb⟩ := Int.exists_gcd_one hd
  have hb' := mt (natAbs_le_one_iff hd hco ha hb).mp (not_or.mpr ⟨h0, hdvd⟩)
  obtain ⟨c, hc⟩ : ∃ c, bnModInverse a' b' = some c := ⟨_, if_neg (by simp [hco, hb'])⟩
  obtain ⟨e, he, hsum, hea⟩ := cofactor_spec hc
  obtain ⟨hc0, hlt, -⟩ := bnModInverse_spec hc
  have hcb : c.natAbs ≤ b'.natAbs := by
    rw [Int.abs_eq_natAbs] at hlt
    omega
  have hmul := natAbs_le_mul hd
  obtain ⟨g, hg, hgv⟩ := hg.written (x := Int.gcd op1.value op2.value) (.inr hle)
  obtain ⟨x, hx, hxv⟩ := hu.written (.inr (hcb.trans (hb ▸ hmul b')))
  obtain ⟨y, hy, hyv⟩ := hv.written (.inl (hea.trans (ha ▸ hmul a')))
  have hrun : bigIntComputeExtendedGcd gcd u v op1 op2 = (g, x, y) := by
    unfold bigIntComputeExtendedGcd bigIntToBn
    rw [if_neg h1.not_ge, if_neg h2.not_ge]
    simp only [hg, bnDiv_eq hd ha, bnDiv_eq hd hb, hc, hx, he, store, Option.bind_some, hy,
      Option.getD_some]
  rw [hrun]
  refine ⟨hgv, ?_⟩
  show x.value*op1.value+y.value*op2.value = _
  rw [hxv, hyv]
  linear_combination c*ha + e*hb + Int.gcd op1.value op2.value*hsum

/-- Into destinations as large as the operands, the divisor and its cofactors are stored where the
second operand is not zero and does not divide the first. -/
theorem extendedGcd_bezout_iff (op1 op2 : BigInt) (hne : op1.value ≠ 0 ∨ op2.value ≠ 0) :
    (∀ gcd u v, Roomy op1 op2 gcd → Roomy op1 op2 u → Roomy op1 op2 v →
        Bezout op1.value op2.value (bigIntComputeExtendedGcd gcd u v op1 op2)) ↔
      2 < op1.alloc ∧ 2 < op2.alloc ∧ op2.value ≠ 0 ∧ ¬ op2.value ∣ op1.value := by
  constructor
  · intro h
    by_contra hcond
    let z := blank (2^16) (by decide) false
    have hz : Roomy op1 op2 z := by
      have h1 := bnNumBytes_value op1.toWords
      have h2 := bnNumBytes_value op2.toWords
      refine ⟨by decide, ?_, ?_⟩
      · exact h1.le.trans (by decide)
      · exact h2.le.trans (by decide)
    have hsum := (h z z z hz hz hz).sum
    rw [extendedGcd_stays hne hcond, value_blank] at hsum
    have hd := Int.gcd_pos_iff.mpr hne
    simp at hsum
    omega
  · rintro ⟨h1, h2, h0, hdvd⟩ gcd u v hg hu hv
    exact extendedGcd_bezout h1 h2 h0 hdvd hg hu hv

theorem extendedGcd_bezout_four_six :
    Bezout 4 6 (bigIntComputeExtendedGcd (byte 0) (byte 0) (byte 0) (byte 4) (byte 6)) :=
  have h : Roomy (byte 4) (byte 6) (byte 0) := by unfold Roomy; decide +kernel
  (extendedGcd_bezout_iff (byte 4) (byte 6) (by decide)).mpr (by decide) _ _ _ h h h

/-- Equal operands: the divisor is stored, and both cofactors stay zero. -/
theorem extendedGcd_equal : Roomy (byte 6) (byte 6) (byte 0) ∧
    ¬ Bezout 6 6 (bigIntComputeExtendedGcd (byte 0) (byte 0) (byte 0) (byte 6) (byte 6)) := by
  refine ⟨⟨by decide, by decide +kernel, by decide +kernel⟩, fun h => ?_⟩
  exact absurd h.sum (by decide +kernel)

end TeeOs.Arith
