import Mathlib

/-!
# The CRT private key of the soft RSA engine

`convert_rsa_crt_to_boring` is given the factors and the CRT exponents of a key
and computes the modulus and the private exponent again. The exponent is taken
modulo `q - 1`, the temporary that still holds the second factor, and not modulo
the least common multiple computed in the line before.
-/

namespace TeeOs.SoftRsa

def rsaExponentLen : Nat := 4

def rsaMaxKeySize : Nat := 512

def rsaMaxKeySizeCrt : Nat := rsaMaxKeySize/2

/-- `rsa_priv_key_t`; the length of a field is stored next to it. -/
structure RsaPrivKey where
  (n e d p q dp dq qinv : List UInt8)

/-- A key as OpenSSL holds it. -/
structure Rsa where
  (n e d p q dmp1 dmq1 iqmp : Int)

def bnBin2bn (b : List UInt8) : Nat := b.foldl (fun v x => 256*v+x.toNat) 0

def bnDiv (m d : Int) : Option (Int × Int) :=
  if d = 0 then none else some (m.tdiv d, m.tmod d)

/-- The documented result: the number `r` below the modulus with `a*r % n = 1`. -/
def bnModInverse (a n : Int) : Option Int :=
  if n.natAbs ≤ 1 ∨ Int.gcd a n ≠ 1 then none else some (Int.gcdA a n % n)

def checkPrivateKeyLen (k : RsaPrivKey) : Bool :=
  k.e.length ≤ rsaExponentLen && k.n.length ≤ rsaMaxKeySize && k.d.length ≤ rsaMaxKeySize &&
    [k.p, k.q, k.dp, k.dq, k.qinv].all fun b => b.length ≤ rsaMaxKeySizeCrt

def computeRsaEdBigNum (p q e : Int) : Option Int := do
  let bnP := p-1
  let bnQ := q-1
  let (bnP, _) ← bnDiv bnP (Int.gcd bnP bnQ)
  -- `bn_div` receives the least common multiple and is not read again
  let _bnDiv := bnQ*bnP
  bnModInverse e bnQ

def getRsaNedBigNum (p q e : Int) : Option (Int × Int) := do
  let n := p*q
  let d ← computeRsaEdBigNum p q e
  return (n, d)

def convertRsaCrtToBoring (k : RsaPrivKey) : Option Rsa :=
  if checkPrivateKeyLen k then do
    let e := bnBin2bn k.e
    let p := bnBin2bn k.p
    let q := bnBin2bn k.q
    let (n, d) ← getRsaNedBigNum p q e
    return ⟨n, e, d, p, q, bnBin2bn k.dp, bnBin2bn k.dq, bnBin2bn k.qinv⟩
  else none

/-- The CRT computation of a private-key operation. -/
def Rsa.crtPower (r : Rsa) (m : Int) : Int :=
  let m1 := m^r.dmp1.toNat % r.p
  let m2 := m^r.dmq1.toNat % r.q
  m2+(r.iqmp*(m1-m2) % r.p)*r.q

/-- `k` is a CRT key of two different odd primes, within the length limits. -/
structure Matching (k : RsaPrivKey) (p q e dp dq qinv : Nat) : Prop where
  fits : checkPrivateKeyLen k = true
  numbers : [k.p, k.q, k.e, k.dp, k.dq, k.qinv].map bnBin2bn = [p, q, e, dp, dq, qinv]
  p_prime : p.Prime
  q_prime : q.Prime
  odd : 2 < p ∧ 2 < q
  ne : p ≠ q
  coprime : Nat.Coprime e ((p-1)*(q-1))
  dp : e*dp ≡ 1 [ZMOD p-1]
  dq : e*dq ≡ 1 [ZMOD q-1]
  qinv : q*qinv ≡ 1 [ZMOD p]

theorem bnModInverse_spec {a b c : Int} (h : bnModInverse a b = some c) :
    0 ≤ c ∧ c < |b| ∧ b ∣ 1-a*c := by
  unfold bnModInverse at h
  split at h
  · cases h
  next hb =>
  obtain rfl := Option.some.inj h
  have hne : b ≠ 0 := by omega
  refine ⟨Int.emod_nonneg _ hne, Int.emod_lt_abs _ hne, ?_⟩
  have hbezout := Int.gcd_eq_gcd_ab a b
  have hmod := Int.emod_add_mul_ediv (Int.gcdA a b) b
  refine ⟨Int.gcdB a b + a*(Int.gcdA a b / b), ?_⟩
  have hone : (Int.gcd a b : Int) = 1 := by omega
  linear_combination hbezout - hone - a*hmod

theorem inverse_unique {e a b n : Int} (ha : e*a ≡ 1 [ZMOD n]) (hb : e*b ≡ 1 [ZMOD n]) :
    a ≡ b [ZMOD n] := by
  calc a = a*1 := (mul_one a).symm
    _ ≡ a*(e*b) [ZMOD n] := hb.symm.mul_left a
    _ = e*a*b := by ring
    _ ≡ 1*b [ZMOD n] := ha.mul_right b
    _ = b := one_mul b

theorem pos_of_inverse {e d n : Int} (hn : 1 < n) (h0 : 0 ≤ d) (h : e*d ≡ 1 [ZMOD n]) : 0 < d := by
  refine lt_of_le_of_ne h0 fun hd => ?_
  rw [← hd, mul_zero, Int.ModEq, Int.zero_emod, Int.emod_eq_of_lt Int.one_nonneg hn] at h
  exact zero_ne_one h

/-- Two inverses of `e` modulo `p - 1` are one exponent modulo `p`, for multiples of `p` too. -/
theorem pow_modEq {p : Nat} {e a b : Int} (hp : p.Prime) (h2 : 2 < p) (ha : 0 ≤ a) (hb : 0 ≤ b)
    (hea : e*a ≡ 1 [ZMOD p-1]) (heb : e*b ≡ 1 [ZMOD p-1]) (m : Int) :
    m^a.toNat ≡ m^b.toNat [ZMOD p] := by
  have := Fact.mk hp
  have ha0 := pos_of_inverse (by omega) ha hea
  have hb0 := pos_of_inverse (by omega) hb heb
  have hmod : a.toNat % (p-1) = b.toNat % (p-1) := by
    have h := inverse_unique hea heb
    rw [← Int.toNat_of_nonneg ha, ← Int.toNat_of_nonneg hb, ← Int.natCast_pred_of_pos hp.pos] at h
    exact Int.natCast_modEq_iff.1 h
  rw [← ZMod.intCast_eq_intCast_iff, Int.cast_pow, Int.cast_pow]
  by_cases hm : (m : ZMod p) = 0
  · rw [hm, zero_pow (by omega), zero_pow (by omega)]
  · have h1 := ZMod.pow_card_sub_one_eq_one hm
    rw [pow_eq_pow_mod a.toNat h1, hmod, ← pow_eq_pow_mod b.toNat h1]

/-- The CRT computation is the power, for exponents that agree with `d` modulo each factor. -/
theorem power_eq_crtPower {p q : Nat} {r : Rsa} (hp : p.Prime) (hq : q.Prime) (hne : p ≠ q)
    (hrp : r.p = p) (hrq : r.q = q) {m x : Int} (hdp : x ≡ m^r.dmp1.toNat [ZMOD p])
    (hdq : x ≡ m^r.dmq1.toNat [ZMOD q]) (hinv : q*r.iqmp ≡ 1 [ZMOD p]) :
    x % (p*q) = r.crtPower m := by
  simp only [Rsa.crtPower, hrp, hrq]
  generalize hm1 : m^r.dmp1.toNat % (p : Int) = m1
  generalize hm2 : m^r.dmq1.toNat % (q : Int) = m2
  generalize hh : r.iqmp*(m1-m2) % (p : Int) = h
  have hp0 : (0 : Int) < p := Int.natCast_pos.2 hp.pos
  have hq0 : (0 : Int) < q := Int.natCast_pos.2 hq.pos
  have h0 : 0 ≤ h := hh ▸ Int.emod_nonneg _ hp0.ne'
  have h1 : h ≤ p-1 := Int.le_sub_one_of_lt (hh ▸ Int.emod_lt_of_pos _ hp0)
  have h2 : 0 ≤ m2 := hm2 ▸ Int.emod_nonneg _ hq0.ne'
  have h3 : m2 < q := hm2 ▸ Int.emod_lt_of_pos _ hq0
  have modq : x ≡ m2+h*q [ZMOD q] := by
    calc x ≡ m^r.dmq1.toNat [ZMOD q] := hdq
      _ ≡ m2 [ZMOD q] := hm2 ▸ (Int.mod_modEq _ _).symm
      _ ≡ m2+h*q [ZMOD q] := (Int.add_mul_emod_self_right _ _ _).symm
  have modp : x ≡ m2+h*q [ZMOD p] := by
    calc x ≡ m^r.dmp1.toNat [ZMOD p] := hdp
      _ ≡ m1 [ZMOD p] := hm1 ▸ (Int.mod_modEq _ _).symm
      _ = m2+1*(m1-m2) := by ring
      _ ≡ m2+q*r.iqmp*(m1-m2) [ZMOD p] := (hinv.symm.mul_right _).add_left _
      _ = m2+r.iqmp*(m1-m2)*q := by ring
      _ ≡ m2+h*q [ZMOD p] := ((hh ▸ Int.mod_modEq _ _).symm.mul_right _).add_left _
  have hco : (p : Int).natAbs.Coprime (q : Int).natAbs := (Nat.coprime_primes hp hq).2 hne
  have hmod := (Int.modEq_and_modEq_iff_modEq_mul hco).1 ⟨modp, modq⟩
  rw [hmod, Int.emod_eq_of_lt (by positivity)]
  nlinarith

section

variable {k : RsaPrivKey} {p q e dp dq qinv : Nat}

/-- The conversion keeps what it is given and takes the inverse of `e` modulo `q - 1`. -/
theorem convertRsaCrtToBoring_spec (h : Matching k p q e dp dq qinv) : ∃ d : Int,
    convertRsaCrtToBoring k = some ⟨p*q, e, d, p, q, dp, dq, qinv⟩ ∧
      0 ≤ d ∧ d < q-1 ∧ e*d ≡ 1 [ZMOD q-1] := by
  have h2 := h.odd
  have hg : Int.gcd e ((q : Int)-1) = 1 := by
    rw [← Int.natCast_pred_of_pos h.q_prime.pos]
    exact h.coprime.coprime_mul_left_right
  obtain ⟨d, hd⟩ : ∃ d, bnModInverse e (q-1) = some d := ⟨_, if_neg (by omega)⟩
  obtain ⟨h0, hlt, hdvd⟩ := bnModInverse_spec hd
  have hinv : e*d ≡ 1 [ZMOD q-1] := Int.modEq_iff_dvd.2 hdvd
  rw [abs_of_pos (by omega)] at hlt
  have hz : (Int.gcd ((p : Int)-1) (q-1) : Int) ≠ 0 := by
    rw [Int.natCast_ne_zero, Ne, Int.gcd_eq_zero_iff]
    omega
  refine ⟨d, ?_, h0, hlt, hinv⟩
  obtain ⟨rfl, rfl, rfl, rfl, rfl, rfl, -⟩ := by simpa only [List.map, List.cons.injEq] using h.numbers
  simp only [convertRsaCrtToBoring, if_pos h.fits, getRsaNedBigNum, computeRsaEdBigNum, bnDiv,
    if_neg hz, Option.bind_eq_bind, Option.bind_some, hd]
  rfl

/-- A matching key is converted to an OpenSSL key of the same numbers with a right private exponent
exactly if `e` has an inverse modulo `lcm (p - 1) (q - 1)` below `q - 1`. -/
theorem crt_key_converted_iff (h : Matching k p q e dp dq qinv) :
    (∃ r, convertRsaCrtToBoring k = some r ∧ r = ⟨p*q, e, r.d, p, q, dp, dq, qinv⟩ ∧
      e*r.d ≡ 1 [ZMOD Int.lcm (p-1) (q-1)] ∧ ∀ m, m^r.d.toNat % r.n = r.crtPower m) ↔
    ∃ d : Int, 0 ≤ d ∧ d < q-1 ∧ e*d ≡ 1 [ZMOD Int.lcm (p-1) (q-1)] := by
  obtain ⟨d, hk, h0, hlt, hinv⟩ := convertRsaCrtToBoring_spec h
  rw [hk]
  constructor
  · rintro ⟨r, hr, -, hd, -⟩
    obtain rfl := Option.some.inj hr
    exact ⟨d, h0, hlt, hd⟩
  · rintro ⟨d', h0', hlt', hd⟩
    have hdq := hd.of_dvd (Int.dvd_lcm_right _ _)
    have hdd := inverse_unique hinv hdq
    rw [Int.ModEq, Int.emod_eq_of_lt h0 hlt, Int.emod_eq_of_lt h0' hlt'] at hdd
    subst hdd
    refine ⟨_, rfl, rfl, hd, fun m => ?_⟩
    refine power_eq_crtPower h.p_prime h.q_prime h.ne rfl rfl ?_ ?_ h.qinv
    · exact pow_modEq h.p_prime h.odd.1 h0 (Int.natCast_nonneg _)
        (hd.of_dvd (Int.dvd_lcm_left _ _)) h.dp m
    · exact pow_modEq h.q_prime h.odd.2 h0 (Int.natCast_nonneg _) hdq h.dq m

end

theorem crt_key_converted_21 :
    ∃ r, convertRsaCrtToBoring ⟨[21], [5], [5], [3], [7], [1], [5], [1]⟩ = some r ∧
      ∀ m, m^r.d.toNat % r.n = r.crtPower m := by
  have h : Matching ⟨[21], [5], [5], [3], [7], [1], [5], [1]⟩ 3 7 5 1 5 1 := by
    constructor <;> decide
  obtain ⟨r, hr, -, -, hm⟩ := (crt_key_converted_iff h).2 ⟨5, by decide⟩
  exact ⟨r, hr, hm⟩

/-- The primes 11 and 7 with exponent 7: the conversion finds 1 where 13 is right. -/
theorem crt_exponent_modulo_one_factor :
    ∃ k r, Matching k 11 7 7 3 1 8 ∧ convertRsaCrtToBoring k = some r ∧
      ¬ 7*r.d ≡ 1 [ZMOD Int.lcm 10 6] ∧ 2^r.d.toNat % r.n ≠ r.crtPower 2 := by
  have h : Matching ⟨[77], [7], [13], [11], [7], [3], [1], [8]⟩ 11 7 7 3 1 8 := by
    constructor <;> decide
  obtain ⟨d, hk, h0, hlt, hinv⟩ := convertRsaCrtToBoring_spec h
  obtain rfl : d = 1 := by
    have hmod : 7*d % 6 = 1 := hinv
    omega
  exact ⟨_, _, h, hk, by decide, by decide⟩

end TeeOs.SoftRsa
