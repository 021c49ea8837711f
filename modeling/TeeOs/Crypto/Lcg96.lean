import Mathlib

/-!
# The congruential generator behind the random scalars

A schoolbook product cut off at three words: each partial product is added from its
place on, with a carry of its own. The table keeps the two upper words of each iterate.
-/

namespace TeeOs.Crypto.Lcg96

open List UInt32

def multiplier : List UInt32 := [0x5aa1cae5, 0xd0cf37be, 0x92efd1b8]

/-- The loop over `k`, on the words of `x1` from the place of the product on. -/
def addWords (carry : Nat) : List UInt32 → List UInt32 → List UInt32
  | [], _ => []
  | x :: xs, t =>
    let tmp := x.toNat + (t.headD 0).toNat + carry
    .ofNat tmp :: addWords (if tmp > 0xffffffff then 1 else 0) xs t.tail

def addFrom (t : List UInt32) : Nat → List UInt32 → List UInt32
  | 0, x => addWords 0 x t
  | _+1, [] => []
  | k+1, x :: xs => x :: addFrom t k xs

def addProduct (x0 x1 : List UInt32) (i j : Nat) : List UInt32 :=
  let tmp := (multiplier.getD i 0).toNat * (x0.getD j 0).toNat
  addFrom [.ofNat tmp, .ofNat (tmp >>> 32), 0] (i+j) x1

def lcg96Calc (x0 : List UInt32) : List UInt32 :=
  (range 3).foldl (fun x1 i => (range (3-i)).foldl (addProduct x0 · i ·) x1) [1, 0, 0]

def upper (x : List UInt32) : Nat := (x.getD 2 0).toNat ||| (x.getD 1 0).toNat <<< 32

/-- The buffer of the last iterate, and the other one, which takes the next. -/
def seedLoop : Nat → List UInt32 × List UInt32 → List Nat
  | 0, _ => []
  | n+1, (x, _) => upper (lcg96Calc x) :: seedLoop n (lcg96Calc x, x)

def randomSeed (seed : UInt32) : List Nat :=
  (seedLoop 63 ([seed, 0, 0], [0, 0, 0])).modifyHead (· ||| 1)

def value (x : List UInt32) : Nat := Nat.ofDigits (2^32) (x.map toNat)

theorem value_cons (w : UInt32) (x : List UInt32) : value (w :: x) = w.toNat + 2^32 * value x :=
  Nat.ofDigits_cons ..

theorem two_pow_succ (n : Nat) : 2^(32*(n+1)) = 2^32 * 2^(32*n) := by
  rw [Nat.mul_succ, Nat.pow_add, Nat.mul_comm]

theorem value_tail (t : List UInt32) : value t = (t.headD 0).toNat + 2^32 * value t.tail := by
  cases t with
  | nil => rfl
  | cons w t => exact value_cons w t

theorem value_lt (x : List UInt32) : value x < 2^(32*x.length) := by
  induction x with
  | nil => decide
  | cons w x ih =>
    have hw := w.toNat_lt
    rw [value_cons, length_cons, two_pow_succ]
    omega

theorem length_addWords (c : Nat) (x t : List UInt32) : (addWords c x t).length = x.length := by
  fun_induction addWords c x t <;> simp_all

/-- The carry of one word is what the words above it are behind by. -/
theorem value_addWords {c : Nat} (x t : List UInt32) (hc : c ≤ 1) :
    value (addWords c x t) ≡ value x + value t + c [MOD 2^(32*x.length)] := by
  induction x generalizing c t with
  | nil => exact Nat.modEq_one
  | cons w x ih =>
    have hw := w.toNat_lt
    have ht := (t.headD 0).toNat_lt
    rw [addWords, value_cons, value_cons, value_tail t, length_cons, two_pow_succ,
      toNat_ofNat']
    generalize hs : w.toNat + (t.headD 0).toNat + c = s
    have hcarry : (if s > 0xffffffff then 1 else 0) = s / 2^32 := by split <;> omega
    have hsum := ((ih t.tail (c := s / 2^32) (by omega)).mul_left' (2^32)).add_left (s % 2^32)
    have hrhs : w.toNat + 2^32 * value x + ((t.headD 0).toNat + 2^32 * value t.tail) + c =
        s % 2^32 + 2^32 * (value x + value t.tail + s / 2^32) := by omega
    rw [hcarry, hrhs]
    exact hsum

theorem addFrom_spec (t x : List UInt32) {k : Nat} (h : k ≤ x.length) :
    (addFrom t k x).length = x.length ∧
      value (addFrom t k x) ≡ value x + 2^(32*k) * value t [MOD 2^(32*x.length)] := by
  induction k generalizing x with
  | zero => exact ⟨length_addWords .., by simpa [addFrom] using value_addWords x t zero_le_one⟩
  | succ k ih =>
    match x, h with
    | w :: x, h =>
      obtain ⟨hlen, hval⟩ := ih x (Nat.le_of_succ_le_succ h)
      refine ⟨congrArg Nat.succ hlen, ?_⟩
      rw [addFrom, value_cons, value_cons, length_cons, two_pow_succ, two_pow_succ, Nat.mul_assoc,
        Nat.add_assoc, ← Nat.mul_add]
      exact (hval.mul_left' _).add_left _

/-- What one partial product adds to `x1`. -/
def product (x0 : List UInt32) (p : Nat × Nat) : Nat :=
  2^(32*(p.1+p.2)) * ((multiplier.getD p.1 0).toNat * (x0.getD p.2 0).toNat)

theorem addProducts_spec (x0 x1 : List UInt32) (ps : List (Nat × Nat))
    (h : ∀ p ∈ ps, p.1+p.2 ≤ x1.length) :
    (ps.foldl (fun x1 p => addProduct x0 x1 p.1 p.2) x1).length = x1.length ∧
      value (ps.foldl (fun x1 p => addProduct x0 x1 p.1 p.2) x1) ≡
        value x1 + (ps.map (product x0)).sum [MOD 2^(32*x1.length)] := by
  induction ps generalizing x1 with
  | nil => exact ⟨rfl, rfl⟩
  | cons p ps ih =>
    obtain ⟨hp, hps⟩ := forall_mem_cons.mp h
    have hmul := Nat.mul_lt_mul'' (multiplier.getD p.1 0).toNat_lt (x0.getD p.2 0).toNat_lt
    have hvalue (n : Nat) (hn : n < 2^32 * 2^32) : value [.ofNat n, .ofNat (n >>> 32), 0] = n := by
      simp only [value_cons, toNat_ofNat', Nat.shiftRight_eq_div_pow]
      simp [value]
      omega
    obtain ⟨hlen, hval⟩ : (addProduct x0 x1 p.1 p.2).length = x1.length ∧ value _ ≡ _ [MOD _] :=
      addFrom_spec _ x1 hp
    rw [hvalue _ hmul] at hval
    obtain ⟨hlen', hval'⟩ := ih (addProduct x0 x1 p.1 p.2) (hlen.symm ▸ hps)
    rw [hlen] at hlen' hval'
    rw [map_cons, sum_cons, ← Nat.add_assoc]
    exact ⟨hlen', hval'.trans (hval.add_right _)⟩

theorem seedLoop_eq (n : Nat) (x y : List UInt32) :
    seedLoop n (x, y) = (range n).map fun i => upper (lcg96Calc^[i+1] x) := by
  induction n generalizing x y with
  | zero => rfl
  | succ n ih =>
    rw [seedLoop, ih, range_succ_eq_map, map_cons, map_map]
    rfl

/-- A step takes all three words of the number to those of its image, and the table has the
upper two of each iterate. -/
theorem randomSeed_iterates :
    (∀ low mid hig, (lcg96Calc [low, mid, hig]).length = 3 ∧
      value (lcg96Calc [low, mid, hig]) =
        (value multiplier * value [low, mid, hig] + 1) % 2^96) ∧
    ∀ seed, randomSeed seed =
      ((range 63).map fun i => upper (lcg96Calc^[i+1] [seed, 0, 0])).modifyHead (· ||| 1) := by
  refine ⟨fun low mid hig => ?_, fun seed => congrArg (modifyHead (· ||| 1)) (seedLoop_eq 63 _ _)⟩
  obtain ⟨hlen, hval⟩ := addProducts_spec [low, mid, hig] [1, 0, 0]
    [(0, 0), (0, 1), (0, 2), (1, 0), (1, 1), (2, 0)] (by decide)
  have hlt := value_lt (lcg96Calc [low, mid, hig])
  rw [show (lcg96Calc [low, mid, hig]).length = 3 from hlen] at hlt
  refine ⟨hlen, ?_⟩
  rw [← Nat.mod_eq_of_lt hlt]
  refine hval.trans ?_
  simp only [product, multiplier, value_cons, map_cons, map_nil, sum_cons, sum_nil,
    getD_cons_zero, getD_cons_succ, length_cons, length_nil, show value [] = 0 from rfl,
    show toNat 0 = 0 from rfl, show toNat 1 = 1 from rfl]
  generalize toNat 0x5aa1cae5 = a₀, toNat 0xd0cf37be = a₁,
    toNat 0x92efd1b8 = a₂, low.toNat = x₀, mid.toNat = x₁, hig.toNat = x₂
  -- the products at the places left out are multiples of `2^96`
  have hrest := Nat.ModEq.modulus_mul_add (m := 2^96) (a := a₁*x₂ + a₂*x₁ + 2^32*(a₂*x₂))
    (b := 1 + (a₀*x₀ + 2^32*(a₀*x₁ + a₁*x₀) + 2^64*(a₀*x₂ + a₁*x₁ + a₂*x₀)))
  ring_nf at hrest ⊢
  exact hrest.symm

end TeeOs.Crypto.Lcg96
