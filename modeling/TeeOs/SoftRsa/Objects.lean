import TeeOs.SoftRsa.CrtKey

/-!
# The OpenSSL objects of a soft RSA request

Numbers go over to the RSA, and the RSA to the EVP key, once a call has taken them.
Two ways out release again what has gone over: without a context the RSA is freed
beside the EVP key that has it, and where only some of the `RSA_set0` calls take
their numbers, these are freed with the RSA and then with all the others.
-/

namespace TeeOs.SoftRsa.Objects

open List

inductive Obj where
  | n | e | d | crt (i : Fin 5) | tmp (i : Fin 4) | rsa | pkey | ctx
  deriving DecidableEq

inductive Event where
  | got (o : Obj) | freed (o : Obj)
  deriving DecidableEq

/-- What succeeds: the checks of the request, the call that makes an object, and the others. -/
structure Calls where
  checked : Bool
  makes : Obj → Bool
  (bnCtx mul subWord gcd modInverse : Bool)
  (setKey setFactors setCrtParams assign : Bool)
  (mode padding oaep : Bool)
  digest : List Bool

def gets (os : List Obj) : List Event := os.map .got

def frees (os : List Obj) : List Event := os.map .freed

/-- `RSA_free`, with the numbers the RSA has. -/
def rsaFree (os : List Obj) : List Event := frees (.rsa :: os)

def tmps : List Obj := [.tmp 0, .tmp 1, .tmp 2, .tmp 3]

variable (c : Calls)

/-- The conversion of a key: are its lengths accepted, the numbers it needs, those where it stops
at the first failure, the ones it makes to compute with, and which `RSA_set0` call takes which. -/
structure Conversion where
  fits : Bool
  nums : List Obj
  crts : List Obj := []
  temporaries : List Obj := []
  computes : Bool := true
  sets : List (Bool × List Obj)

def convertRsaPubToBoring (n e : List UInt8) : Conversion where
  fits := n.length ≤ rsaMaxKeySize && e.length ≤ rsaExponentLen
  nums := [.n, .e]
  sets := [(c.setKey, [.n, .e])]

def convertRsaNonCrtToBoring (k : RsaPrivKey) : Conversion where
  fits := k.n.length ≤ rsaMaxKeySize && k.d.length ≤ rsaMaxKeySize && k.e.length ≤ rsaExponentLen
  nums := [.n, .e, .d]
  sets := [(c.setKey, [.n, .e, .d])]

def convertRsaCrtToBoring (k : RsaPrivKey) : Conversion where
  fits := checkPrivateKeyLen k
  nums := [.n, .e, .d]
  crts := [.crt 0, .crt 1, .crt 2, .crt 3, .crt 4]
  temporaries := if c.bnCtx && c.mul then tmps.filter c.makes else []
  computes := c.bnCtx && c.mul && tmps.all c.makes && c.subWord && c.gcd && c.modInverse
  sets := [(c.setKey, [.n, .e, .d]), (c.setFactors, [.crt 0, .crt 1]),
    (c.setCrtParams, [.crt 2, .crt 3, .crt 4])]

variable (x : Conversion)

def Conversion.numbers : List Obj := x.nums ++ x.crts

def Conversion.made : List Obj :=
  x.nums.filter c.makes ++ if x.nums.all c.makes then x.crts.takeWhile c.makes else []

/-- The numbers of the calls that succeed. -/
def Conversion.taken : List Obj := (x.sets.filter (·.1)).flatMap (·.2)

/-- `RSA_new` and the handover, in `set_boring_rsa_key` and where there is one call only. -/
def setBoringRsaKey : List Event × Bool :=
  if c.makes .rsa = false then ([], false)
  else if x.sets.all (·.1) then ([.got .rsa], true)
  else (.got .rsa :: rsaFree x.taken, false)

/-- Freeing NULL does nothing; a public key is freed before its RSA. -/
def convert : List Event × Bool :=
  let bns := x.made c
  if x.fits = false then ([], false)
  else if x.numbers.all c.makes = false then (gets bns ++ frees bns, false)
  else
    let l := gets bns ++ gets x.temporaries ++ frees x.temporaries
    if x.computes = false then (l ++ frees bns, false)
    else
      let y := setBoringRsaKey c x
      (l ++ y.1 ++ (if y.2 then [] else frees bns), y.2)

def generateAndInitEvpRsaCtx : List Event × Bool :=
  if c.makes .ctx = false then ([], false)
  else if c.mode && c.padding && c.oaep then ([.got .ctx], true)
  else ([.got .ctx, .freed .ctx], false)

/-- `do_rsa_encrypt` and `do_rsa_decrypt`, with `create_rsa_encrypt_ctx` and its sibling. -/
def doRsaCrypt : List Event :=
  if c.makes .pkey = false then []
  else
    let y := convert c x
    if y.2 = false then .got .pkey :: y.1 ++ [.freed .pkey]
    else if c.assign = false then .got .pkey :: y.1 ++ rsaFree x.numbers ++ [.freed .pkey]
    else
      let z := generateAndInitEvpRsaCtx c
      .got .pkey :: y.1 ++ z.1 ++ (if z.2 then [] else rsaFree x.numbers) ++
        .freed .pkey :: rsaFree x.numbers ++ if z.2 then [.freed .ctx] else []

/-- The RSA is freed behind the step of a signature that fails, or behind the last. -/
def useRsa : List Bool → List Event
  | [] => rsaFree x.numbers
  | done :: steps => if done then useRsa steps else rsaFree x.numbers

def doRsaDigest : List Event :=
  let y := convert c x
  if y.2 then y.1 ++ useRsa x c.digest else y.1

inductive Request where
  | encrypt (n e : List UInt8) | verify (n e : List UInt8)
  | decrypt (k : RsaPrivKey) (crtMode : Bool) | sign (k : RsaPrivKey) (crtMode : Bool)

def Request.conversion : Request → Conversion
  | .encrypt n e | .verify n e => convertRsaPubToBoring c n e
  | .decrypt k crtMode | .sign k crtMode =>
    if crtMode then convertRsaCrtToBoring c k else convertRsaNonCrtToBoring c k

def Request.crypts : Request → Bool
  | .encrypt .. | .decrypt .. => true
  | _ => false

def softCryptoRsa (r : Request) : List Event :=
  if c.checked = false then []
  else if r.crypts then doRsaCrypt c (r.conversion c) else doRsaDigest c (r.conversion c)

/-- Each object is released as often as it was obtained. -/
def ReleasedOnce (l : List Event) : Prop := ∀ o, l.count (.freed o) = l.count (.got o)

/-- All calls up to the handover succeed. -/
def Reaches : Prop :=
  x.fits = true ∧ x.numbers.all c.makes = true ∧ x.computes = true ∧ c.makes .rsa = true

section Counts

variable (os : List Obj) (o : Obj)

@[simp] theorem got_gets : (gets os).count (.got o) = os.count o :=
  count_map_of_injective os _ (fun _ _ => Event.got.inj) o

@[simp] theorem freed_frees : (frees os).count (.freed o) = os.count o :=
  count_map_of_injective os _ (fun _ _ => Event.freed.inj) o

@[simp] theorem freed_gets : (gets os).count (.freed o) = 0 := by simp [gets, count_eq_zero]

@[simp] theorem got_frees : (frees os).count (.got o) = 0 := by simp [frees, count_eq_zero]

end Counts

/-- How a conversion ends: before the handover, with the RSA, or with the numbers freed that were
taken over before a call has failed, and then all. -/
inductive Converted : List Event × Bool → Prop
  | early {l : List Event} (h : ¬ Reaches c x) (hl : ReleasedOnce l) : Converted (l, false)
  | whole {l : List Event} (h : Reaches c x) (hall : x.sets.all (·.1) = true)
      (hl : ∀ o, l.count (.freed o) + (.rsa :: x.numbers).count o = l.count (.got o)) :
      Converted (l, true)
  | failed {l : List Event} (h : Reaches c x) (hsome : x.sets.all (·.1) = false)
      (hl : ∀ o, l.count (.freed o) = l.count (.got o) + x.taken.count o) : Converted (l, false)

variable {c x} {l : List Event}

theorem made_eq (h : x.numbers.all c.makes = true) : x.made c = x.numbers := by
  obtain ⟨hn, hc⟩ := Bool.and_eq_true_iff.mp (all_append.symm.trans h)
  rw [Conversion.made, filter_eq_self.mpr (all_eq_true.mp hn), if_pos hn,
    takeWhile_eq_self_iff.mpr (all_eq_true.mp hc), Conversion.numbers]

variable (c x) in
theorem converted : Converted c x (convert c x) := by
  unfold convert
  split
  · next h => exact .early (fun hr => by simp [hr.1] at h) fun _ => rfl
  split
  · next h => exact .early (fun hr => by simp [hr.2.1] at h) fun o => by simp
  split
  · next h => exact .early (fun hr => by simp [hr.2.2.1] at h) fun o => by simp; omega
  next hfits hall hcomputes =>
  rw [Bool.not_eq_false] at hfits hall hcomputes
  rw [made_eq hall]
  unfold setBoringRsaKey
  split
  · next h => exact .early (fun hr => by simp [hr.2.2.2] at h) fun o => by simp; omega
  next hrsa =>
  have hr : Reaches c x := ⟨hfits, hall, hcomputes, Bool.not_eq_false _ |>.mp hrsa⟩
  split
  · next hsets =>
    refine .whole hr hsets fun o => ?_
    simp [count_cons]
    omega
  · next hsets =>
    refine .failed hr (Bool.not_eq_true _ |>.mp hsets) fun o => ?_
    simp [rsaFree, count_cons]
    omega

theorem useRsa_eq (steps : List Bool) : useRsa x steps = rsaFree x.numbers := by
  induction steps with
  | nil => rfl
  | cons done steps ih => rw [useRsa, ih, ite_self]

theorem once_failed (hl : ∀ o, l.count (.freed o) = l.count (.got o) + x.taken.count o) :
    ReleasedOnce l ↔ x.taken = [] := by
  simp only [ReleasedOnce, hl, Nat.add_eq_left, count_eq_zero, eq_nil_iff_forall_not_mem]

theorem doRsaDigest_once : ReleasedOnce (doRsaDigest c x) ↔
    (Reaches c x → x.sets.all (·.1) = true ∨ x.taken = []) := by
  have h := converted c x
  unfold doRsaDigest
  generalize convert c x = y at h
  cases h with
  | early h hl => exact iff_of_true hl fun hr => absurd hr h
  | whole _ hall hl =>
    refine iff_of_true (fun o => ?_) fun _ => .inl hall
    simp [useRsa_eq, rsaFree, ← hl o]
  | failed h hsome hl => simp [once_failed hl, h, hsome]

theorem generate_spec : (generateAndInitEvpRsaCtx c).2 =
      (c.makes .ctx && c.mode && c.padding && c.oaep) ∧
    ∀ o, (generateAndInitEvpRsaCtx c).1.count (.got o) =
      (generateAndInitEvpRsaCtx c).1.count (.freed o) +
        if (generateAndInitEvpRsaCtx c).2 then [Obj.ctx].count o else 0 := by
  unfold generateAndInitEvpRsaCtx
  split
  · next h => simp [h]
  split <;> simp_all [count_cons]

theorem once_pkey : ReleasedOnce (.got .pkey :: l ++ [.freed .pkey]) ↔ ReleasedOnce l := by
  refine forall_congr' fun o => ?_
  simp [count_cons]

theorem doRsaCrypt_once (hkey : c.makes .pkey = true) : ReleasedOnce (doRsaCrypt c x) ↔
    (Reaches c x → (x.sets.all (·.1) = true ∨ x.taken = []) ∧
      (x.sets.all (·.1) = true → c.assign = true →
        (c.makes .ctx && c.mode && c.padding && c.oaep) = true)) := by
  have h := converted c x
  unfold doRsaCrypt
  rw [if_neg (Bool.not_eq_false _ |>.mpr hkey)]
  generalize convert c x = y at h
  cases h with
  | early h hl => exact iff_of_true (once_pkey.mpr hl) fun hr => absurd hr h
  | failed h hsome hl => simpa [h, hsome] using once_pkey.trans (once_failed hl)
  | whole h hall hl =>
    simp only [h, hall, true_or, true_and, forall_const, Bool.true_eq_false, if_false]
    split
    · next ha =>
      refine iff_of_true (fun o => ?_) fun hassign => by simp [hassign] at ha
      simp [rsaFree, count_cons, ← hl o]
      omega
    next ha =>
    obtain ⟨hmade, hcount⟩ := generate_spec (c := c)
    rw [← hmade]
    cases hz : (generateAndInitEvpRsaCtx c).2 with
    | true =>
      refine iff_of_true (fun o => ?_) fun _ => rfl
      simp [rsaFree, count_cons, ← hl o, hcount o, hz]
      omega
    | false =>
      refine iff_of_false (fun honce => ?_) (by simpa using ha)
      have hrsa := honce .rsa
      simp [rsaFree, ← hl .rsa, hcount .rsa, hz] at hrsa
      omega

/-- The objects are released once where, behind the last number, all of the `RSA_set0` calls take
theirs or none does and an EVP key that has taken the RSA gets its context. -/
theorem objects_released_once_iff (c : Calls) (r : Request) :
    ReleasedOnce (softCryptoRsa c r) ↔ (c.checked = true →
      (r.crypts = true → c.makes .pkey = true) → Reaches c (r.conversion c) →
        ((r.conversion c).sets.all (·.1) = true ∨ (r.conversion c).taken = []) ∧
        (r.crypts = true → (r.conversion c).sets.all (·.1) = true → c.assign = true →
          (c.makes .ctx && c.mode && c.padding && c.oaep) = true)) := by
  unfold softCryptoRsa
  split
  · next h => exact iff_of_true (fun _ => rfl) fun hc => by simp [hc] at h
  next h =>
  split
  · next hr =>
    by_cases hkey : c.makes .pkey = true
    · simp [doRsaCrypt_once hkey, hr, h, hkey]
    · rw [doRsaCrypt, if_pos (Bool.not_eq_true _ |>.mp hkey)]
      exact iff_of_true (fun _ => rfl) fun _ hc => absurd (hc hr) hkey
  · next hr => simp [doRsaDigest_once, hr, h]

/-- A public key is encrypted with where the context cannot be made: the RSA is freed twice. -/
theorem encrypt_frees_rsa_twice :
    softCryptoRsa ⟨true, (· ≠ .ctx), true, true, true, true, true, true, true, true, true, true,
      true, true, []⟩ (.encrypt [3] [3]) =
    gets [.pkey, .n, .e, .rsa] ++ frees [.rsa, .n, .e, .pkey, .rsa, .n, .e] ∧
    ¬ ReleasedOnce (gets [.pkey, .n, .e, .rsa] ++ frees [.rsa, .n, .e, .pkey, .rsa, .n, .e]) :=
  ⟨by decide, fun h => absurd (h .rsa) (by decide)⟩

end TeeOs.SoftRsa.Objects
