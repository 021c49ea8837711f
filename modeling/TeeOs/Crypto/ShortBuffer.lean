import TeeOs.Crypto.HalRoom
import TeeOs.Crypto.HandleState

/-!
# Buffers that are too short

A call that answers that the buffer for its output is too short should leave the operation as
it was, so that it can be repeated, and a length it reports should be enough. It is so where the
length is refused by the first check, in `TEE_CipherUpdate`, `TEE_CipherDoFinal` or the AE
calls. Where only the layers below refuse it, the context has been used up by then.
-/

namespace TeeOs.Crypto

open TeeOs.Lib Operation Option Nat

/-- The calls with an output buffer of the caller. -/
inductive OutputCall
  | cipherUpdate (src : Ref) (destData : Bool)
  | cipherDoFinal (src : Ref) (destData : Bool)
  | aeUpdate (src : Ref) (destData : Bool)
  | aeEncryptFinal (src : Ref) (destData tag : Bool)
  | aeDecryptFinal (src : Ref) (destData : Bool) (tag : Ref)

open OutputCall

variable {κ σ α : Type}

/-- The call, with its output and tag. -/
def OutputCall.run (hal : Hal κ) (level : Nat) : OutputCall → Call κ (Block × Block)
  | .cipherUpdate src destData => do return (← Crypto.cipherUpdate hal level src destData, [])
  | .cipherDoFinal src destData => do return (← Crypto.cipherDoFinal hal level src destData, [])
  | .aeUpdate src destData => do return (← Crypto.aeUpdate hal level src destData, [])
  | .aeEncryptFinal src destData tag => Crypto.aeEncryptFinal hal level src destData tag
  | .aeDecryptFinal src destData tag => do return (← Crypto.aeDecryptFinal hal level src destData tag, [])

/-- The same call with a buffer. -/
def OutputCall.withBuffer : OutputCall → OutputCall
  | .cipherUpdate src _ => .cipherUpdate src true
  | .cipherDoFinal src _ => .cipherDoFinal src true
  | .aeUpdate src _ => .aeUpdate src true
  | .aeEncryptFinal src _ tag => .aeEncryptFinal src true tag
  | .aeDecryptFinal src _ tag => .aeDecryptFinal src true tag

def Local.resized (d : Option Nat) (s : Local κ) : Local κ := { s with destLen := d }

/-- After the call `x` the operation is as before, `y` gives with any buffer what it would have
given before, and is not refused again with a length that was reported. -/
structure Harmless (x y : Call κ α) (s : Local κ) : Prop where
  kept : (x s).2.op = s.op
  again : ∀ n, y ((x s).2.resized (some n)) = y (s.resized (some n))
  truthful : (x s).2.destLen ≠ s.destLen → (y (x s).2).1 ≠ .error .shortBuffer

variable {x y : Call κ α} {s : Local κ}

theorem NotShort.ne (h : NotShort x s) : (x s).1 ≠ .error .shortBuffer := by
  unfold NotShort Ends at h
  generalize x s = r at h ⊢
  obtain ⟨e | a, t⟩ := r
  · exact fun he => h (Except.error.inj he)
  · nofun

theorem NotShort.never {P : Local κ → Prop} (h : NotShort x s) :
    Ends x (fun _ _ => True) (fun e t => e = .shortBuffer → P t) s :=
  h.imp (fun _ _ _ => trivial) fun _ _ he hshort => absurd hshort he

/-- How a call ends that may be repeated: only the length has changed, to one that is enough. -/
abbrev Repeatable (x y : Call κ α) (s : Local κ) : Prop :=
  Ends x (fun _ _ => True)
    (fun e t => e = .shortBuffer → ∃ d, t = s.resized d ∧ (d ≠ s.destLen → NotShort y t)) s

theorem Repeatable.harmless (h : Repeatable x y s)
    (hshort : (x s).1 = .error .shortBuffer) : Harmless x y s := by
  unfold Repeatable Ends at h
  rcases hx : x s with ⟨e | a, t⟩
  · rw [hx] at h hshort
    obtain ⟨d, rfl, hd⟩ := h (Except.error.inj hshort)
    constructor <;> rw [hx]
    · rfl
    · exact fun n => rfl
    · exact fun hne => (hd hne).ne
  · rw [hx] at hshort
    cases hshort

/-- The call leaves the state as it is when it is refused. -/
theorem unchanged_of_short {e : TeeError} :
    e = .shortBuffer → ∃ d, s = s.resized d ∧ (d ≠ s.destLen → NotShort y s) :=
  fun _ => ⟨s.destLen, rfl, fun hne => absurd rfl hne⟩

/-! ## Ciphers -/

section
variable {engine : Engine σ} {need : σ → HalRequest → Nat} {level : Nat} {answers : List Bool}
  {s : Local (HalCtx σ)}

theorem halCall_notShort {req : HalRequest}
    (h : ∀ c ∈ s.op.cryptoCtxt, NotShort (teeCrypto engine level req) ⟨c.raw, answers, []⟩) :
    NotShort (halCall (cryptoHal engine level answers) req) s := by
  unfold NotShort Ends halCall
  cases hctx : s.op.cryptoCtxt with
  | none => nofun
  | some c =>
    have hcall := h c hctx
    unfold NotShort Ends at hcall
    simp only [cryptoHal]
    generalize teeCrypto engine level req ⟨c.raw, answers, []⟩ = r at hcall ⊢
    obtain ⟨e | a, t⟩ := r
    · exact hcall
    · trivial

variable {op : Operation κ} {src : Ref} {destData keep tag : Bool} {y : Call (HalCtx σ) Block}
  {data : Block} {srcLen room tagLen : Nat}

theorem configOf_ne_short {table : List OpConfig} : configOf table op ≠ .error .shortBuffer := by
  unfold configOf
  split
  · nofun
  · split
    · nofun
    · nofun

theorem cipherCheck_ne_short :
    cipherUpdateFinalOperationStateCheck op level ≠ .error .shortBuffer := by
  unfold cipherUpdateFinalOperationStateCheck
  split
  · nofun
  · cases hconfig : configOf cipherConfig op with
    | error e => exact fun he => configOf_ne_short (hconfig.trans (Except.error.inj he ▸ rfl))
    | ok c => nofun

section

variable (law : EngineRoom engine need)
include law

theorem cipherUpdate_repeatable
    (h : checkDestParamValid s.op.algorithm src.length destData s.destLen = .error .shortBuffer ∨
      ∀ c ∈ s.op.cryptoCtxt, UpdateFits need level c.raw src.bytes (destRoom destData s.destLen)) :
    Repeatable (cipherUpdate (cryptoHal engine level answers) level src destData) y s := by
  unfold cipherUpdate
  cases src with
  | null k =>
    simp only [ends_steps]
    exact ⟨fun _ => by simp, fun _ => trivial⟩
  | buffer data =>
    simp only [ends_steps, ends_onError]
    refine ⟨fun _ => trivial, fun _ => ⟨fun e he hshort => ?_, fun _ _ => ⟨fun e _ => unchanged_of_short,
      fun _ hdest => ?_⟩⟩⟩
    · exact absurd (hshort ▸ he) cipherCheck_ne_short
    · have hfits := h.resolve_left fun hshort => by cases hshort.symm.trans hdest
      refine (halCall_notShort fun c hc => ?_).never
      exact cipherUpdate_notShort law (hfits c hc)

theorem doCipherFinal_notShort {destLen : Nat}
    (h : ∀ c ∈ s.op.cryptoCtxt, FinalFits need level c.raw data destData destLen) :
    NotShort (doCipherFinal (cryptoHal engine level answers) data destData destLen) s := by
  unfold doCipherFinal
  simp only [ends_steps, ends_always]
  refine (halCall_notShort fun c hc => ?_).imp ?_ fun _ _ he => he
  · exact cipherDofinal_notShort law (h c hc)
  · exact fun _ _ _ => ⟨fun _ => trivial, fun _ => trivial⟩

/-- Only the check of the length refuses it, before anything has changed. -/
theorem cipherDoFinal_refuses
    (h : ∀ n ∈ s.destLen, ∀ length ∈ getCipherDestLen s.op src.length, length ≤ n →
      ∀ c ∈ s.op.cryptoCtxt, FinalFits need level c.raw src.bytes destData n) :
    Ends (cipherDoFinal (cryptoHal engine level answers) level src destData) (fun _ _ => True)
      (fun e t => e = .shortBuffer → ∃ n ∈ s.destLen, ∃ length ∈ getCipherDestLen s.op src.length,
        n < length ∧ t = s.resized (some (if n = 0 then src.length else n))) s := by
  unfold cipherDoFinal checkCipherDestlen
  simp only [ends_steps, ends_onError, id]
  refine ⟨fun _ => by simp, fun _ => ⟨fun _ => by simp, fun n hn => ⟨fun e he hshort => ?_, fun _ _ =>
    ⟨fun _ => by simp, fun length hlength => ⟨fun hlt _ => ?_, fun hle => ?_⟩⟩⟩⟩⟩
  · exact absurd (hshort ▸ he) cipherCheck_ne_short
  · refine ⟨n, hn, length, hlength, hlt, ?_⟩
    by_cases hzero : n = 0
    · rw [if_pos hzero, if_pos hzero]
      show { s with destLen := s.destLen.map fun _ => src.length } = _
      rw [hn]
      rfl
    · rw [if_neg hzero, if_neg hzero, ← hn]
      rfl
  · refine NotShort.never ?_
    exact doCipherFinal_notShort law (h n hn length hlength (not_lt.mp hle))

/-- The length that is given, or the one that is reported instead of 0, is enough. -/
def FinalSpacious (need : σ → HalRequest → Nat) (level : Nat) (s : Local (HalCtx σ)) (src : Ref)
    (destData : Bool) : Prop :=
  ∀ n ∈ s.destLen, ∀ length ∈ getCipherDestLen s.op src.length,
    if n < length then
      n = 0 → src.length ≠ 0 → length ≤ src.length ∧
        ∀ c ∈ s.op.cryptoCtxt, FinalFits need level c.raw src.bytes true src.length
    else ∀ c ∈ s.op.cryptoCtxt, FinalFits need level c.raw src.bytes destData n

instance (need : σ → HalRequest → Nat) (level : Nat) (s : Local (HalCtx σ)) (src : Ref)
    (destData : Bool) : Decidable (FinalSpacious need level s src destData) :=
  by unfold FinalSpacious; infer_instance

theorem cipherDoFinal_repeatable (h : FinalSpacious need level s src destData) :
    Repeatable (cipherDoFinal (cryptoHal engine level answers) level src destData)
      (cipherDoFinal (cryptoHal engine level answers) level src true) s := by
  refine (cipherDoFinal_refuses law fun n hn length hlength hle => ?_).imp (fun _ _ _ => trivial)
    fun e t ht hshort => ?_
  · have hspace := h n hn length hlength
    rw [if_neg (not_lt.mpr hle)] at hspace
    exact hspace
  obtain ⟨n, hn, length, hlength, hlt, rfl⟩ := ht hshort
  refine ⟨_, rfl, fun hne => ?_⟩
  have hspace := h n hn length hlength
  rw [if_pos hlt] at hspace
  -- The length has changed, so it was 0 and the length of the source is reported.
  have hchanged : n = 0 ∧ src.length ≠ 0 := by
    rw [hn] at hne
    by_cases hzero : n = 0
    · refine ⟨hzero, fun hsrc => hne ?_⟩
      rw [if_pos hzero, hzero, hsrc]
    · rw [if_neg hzero] at hne
      exact absurd rfl hne
  obtain ⟨hle, hagain⟩ := hspace hchanged.1 hchanged.2
  rw [if_pos hchanged.1]
  refine (cipherDoFinal_refuses law ?_).imp (fun _ _ _ => trivial) fun e t ht hshort => ?_
  · intro n' hn' length' hlength' _ c hc
    rw [← some.inj hn']
    exact hagain c hc
  · obtain ⟨n', hn', length', hlength', hlt', -⟩ := ht hshort
    rw [← some.inj hn', ← mem_unique hlength hlength'] at hlt'
    exact absurd hlt' (not_lt.mpr hle)

end

/-! ## Authenticated encryption -/

theorem aeConfigOf_ne_short : aeConfigOf op ≠ .error .shortBuffer := by
  unfold aeConfigOf
  split
  · nofun
  · split
    · nofun
    · nofun

theorem aeUpdateCheck_ne_short : aeUpdateCheck op ≠ .error .shortBuffer := by
  unfold aeUpdateCheck
  split
  · nofun
  · cases hconfig : aeConfigOf op with
    | error e => exact fun he => aeConfigOf_ne_short (hconfig.trans (Except.error.inj he ▸ rfl))
    | ok c => nofun

theorem aeUpdate_repeatable (law : EngineRoom engine need)
    (h : ∀ n ∈ s.destLen, src.length ≤ n → ∀ c ∈ s.op.cryptoCtxt,
      Enough need c.raw (.aeUpdate src.bytes n)) :
    Repeatable (aeUpdate (cryptoHal engine level answers) level src destData) y s := by
  unfold aeUpdate
  simp only [ends_steps, ends_onError, id]
  refine ⟨fun _ => by simp, fun n hn => ⟨fun _ => by simp, fun _ => ⟨fun _ => by simp, fun _ =>
    ⟨fun _ _ => unchanged_of_short rfl, fun hle => ⟨fun e he hshort => ?_, fun _ _ =>
      ⟨fun _ => by simp, fun _ => ?_⟩⟩⟩⟩⟩⟩
  · exact absurd (hshort ▸ he) aeUpdateCheck_ne_short
  have hfits := h n hn (not_lt.mp hle)
  constructor
  all_goals
    intro _
    refine (halCall_notShort fun c hc => ?_).never
    exact aeUpdate_notShort law (hfits c hc)

theorem lower_of_clear (h : has op.handleState flagInitialized = false) :
    op.lower flagInitialized = op := by
  have hbit : flagInitialized = BitVec.twoPow 32 17 := by decide
  have hclear : op.handleState &&& flagInitialized = 0#32 := by
    unfold has at h
    rw [beq_eq_false_iff_ne, hbit, BitVec.and_twoPow] at h
    rw [hbit, BitVec.and_twoPow]
    split
    · rename_i hset
      rw [if_pos hset] at h
      exact absurd rfl h
    · rfl
  have hsame : op.handleState &&& ~~~flagInitialized = op.handleState := by
    calc op.handleState &&& ~~~flagInitialized
        = op.handleState &&& ~~~flagInitialized ||| op.handleState &&& flagInitialized := by
          rw [hclear, BitVec.or_zero]
      _ = op.handleState := by
          rw [← BitVec.and_or_distrib_left, BitVec.or_comm, BitVec.or_not_self, BitVec.and_allOnes]
  show { op with handleState := op.handleState &&& ~~~flagInitialized } = op
  rw [hsame]

theorem mallocDestData_room {hal : Hal κ} {s : Local κ} : Ends (mallocDestData hal srcLen)
      (fun room t => t.op = s.op ∧ ∀ c ∈ s.op.cryptoCtxt, room = hal.aeDestSize c.raw srcLen)
      (fun e _ => e ≠ .shortBuffer) s := by
  unfold mallocDestData
  simp only [ends_steps, ends_onError]
  refine ⟨fun _ => by simp, fun c hctx => ⟨fun _ => by simp, fun _ => ?_⟩⟩
  have hsize : ∀ c' ∈ s.op.cryptoCtxt, hal.aeDestSize c.raw srcLen = hal.aeDestSize c'.raw srcLen := by
    intro c' hc'
    rw [mem_unique hctx hc']
  refine ⟨fun hne => ?_, fun _ => ⟨trivial, hsize⟩⟩
  exact ends_malloc hne ⟨rfl, hsize⟩ fun _ => by simp

/-- What the check of the output buffer refuses as too short. -/
def EncryptRefused (level : Nat) (destData : Bool) (srcLen : Nat) : Option Nat → Prop
  | none => False
  | some n =>
    if level < apiLevel111 then destData = true ∧ n ≠ 0 ∧ n < srcLen
    else (destData = false ∧ n = 0) ∨ (destData = true ∧ n < srcLen)

instance (level : Nat) (destData : Bool) (srcLen : Nat) :
    (destLen : Option Nat) → Decidable (EncryptRefused level destData srcLen destLen)
  | none => instDecidableFalse
  | some n => inferInstanceAs (Decidable (if level < apiLevel111 then destData = true ∧ n ≠ 0 ∧ n < srcLen
      else (destData = false ∧ n = 0) ∨ (destData = true ∧ n < srcLen)))

/-- The length that stands in `destLen` after a refusal. -/
def encryptReported (level srcLen : Nat) (destLen : Option Nat) : Option Nat :=
  if level ≥ apiLevel111 ∧ destLen = some 0 then some srcLen else destLen

theorem aeEncryptCheckDestData_refuses {s : Local κ} :
    Ends (aeEncryptCheckDestData level destData srcLen)
      (fun own t => t = s ∧ own = s.destLen.isNone ∧ ¬ EncryptRefused level destData srcLen s.destLen)
      (fun e t => e = .shortBuffer → EncryptRefused level destData srcLen s.destLen ∧
        t = s.resized (encryptReported level srcLen s.destLen)) s := by
  unfold aeEncryptCheckDestData
  simp only [ends_steps]
  obtain ⟨op, answers, destLen, tagLen, clock, released, uses, crashed⟩ := s
  constructor
  · intro hold
    cases destLen with
    | none => simp
    | some n =>
      simp only [ends_steps]
      refine ⟨fun _ => by simp, fun hgiven => ⟨fun hshort _ => ?_, fun hfits => ?_⟩⟩
      · obtain ⟨hdata, hn⟩ := not_or.mp hgiven
        refine ⟨(if_pos hold).mpr ⟨by simpa using hdata, hn, hshort⟩, ?_⟩
        have hkept : encryptReported level srcLen (some n) = some n :=
          if_neg fun h => absurd hold (not_lt.mpr h.1)
        rw [hkept]
        rfl
      · exact ⟨trivial, rfl, fun href => hfits ((if_pos hold).mp href).2.2⟩
  · intro hnew
    cases destLen with
    | none =>
      simp only [ends_steps, ends_fail]
      exact ⟨fun _ => by simp, fun _ => ⟨trivial, rfl, id⟩⟩
    | some n =>
      simp only [ends_steps, ends_fail]
      refine ⟨fun href => ⟨fun hzero _ => ?_, fun hn _ => ?_⟩,
        fun href => ⟨fun _ => ⟨trivial, rfl, fun h => href ((if_neg hnew).mp h)⟩, fun _ => by simp⟩⟩
      · refine ⟨(if_neg hnew).mpr href, ?_⟩
        have hgiven : encryptReported level srcLen (some n) = some srcLen :=
          if_pos ⟨not_lt.mp hnew, congrArg some hzero⟩
        rw [hgiven]
        rfl
      · refine ⟨(if_neg hnew).mpr href, ?_⟩
        have hkept : encryptReported level srcLen (some n) = some n :=
          if_neg fun h => hn (some.inj h.2)
        rw [hkept]
        rfl

variable (law : EngineRoom engine need)
include law

theorem aeEncryptHal_notShort (h : ∀ c ∈ s.op.cryptoCtxt, EncFits need c.raw data room tagLen) :
    NotShort (aeEncryptHal (cryptoHal engine level answers) data room tagLen keep) s := by
  unfold aeEncryptHal
  simp only [ends_steps, ends_always]
  refine (halCall_notShort fun c hc => ?_).imp (fun _ _ _ => trivial) fun _ _ he => he
  exact aeEncFinal_notShort law (h c hc)

/-- The room that the final call of an encryption or decryption gives the layers below. -/
def HalCtx.finalRoom (c : HalCtx σ) (destLen : Option Nat) (srcLen : Nat) : Nat :=
  destLen.getD (c.mallocSize srcLen)

/-- A refusal finds the flag lowered and reports a length that is enough, and a length that is
not refused is enough for the layers below. -/
def EncryptSpacious (need : σ → HalRequest → Nat) (level : Nat) (s : Local (HalCtx σ)) (src : Ref)
    (destData : Bool) : Prop :=
  ∀ tagLen ∈ s.tagLen,
    if EncryptRefused level destData src.length s.destLen then
      has s.op.handleState flagInitialized = false ∧
        (level ≥ apiLevel111 → s.destLen = some 0 → src.length ≠ 0 →
          ∀ c ∈ s.op.cryptoCtxt, EncFits need c.raw src.bytes src.length tagLen)
    else ∀ c ∈ s.op.cryptoCtxt,
      EncFits need c.raw src.bytes (c.raw.finalRoom s.destLen src.length) tagLen

/-- Behind the check of the buffer. -/
theorem aeEncryptRoom_notShort {own : Bool} {destLen : Option Nat} (hown : own = destLen.isNone)
    (h : ∀ c ∈ s.op.cryptoCtxt, EncFits need c.raw data (c.raw.finalRoom destLen srcLen) tagLen) :
    NotShort (do
      let room ← if own then mallocDestData (cryptoHal engine level answers) srcLen
        else pure (destLen.getD 0)
      aeEncryptHal (cryptoHal engine level answers) data room tagLen keep) s := by
  cases destLen with
  | none =>
    rw [hown]
    simp only [isNone_none, if_true, ends_bind]
    refine mallocDestData_room.imp ?_ fun _ _ he => he
    intro room t ht
    refine aeEncryptHal_notShort law fun c hc => ?_
    rw [ht.1] at hc
    rw [ht.2 c hc]
    exact h c hc
  | some n =>
    rw [hown]
    exact aeEncryptHal_notShort law h

/-- Only the check of the buffer refuses it; the flag has been lowered by then. -/
theorem aeEncryptFinal_refuses
    (h : ∀ tagLen ∈ s.tagLen, ¬ EncryptRefused level destData src.length s.destLen →
      ∀ c ∈ s.op.cryptoCtxt, EncFits need c.raw src.bytes (c.raw.finalRoom s.destLen src.length) tagLen) :
    Ends (aeEncryptFinal (cryptoHal engine level answers) level src destData tag) (fun _ _ => True)
      (fun e t => e = .shortBuffer → s.tagLen ≠ none ∧
        EncryptRefused level destData src.length s.destLen ∧
        t = (s.update (Operation.lower flagInitialized)).resized
          (encryptReported level src.length s.destLen)) s := by
  unfold aeEncryptFinal
  rw [ends_bind, ends_reads]
  rw [ends_bind, ends_failIf]
  refine ⟨fun _ => nofun, fun _ => ?_⟩
  rw [ends_bind, ends_get?]
  refine ⟨fun _ => nofun, fun tagLen htag => ?_⟩
  rw [ends_bind, ends_failIf]
  refine ⟨fun _ => nofun, fun _ => ?_⟩
  rw [ends_bind, ends_ofExcept]
  refine ⟨fun e he hshort => absurd (hshort ▸ he) aeUpdateCheck_ne_short, fun _ _ => ?_⟩
  rw [ends_bind, ends_change, ends_bind]
  refine aeEncryptCheckDestData_refuses.imp ?_ fun e t ht hshort => ⟨htag ▸ nofun, ht hshort⟩
  rintro own t ⟨rfl, hown, haccepted⟩
  refine NotShort.never ?_
  exact aeEncryptRoom_notShort law hown (h tagLen htag haccepted)

theorem aeEncryptFinal_repeatable (h : EncryptSpacious need level s src destData) :
    Repeatable (aeEncryptFinal (cryptoHal engine level answers) level src destData tag)
      (aeEncryptFinal (cryptoHal engine level answers) level src true tag) s := by
  refine (aeEncryptFinal_refuses law fun tagLen htag haccepted => ?_).imp (fun _ _ _ => trivial)
    fun e t ht hshort => ?_
  · have hspace := h tagLen htag
    rw [if_neg haccepted] at hspace
    exact hspace
  obtain ⟨htag, hrefused, rfl⟩ := ht hshort
  obtain ⟨tagLen, htag⟩ := ne_none_iff_exists'.mp htag
  have hspace := h tagLen htag
  rw [if_pos hrefused] at hspace
  obtain ⟨hclear, hagain⟩ := hspace
  have hlow : s.update (lower flagInitialized) = s := by
    show { s with op := s.op.lower flagInitialized } = s
    rw [lower_of_clear hclear]
  rw [hlow]
  refine ⟨_, rfl, fun hne => ?_⟩
  have hchanged : level ≥ apiLevel111 ∧ s.destLen = some 0 := by
    unfold encryptReported at hne
    by_contra hcond
    rw [if_neg hcond] at hne
    exact hne rfl
  have hreported : encryptReported level src.length s.destLen = some src.length := if_pos hchanged
  rw [hreported] at hne ⊢
  have hsrc : src.length ≠ 0 := fun hsrc => hne (by rw [hchanged.2, hsrc])
  refine (aeEncryptFinal_refuses law ?_).imp (fun _ _ _ => trivial) fun e t ht hshort => ?_
  · intro tagLen' htag' _ c hc
    rw [← mem_unique htag htag']
    exact hagain hchanged.1 hchanged.2 hsrc c hc
  · -- With a buffer of the reported length the check finds nothing to refuse.
    have hagain := (if_neg (not_lt.mpr hchanged.1)).mp (ht hshort).2.1
    rcases hagain with hdata | hlt
    · exact absurd hdata.1 nofun
    · exact absurd hlt.2 (lt_irrefl _)

theorem aeDecryptHal_notShort {tag : Block}
    (h : ∀ c ∈ s.op.cryptoCtxt, DecFits need c.raw data tag room) :
    NotShort (aeDecryptHal (cryptoHal engine level answers) data tag room keep) s := by
  unfold aeDecryptHal
  simp only [ends_steps, ends_always]
  refine (halCall_notShort fun c hc => ?_).imp (fun _ _ _ => trivial) fun _ _ he => he
  exact aeDecFinal_notShort law (h c hc)

/-- In the same way for a decryption, which reports no length. -/
def DecryptSpacious (need : σ → HalRequest → Nat) (level : Nat) (s : Local (HalCtx σ)) (src tag : Ref) :
    Prop :=
  ∀ n ∈ s.destLen,
    if n = 0 ∧ level > apiLevel10 then
      ∀ c ∈ s.op.cryptoCtxt, DecFits need c.raw src.bytes tag.bytes (c.raw.mallocSize src.length)
    else if n < src.length then has s.op.handleState flagInitialized = false
    else ∀ c ∈ s.op.cryptoCtxt, DecFits need c.raw src.bytes tag.bytes n

theorem aeDecryptFinal_repeatable {tag : Ref} (h : DecryptSpacious need level s src tag) :
    Repeatable (aeDecryptFinal (cryptoHal engine level answers) level src destData tag) y s := by
  unfold aeDecryptFinal
  simp only [ends_bind, ends_reads, ends_get?, ends_failIf, ends_ofExcept, ends_change, id]
  refine ⟨fun _ => by simp, fun n hn => ⟨fun _ => by simp, fun _ => ⟨fun _ => by simp, fun _ =>
    ⟨fun e he hshort => absurd (hshort ▸ he) aeUpdateCheck_ne_short, fun _ _ => ?_⟩⟩⟩⟩
  have hspace := h n hn
  by_cases hown : n = 0 ∧ level > apiLevel10
  · rw [if_pos hown] at hspace
    simp only [decide_eq_true hown, if_true, ends_bind]
    refine mallocDestData_room.imp ?_ fun e t he hshort => absurd hshort he
    intro room t ht
    refine (aeDecryptHal_notShort law fun c hc => ?_).never
    rw [ht.1] at hc
    rw [ht.2 c hc]
    exact hspace c hc
  · rw [if_neg hown] at hspace
    simp only [ends_steps, decide_eq_false hown, Bool.false_eq_true, if_false]
    refine ⟨fun hlt _ => ?_, fun hle => ?_⟩
    · rw [if_pos hlt] at hspace
      refine ⟨s.destLen, ?_, fun hne => absurd rfl hne⟩
      show { s with op := s.op.lower flagInitialized } = s
      rw [lower_of_clear hspace]
    · rw [if_neg hle] at hspace
      refine NotShort.never ?_
      exact aeDecryptHal_notShort law hspace

end

/-! ## The calls -/

/-- The first check refuses the length before anything is used up, or it is enough for the
layers below; and a length that is reported instead is enough. -/
def OutputCall.Spacious (need : σ → HalRequest → Nat) (level : Nat) (s : Local (HalCtx σ)) :
    OutputCall → Prop
  | .cipherUpdate src destData =>
    checkDestParamValid s.op.algorithm src.length destData s.destLen = .error .shortBuffer ∨
      ∀ c ∈ s.op.cryptoCtxt, UpdateFits need level c.raw src.bytes (destRoom destData s.destLen)
  | .cipherDoFinal src destData => FinalSpacious need level s src destData
  | .aeUpdate src _ =>
    ∀ n ∈ s.destLen, src.length ≤ n → ∀ c ∈ s.op.cryptoCtxt, Enough need c.raw (.aeUpdate src.bytes n)
  | .aeEncryptFinal src destData _ => EncryptSpacious need level s src destData
  | .aeDecryptFinal src _ tag => DecryptSpacious need level s src tag

theorem Repeatable.paired {x y : Call κ Block} (h : Repeatable x y s) :
    Repeatable (do return (← x, ([] : Block))) (do return (← y, ([] : Block))) s := by
  show Ends (x >>= fun out => pure (out, [])) _ _ s
  rw [ends_bind]
  refine h.imp (fun _ _ _ => trivial) fun e t ht hshort => ?_
  obtain ⟨d, hd, hnot⟩ := ht hshort
  refine ⟨d, hd, fun hne => ?_⟩
  show Ends (y >>= fun out => pure (out, [])) _ _ t
  rw [ends_bind]
  exact (hnot hne).imp (fun _ _ _ => trivial) fun _ _ he => he

/-- A call that answers that its buffer is too short has changed nothing but the length, and
where it has changed that, the length is enough. -/
theorem short_buffer_harmless (engine : Engine σ) (need : σ → HalRequest → Nat)
    (law : EngineRoom engine need) (level : Nat) (answers : List Bool) (s : Local (HalCtx σ))
    (call : OutputCall) (hspace : call.Spacious need level s)
    (hshort : (call.run (cryptoHal engine level answers) level s).1 = .error .shortBuffer) :
    Harmless (call.run (cryptoHal engine level answers) level)
      (call.withBuffer.run (cryptoHal engine level answers) level) s := by
  refine Repeatable.harmless ?_ hshort
  cases call with
  | cipherUpdate src destData => exact (cipherUpdate_repeatable law hspace).paired
  | cipherDoFinal src destData => exact (cipherDoFinal_repeatable law hspace).paired
  | aeUpdate src destData => exact (aeUpdate_repeatable law hspace).paired
  | aeEncryptFinal src destData tag => exact aeEncryptFinal_repeatable law hspace
  | aeDecryptFinal src destData tag => exact (aeDecryptFinal_repeatable law hspace).paired

/-- What a handle of a TA gives a call. -/
def State.entered (s : State κ) (h : Nat) (env : Surroundings κ) : Option (Local κ) :=
  s.handles[h]?.map fun op => s.enter op env

def HalRequest.input : HalRequest → Block
  | .cipherUpdate data _ | .cipherDoFinal data _ _ | .hmacUpdate data | .aeUpdateAad data
  | .aeUpdate data _ | .aeEncFinal data _ _ | .aeDecFinal data _ _ => data
  | .hmacDoFinal data _ => data.bytes

/-- A driver that gives back what it is given, if there is room for it. -/
def echo : Engine Unit where
  init _ := some ()
  call _ req :=
    (if req.room < req.input.length then .error .shortBuffer
      else .ok ⟨req.input, req.input.length, []⟩, ())
  copy _ := .ok ()
  driverCache _ := false

theorem echo_call (st : Unit) (req : HalRequest) :
    (echo.call st req).1 = if req.room < req.input.length then .error .shortBuffer
      else .ok ⟨req.input, req.input.length, []⟩ := rfl

theorem echo_room : EngineRoom echo fun _ req => req.input.length where
  short st req h := by
    by_contra hroom
    rw [echo_call, if_neg hroom] at h
    cases h
  size st data dest room reply h := by
    rw [echo_call] at h
    by_cases hroom : HalRequest.room (.cipherDoFinal data dest room) <
        (HalRequest.input (.cipherDoFinal data dest room)).length
    · rw [if_pos hroom] at h
      cases h
    · rw [if_neg hroom] at h
      cases h
      exact not_lt.mp hroom

def echoHal : Hal (HalCtx Unit) := cryptoHal echo apiLevel111 []
def echoTa : Ta (HalCtx Unit) := ⟨apiLevel111, fun _ => 0, pure ()⟩
def roomFor (n : Nat) : Surroundings (HalCtx Unit) := ⟨some n, some 16, [], echoHal⟩

/-- A cipher is started and given ten bytes, which are kept back. -/
def started (alg : Word) : List (Event (HalCtx Unit)) := [
  .allocate alg .encrypt 128, .call 0 (.setOperationKey (some (gcmKey keyA))) (roomFor 0),
  .call 0 (.cipherInit (.buffer keyA)) (roomFor 0),
  .call 0 (.cipherUpdate (.buffer (List.replicate 10 7)) true) (roomFor 16)]

def tenBytes : Ref := .buffer (List.replicate 10 8)
def wholeBlock : Ref := .buffer keyB

/-- The same up to the bytes. -/
def opened (alg : Word) : List (Event (HalCtx Unit)) := (started alg).take 3

/-- An AE operation that has been given a part of its message. -/
def partway : List (Event (HalCtx Unit)) := [
  .allocate algAesGcm .encrypt 128, .call 0 (.setOperationKey (some (gcmKey keyA))) (roomFor 0),
  .call 0 (.aeInit gcmNonce 128 0 0) (roomFor 0), .call 0 (.aeUpdate message true) (roomFor 16)]

abbrev OutputCall.echoed (call : OutputCall) : Call (HalCtx Unit) (Block × Block) :=
  call.run echoHal apiLevel111

/-- A length of 0 is answered by the length of the block, which is then enough. -/
theorem short_buffer_harmless_final : ∃ s ∈ (runs echoTa (opened algAesCbcNopad)).entered 0 (roomFor 0),
    (echoed (.cipherDoFinal wholeBlock true) s).1 = .error .shortBuffer ∧
      (echoed (.cipherDoFinal wholeBlock true) s).2.destLen = some 16 ∧
      Harmless (echoed (.cipherDoFinal wholeBlock true))
        (echoed (.cipherDoFinal wholeBlock true)) s := by
  refine ⟨((runs echoTa (opened algAesCbcNopad)).entered 0 (roomFor 0)).get (by decide +kernel),
    get_mem _, by decide +kernel, by decide +kernel, ?_⟩
  exact short_buffer_harmless echo (fun _ req => req.input.length) echo_room apiLevel111 [] _
    (.cipherDoFinal wholeBlock true) (show FinalSpacious _ _ _ wholeBlock true by decide +kernel)
    (by decide +kernel)

/-- With ten bytes kept back, ten more have no room in ten bytes, and the cipher is no longer
initialized; the length that is reported for a padded block is too short; and an AE operation
that has begun is no longer initialized. -/
theorem short_buffer_not_harmless :
    (∃ s ∈ (runs echoTa (started algAesCbcNopad)).entered 0 (roomFor 10),
      (echoed (.cipherUpdate tenBytes true) s).1 = .error .shortBuffer ∧
        ¬ Harmless (echoed (.cipherUpdate tenBytes true))
          (echoed (.cipherUpdate tenBytes true)) s) ∧
    (∃ s ∈ (runs echoTa (opened algAesCbcPkcs5)).entered 0 (roomFor 0),
      (echoed (.cipherDoFinal wholeBlock true) s).1 = .error .shortBuffer ∧
        ¬ Harmless (echoed (.cipherDoFinal wholeBlock true))
          (echoed (.cipherDoFinal wholeBlock true)) s) ∧
    (∃ s ∈ (runs echoTa partway).entered 0 (roomFor 2),
      (echoed (.aeEncryptFinal message true true) s).1 = .error .shortBuffer ∧
        ¬ Harmless (echoed (.aeEncryptFinal message true true))
          (echoed (.aeEncryptFinal message true true)) s) := by
  refine ⟨⟨((runs echoTa (started algAesCbcNopad)).entered 0 (roomFor 10)).get (by decide +kernel),
      get_mem _, by decide +kernel, fun h => ?_⟩,
    ⟨((runs echoTa (opened algAesCbcPkcs5)).entered 0 (roomFor 0)).get (by decide +kernel),
      get_mem _, by decide +kernel, fun h => ?_⟩,
    ⟨((runs echoTa partway).entered 0 (roomFor 2)).get (by decide +kernel),
      get_mem _, by decide +kernel, fun h => ?_⟩⟩
  · exact absurd (congrArg handleState h.kept) (by decide +kernel)
  · exact h.truthful (by decide +kernel) (by decide +kernel)
  · exact absurd (congrArg handleState h.kept) (by decide +kernel)

end TeeOs.Crypto
