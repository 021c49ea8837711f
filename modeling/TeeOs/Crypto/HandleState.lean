import TeeOs.Crypto.HandleCalls

/-!
# The handles of a TA stay consistent

The flags, keys and contexts of all handles agree after every sequence of calls whose steps
keep to the following: an AE handle gets a new key only while it has no context and is used
only while it has one; a context for an HMAC is made when it is asked for; a copy to a handle
that has a key succeeds; and the two keys of XTS are not too long for the computation of their
size.
-/

namespace TeeOs.Crypto

open TeeOs.Lib List

variable {κ : Type}

/-! ## Steps -/

/-- The condition on a call on a handle. -/
def CallOk (hal : Hal κ) (op : Operation κ) : Request → Prop
  | .setOperationKey _ => AeIdle op
  | .setOperationKey2 key1 key2 =>
    (∀ k ∈ key1, Short k .symmetric) ∧ ∀ k ∈ key2, Short k .symmetric
  | .macInit _ => HmacMade hal op
  | .aeUpdateAad _ | .aeUpdate .. | .aeEncryptFinal .. | .aeDecryptFinal .. => AeMade op
  | _ => True

/-- The condition on a step, which looks at the handles before it. -/
def StepOk (s : State κ) : Event κ → Prop
  | .allocate .. => True
  | .call h req env => ∀ op ∈ s.handles[h]?, CallOk env.hal op req
  | .copy dst src env =>
    ∀ dstOp ∈ s.handles[dst]?, ∀ srcOp ∈ s.handles[src]?, CopyDone env.hal (s.enter dstOp env) srcOp

variable {level now h : Nat} {s : Local κ} {op : Operation κ} {mode : Mode} {alg : Word}
  {P : Local κ → Prop} {req : Request}

/-- How a call ends: with a sound handle, and a key that is reported is stored. -/
theorem run_ends {n : Nat} {gen : Call κ Unit} {hal : Hal κ} (h : Safe n s)
    (hl : level ≥ apiLevel111) (hok : CallOk hal s.op req) :
    Ends (req.run gen level hal)
      (fun _ t => Safe n t ∧ ∀ asked, req.asked = some asked → (t.op.keyValue, t.op.keyValue2) = asked)
      (fun _ t => Safe n t) s := by
  -- calls that do not set a key
  have hother : ∀ {α : Type} (x : Call κ α), req.asked = none → Keeps n x s →
      Ends x (fun _ t => Safe n t ∧
        ∀ asked, req.asked = some asked → (t.op.keyValue, t.op.keyValue2) = asked)
        (fun _ t => Safe n t) s := by
    intro α x hnone hx
    exact hx.imp (fun _ t ht => ⟨ht, fun asked hasked => absurd (hnone.symm.trans hasked) nofun⟩)
      fun _ t ht => ht
  cases req with
  | setOperationKey key =>
    refine (setOperationKey_keeps hl h hok).imp (fun _ t ht => ⟨ht.1, ?_⟩) fun _ _ ht => ht
    rintro _ ⟨⟩
    exact ht.2
  | setOperationKey2 key1 key2 =>
    have hshort : ∀ k, key1 = some k ∨ key2 = some k → Short k .symmetric := by
      intro k hk
      rcases hk with hk | hk
      · exact hok.1 k hk
      · exact hok.2 k hk
    refine (setOperationKey2_keeps hl h hshort).imp (fun _ t ht => ⟨ht.1, ?_⟩) fun _ _ ht => ht
    rintro _ ⟨⟩
    exact ht.2
  | resetOperation => exact hother _ rfl (resetOperation_keeps h)
  | cipherInit iv => exact hother _ rfl (cipherInit_keeps h hl)
  | cipherUpdate src destData =>
    exact (ends_bind _ _).mpr (hother _ rfl (cipherUpdate_keeps h hl))
  | cipherDoFinal src destData => exact (ends_bind _ _).mpr (hother _ rfl (cipherDoFinal_keeps h hl))
  | macInit iv => exact hother _ rfl (macInit_keeps h hl hok)
  | macUpdate chunk => exact hother _ rfl (macUpdate_keeps h hl)
  | macComputeFinal message mac =>
    exact (ends_bind _ _).mpr (hother _ rfl (macComputeFinal_keeps h hl))
  | macCompareFinal message mac => exact hother _ rfl (macCompareFinal_keeps h hl)
  | aeInit nonce tagLen aadLen payloadLen => exact hother _ rfl (aeInit_keeps h hl)
  | aeUpdateAad aad => exact hother _ rfl (aeUpdateAad_keeps h hok)
  | aeUpdate src destData => exact (ends_bind _ _).mpr (hother _ rfl (aeUpdate_keeps h hok))
  | aeEncryptFinal src destData tag =>
    exact (ends_bind _ _).mpr (hother _ rfl (aeEncryptFinal_keeps h hok))
  | aeDecryptFinal src destData tag =>
    exact (ends_bind _ _).mpr (hother _ rfl (aeDecryptFinal_keeps h hok))

/-! ## Runs -/

structure Invariant (s : State κ) : Prop where
  handles : ∀ op ∈ s.handles, Sound s.clock op
  uses : ∀ u ∈ s.uses, u.Proper
  reports : ∀ r ∈ s.reports, r.kept = r.asked
  noNull : s.crashed = false

theorem Sound.later {now' : Nat} (h : Sound now op) (hle : now ≤ now') : Sound now' op :=
  { h with past := fun hset => Nat.lt_of_lt_of_le (h.past hset) hle }

theorem Invariant.enter {s : State κ} (hs : Invariant s)
    (hop : s.handles[h]? = some op) (env : Surroundings κ) : Safe s.clock (s.enter op env) :=
  ⟨hs.handles op (mem_of_getElem? hop), hs.uses, hs.noNull, Nat.le_refl _⟩

theorem Invariant.leave {s : State κ} {t : Local κ} (hs : Invariant s)
    (ht : Safe s.clock t) : Invariant (s.leave h t) := by
  refine ⟨fun op hop => ?_, ht.uses, hs.reports, ht.noNull⟩
  rcases mem_or_eq_of_mem_set hop with hold | rfl
  · exact (hs.handles op hold).later ht.clock
  · exact ht.op

theorem Ends.state {α : Type} {x : Call κ α} (h : Ends x (fun _ t => P t) (fun _ t => P t) s) :
    P (x s).2 := by
  unfold Ends at h
  generalize x s = r at h ⊢
  obtain ⟨e | a, t⟩ := r
  · exact h
  · exact h

theorem reportOf_kept {x : Call κ Unit}
    (h : Ends x (fun _ t => P t ∧ ∀ asked, req.asked = some asked →
      (t.op.keyValue, t.op.keyValue2) = asked) (fun _ t => P t) s) :
    ∀ r ∈ reportOf req (x s), r.kept = r.asked := by
  unfold Ends at h
  generalize x s = r at h ⊢
  obtain ⟨e | a, t⟩ := r
  · exact nofun
  intro r hr
  unfold reportOf at hr
  cases hasked : req.asked with
  | none => simp only [hasked, not_mem_nil] at hr
  | some asked =>
    simp only [hasked, mem_singleton] at hr
    subst hr
    exact h.2 asked hasked

/-! ## New handles -/

/-- Neither mark is set, and there is no key and no context. -/
structure Unused (op : Operation κ) : Prop where
  keySet : has op.handleState flagKeySet = false
  initialized : has op.handleState flagInitialized = false
  noKey : op.NoKey
  noCtx : op.cryptoCtxt = none

theorem fresh_flags : has 0#32 flagKeySet = false ∧ has 0#32 flagInitialized = false := by decide

theorem twoKeys_flags : has (0#32 ||| flagExpectTwoKeys) flagKeySet = false ∧
    has (0#32 ||| flagExpectTwoKeys) flagInitialized = false := by decide

theorem checkEncDec_unused (h : checkEncDecAlgValid level alg mode freshOperation = .ok op) :
    Unused op := by
  unfold checkEncDecAlgValid at h
  by_cases hvalid : cryptoCheckAlgValid alg .encrypt
  · rw [if_pos hvalid] at h
    by_cases halg : alg = algAesXts
    · simp only [if_pos halg] at h
      cases h
      exact ⟨twoKeys_flags.1, twoKeys_flags.2, ⟨rfl, rfl, rfl, rfl⟩, rfl⟩
    · simp only [if_neg halg] at h
      cases h
      exact ⟨fresh_flags.1, fresh_flags.2, ⟨rfl, rfl, rfl, rfl⟩, rfl⟩
  · rw [if_neg hvalid] at h
    cases h

theorem checkAlgorithmValid_unused (hmode : mode ≠ .digest)
    (h : checkAlgorithmValid level mode alg freshOperation = .ok op) : Unused op := by
  cases mode with
  | digest => exact absurd rfl hmode
  | unknown => cases h
  | encrypt | decrypt => exact checkEncDec_unused h
  | sign | verify | mac | derive =>
    simp only [checkAlgorithmValid, checkSignVerifyAlgValid, checkMacAlgValid, checkDeriveAlgValid] at h
    split at h
    · cases h
      exact ⟨fresh_flags.1, fresh_flags.2, ⟨rfl, rfl, rfl, rfl⟩, rfl⟩
    · cases h

theorem digest_not_symmetric :
    ∀ c ∈ algConfig, c.mode = .digest → cryptoGetOpClass c.alg ∉ symmetricClasses := by
  decide +kernel

theorem xts_not_ae : cryptoGetOpClass algAesXts ≠ .ae := by decide

theorem Unused.sound (h : Unused op) (hsym : Symmetric op)
    (hmax : op.maxKeySize ≤ maxKeySizeInBits) (hhal : op.halInfo ≠ none) : Sound now op := by
  obtain ⟨hset, hinit, ⟨hvalue, hvalue2, hpair⟩, hctx⟩ := h
  refine ⟨⟨?_, fun _ => hvalue, ?_, hpair, ?_, ?_⟩, ?_, ?_, hsym, hmax, ?_, hhal⟩
  · exact fun hs => absurd (hset.symm.trans hs) nofun
  · exact ⟨fun hne => absurd hvalue2 hne, fun hne => absurd hvalue hne.2⟩
  · exact fun b hb => absurd (hvalue.symm.trans hb) nofun
  · exact fun b hb => absurd (hvalue2.symm.trans hb) nofun
  · exact fun hready => absurd (hinit.symm.trans hready) nofun
  · exact fun _ c hc => absurd (hctx.symm.trans hc) nofun
  · exact fun hs => absurd (hset.symm.trans hs) nofun

theorem allocate_sound {maxKeySize : Nat} {engine : Word → Nat} (hl : level ≥ apiLevel111)
    (h : allocateOperation level engine alg mode maxKeySize = .ok op)
    (hclass : op.operationClass ∈ symmetricClasses) : Sound now op := by
  have hallocated := allocated_of_ok hl h
  obtain ⟨_, -, h⟩ := Act.ok_of_bind h
  obtain ⟨op', hvalid, h⟩ := Act.ok_of_bind h
  cases h
  have hmode : mode ≠ .digest := by
    rintro rfl
    obtain ⟨c, hc, halg, hdigest⟩ := mem_algConfig hallocated.valid
    exact digest_not_symmetric c hc hdigest (halg ▸ hclass)
  have hunused := checkAlgorithmValid_unused hmode hvalid
  have hxts : cryptoGetOpClass alg = .ae → alg ≠ algAesXts := by
    rintro hae rfl
    exact xts_not_ae hae
  exact Unused.sound { hunused with } ⟨hclass, hxts⟩ hallocated.size nofun

theorem step_invariant {ta : Ta κ} (hl : ta.level ≥ apiLevel111) (s : State κ) (e : Event κ)
    (hs : Invariant s) (hok : StepOk s e) : Invariant (step ta s e) := by
  cases e with
  | allocate alg mode maxKeySize =>
    simp only [step]
    split
    · exact hs
    · next op hop =>
      split
      · next hclass =>
        refine { hs with handles := fun op' hmem => ?_ }
        rcases mem_append.mp hmem with hold | hnew
        · exact hs.handles op' hold
        · obtain rfl := mem_singleton.mp hnew
          exact allocate_sound hl hop hclass
      · exact hs
  | call h req env =>
    simp only [step]
    split
    · exact hs
    · next op hop =>
      have hends : Ends (req.run ta.gen ta.level env.hal) _ _ (s.enter op env) :=
        run_ends (hs.enter hop env) hl (hok op hop)
      have hsafe := Ends.state (hends.imp (fun _ _ ht => ht.1) fun _ _ ht => ht)
      have hleft := hs.leave (h := h) hsafe
      refine { hleft with reports := fun r hr => ?_ }
      rcases mem_append.mp hr with hold | hnew
      · exact hs.reports r hold
      · exact reportOf_kept hends r hnew
  | copy dst src env =>
    simp only [step]
    split
    · exact hs
    split
    · next dstOp srcOp hdst hsrc =>
      have hentered := hs.enter hdst env
      have hsound : Sound (s.enter dstOp env).clock srcOp :=
        hs.handles srcOp (mem_of_getElem? hsrc)
      exact hs.leave (Ends.state (copyOperation_keeps hentered hsound (hok dstOp hdst srcOp hsrc)))
    · exact hs

theorem Invariant.consistent {s : State κ} (h : Invariant s) : Consistent s := by
  refine ⟨?_, ?_, ?_, h.uses, h.reports, h.noNull⟩
  · intro op hop hset
    have hkeys := (h.handles op hop).keys
    exact ⟨hkeys.set hset, fun halg => hkeys.second.mpr ⟨halg, hkeys.set hset⟩⟩
  · intro op hop hclear
    have hkeys := (h.handles op hop).keys
    have hvalue := hkeys.clear hclear
    refine ⟨hvalue, ?_, hkeys.noPair⟩
    by_contra hne
    exact (hkeys.second.mp hne).2 hvalue
  · exact fun op hop hinit => ((h.handles op hop).ready hinit).2.1

/-- After every run of a TA whose steps keep to the condition, flags, keys and contexts of the
handles agree, the hardware layer was only given contexts of the stored key, each key that was
reported as stored is, and no null pointer was followed. -/
theorem handles_consistent (ta : Ta κ) (hl : ta.level ≥ apiLevel111) (es : List (Event κ))
    (hok : Runs.Along (step ta) StepOk State.init es) : Consistent (runs ta es) := by
  have hinit : Invariant (State.init : State κ) :=
    ⟨fun _ hop => absurd hop not_mem_nil, nofun,
      nofun, rfl⟩
  exact (Runs.invariant_run (step_invariant hl) hinit hok).consistent

/-! ## Sessions -/

instance (key : KeyObject) (type : OpType) : Decidable (Short key type) :=
  by unfold Short; infer_instance

instance (op : Operation κ) : Decidable (AeIdle op) :=
  by unfold AeIdle; infer_instance

instance (op : Operation κ) : Decidable (AeMade op) :=
  by unfold AeMade; infer_instance

instance (hal : Hal κ) (op : Operation κ) : Decidable (HmacMade hal op) :=
  by unfold HmacMade; infer_instance

instance (hal : Hal κ) (s : Local κ) (src : Operation κ) : Decidable (CopyDone hal s src) :=
  by unfold CopyDone CopySucceeds Granted; infer_instance

instance (hal : Hal κ) (op : Operation κ) : (req : Request) → Decidable (CallOk hal op req)
  | .setOperationKey _ => inferInstanceAs (Decidable (AeIdle op))
  | .setOperationKey2 key1 key2 =>
    inferInstanceAs (Decidable ((∀ k ∈ key1, Short k .symmetric) ∧ ∀ k ∈ key2, Short k .symmetric))
  | .macInit _ => inferInstanceAs (Decidable (HmacMade hal op))
  | .aeUpdateAad _ | .aeUpdate .. | .aeEncryptFinal .. | .aeDecryptFinal .. =>
    inferInstanceAs (Decidable (AeMade op))
  | .resetOperation | .cipherInit _ | .cipherUpdate .. | .cipherDoFinal .. | .macUpdate _
  | .macComputeFinal .. | .macCompareFinal .. | .aeInit .. => .isTrue trivial

instance (s : State κ) : (e : Event κ) → Decidable (StepOk s e)
  | .allocate .. => .isTrue trivial
  | .call h req env => inferInstanceAs (Decidable (∀ op ∈ s.handles[h]?, CallOk env.hal op req))
  | .copy dst src env =>
    inferInstanceAs (Decidable (∀ dstOp ∈ s.handles[dst]?, ∀ srcOp ∈ s.handles[src]?,
      CopyDone env.hal (s.enter dstOp env) srcOp))

instance (u : Use κ) : Decidable u.Proper :=
  match h : u.ctx with
  | none => .isFalse fun ⟨_, hc, _⟩ => nomatch h.symm.trans hc
  | some c =>
    decidable_of_iff (c.madeFrom = u.key ∧ u.keyAt < c.madeAt)
      ⟨fun hc => ⟨c, h, hc⟩, fun ⟨_, hc', hmade⟩ => Option.mem_unique h hc' ▸ hmade⟩

instance (op : Operation κ) : Decidable op.HasKey := instDecidableAnd

/-- A hardware layer that does what it is asked for. -/
def steadyHal : Hal Unit where
  init _ := some ()
  call _ _ := ⟨.ok ⟨[], 0, []⟩, (), []⟩
  copy _ := (.ok (), [])
  free _ := []
  aeDestSize _ n := n + 256

/-- One that makes no context. -/
def failingHal : Hal Unit := { steadyHal with init := fun _ => none }

def sampleTa : Ta Unit := ⟨apiLevel111, fun _ => 0, pure ()⟩

def sampleKey (type usage : Word) (bytes : Block) : KeyObject where
  listed := true
  objectInfo := some ⟨type, usage, flagInitialized⟩
  attributes := some ⟨⟨0xC0000000#32, .buffer bytes⟩, [], 1⟩
  crtMode := false

def keyA : Block := List.replicate 16 1
def keyB : Block := List.replicate 16 2

def gcmKey (bytes : Block) : KeyObject := sampleKey typeAes usageEncrypt bytes
def hmacKey : KeyObject := sampleKey typeHmacSha256 usageMac (List.replicate 32 3)

/-- A call with memory, a steady hardware layer and room for 16 bytes. -/
def ask (h : Nat) (req : Request) : Event Unit := .call h req ⟨some 16, some 16, [], steadyHal⟩

def gcmNonce : Ref := .buffer (List.replicate 12 0)
def message : Ref := .buffer [1, 2, 3]

/-- An AE, a MAC and an XTS handle in use, with a new key for the first and a copy. -/
def session : List (Event Unit) := [
  .allocate algAesGcm .encrypt 128, .allocate algHmacSha256 .mac 256, .allocate algAesXts .encrypt 128,
  .allocate algAesGcm .encrypt 128,
  ask 0 (.setOperationKey (some (gcmKey keyA))), ask 0 (.aeInit gcmNonce 128 0 0),
  ask 0 (.aeUpdate message true), .copy 3 0 ⟨none, none, [], steadyHal⟩, ask 0 .resetOperation,
  ask 0 (.setOperationKey (some (gcmKey keyB))), ask 0 (.aeInit gcmNonce 128 0 0),
  ask 0 (.aeEncryptFinal message true true), ask 3 (.aeEncryptFinal message true true),
  ask 1 (.setOperationKey (some hmacKey)), ask 1 (.macInit (.null 0)), ask 1 (.macUpdate message),
  ask 2 (.setOperationKey2 (some (gcmKey keyA)) (some (gcmKey keyB))),
  ask 2 (.cipherInit (.buffer keyA)), ask 2 (.cipherUpdate message true)]

theorem handles_consistent_session :
    Runs.Along (step sampleTa) StepOk State.init session ∧ (runs sampleTa session).uses.length = 5 ∧
      Consistent (runs sampleTa session) := by
  have hok : Runs.Along (step sampleTa) StepOk State.init session := by decide +kernel
  exact ⟨hok, by decide +kernel, handles_consistent sampleTa (by decide) session hok⟩

/-! ## What goes wrong without the condition -/

/-- A new key is taken while the context of the old one is there. -/
def renewed : List (Event Unit) := [
  .allocate algAesGcm .encrypt 128, ask 0 (.setOperationKey (some (gcmKey keyA))),
  ask 0 (.aeInit gcmNonce 128 0 0), ask 0 (.setOperationKey (some (gcmKey keyB))),
  ask 0 (.aeUpdate message true)]

/-- The hardware layer makes no context for a MAC. -/
def unmade : List (Event Unit) := [
  .allocate algHmacSha256 .mac 256, ask 0 (.setOperationKey (some hmacKey)),
  .call 0 (.macInit (.null 0)) ⟨none, none, [], failingHal⟩]

/-- The last call comes before the first, and without a buffer. -/
def unstarted : List (Event Unit) := [
  .allocate algAesGcm .encrypt 128, ask 0 (.setOperationKey (some (gcmKey keyA))),
  .call 0 (.aeEncryptFinal message false true) ⟨none, some 16, [], steadyHal⟩]

/-- No memory is left for a copy to a handle that has a key. -/
def uncopied : List (Event Unit) := [
  .allocate algAesGcm .encrypt 128, .allocate algAesGcm .encrypt 128,
  ask 0 (.setOperationKey (some (gcmKey keyA))), ask 1 (.setOperationKey (some (gcmKey keyB))),
  .copy 1 0 ⟨none, none, [false], steadyHal⟩]

/-- Data is encrypted under a key that is no longer stored, a handle is marked as initialized
without a context, a null context is followed, and a handle claims a key that is gone. -/
theorem handles_not_consistent : (¬ ∀ u ∈ (runs sampleTa renewed).uses, u.Proper) ∧
      (¬ ∀ op ∈ (runs sampleTa unmade).handles,
        has op.handleState flagInitialized = true → op.cryptoCtxt ≠ none) ∧
      (runs sampleTa unstarted).crashed = true ∧
      (¬ ∀ op ∈ (runs sampleTa uncopied).handles,
        has op.handleState flagKeySet = true → op.HasKey) := by
  exact ⟨by decide +kernel, by decide +kernel, by decide +kernel, by decide +kernel⟩

end TeeOs.Crypto
