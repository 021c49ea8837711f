import TeeOs.Crypto.HandleSound

/-!
# Authenticated encryption, keys and copies on sound handles

An AE call keeps a handle sound where the handle has a context, and a new key for an AE handle
where it has none. A copy keeps it sound where it succeeds or the destination has no key.
-/

namespace TeeOs.Crypto

open TeeOs.Lib Operation Option Granted

variable {κ : Type} {n level : Nat} {s : Local κ} {hal : Hal κ}

/-! ## Authenticated encryption -/

variable {op op' src : Operation κ} {tagLen srcLen room size now : Nat} {c : Ctx κ}
  {destData keep : Bool} {t : Local κ} {key : KeyObject} {f : Operation κ → Operation κ}
  {attrs : Attributes}

theorem aeConfigOf_ok {c : AeConfig} (h : aeConfigOf op = .ok c) :
    op.operationClass = .ae ∧ c ∈ aeConfig ∧ c.algorithm = op.algorithm := by
  unfold aeConfigOf at h
  cases hfind : aeConfig.find? fun c => c.algorithm = op.algorithm with
  | none => rw [hfind] at h; cases h
  | some c' =>
    rw [hfind] at h
    simp only at h
    split at h
    · cases h
    · next hclass =>
      cases h
      refine ⟨?_, List.mem_of_find?_eq_some hfind, by simpa using List.find?_some hfind⟩
      by_contra hne
      exact hclass (.inl hne)

theorem aeConfig_not_xts : ∀ c ∈ aeConfig, c.algorithm ≠ algAesXts := by decide

theorem aeUpdateCheck_ok (h : aeUpdateCheck op = .ok ()) :
    has op.handleState flagKeySet = true ∧ op.operationClass = .ae := by
  unfold aeUpdateCheck at h
  split at h
  · cases h
  · next hset =>
    cases hc : aeConfigOf op with
    | error e => rw [hc] at h; cases h
    | ok c => exact ⟨by simpa using hset, (aeConfigOf_ok hc).1⟩

theorem aeUpdateAadCheck_ok (h : aeUpdateAadCheck op level = .ok ()) :
    has op.handleState flagKeySet = true ∧ op.operationClass = .ae := by
  unfold aeUpdateAadCheck at h
  split at h
  · cases h
  · exact aeUpdateCheck_ok h

theorem aeInitError_ok (h : aeInitOperationError op = .ok ()) :
    has op.handleState flagKeySet = true ∧ has op.handleState flagInitialized = false := by
  unfold aeInitOperationError at h
  split at h
  · cases h
  · next hset =>
    split at h
    · cases h
    · next hinit => exact ⟨by simpa using hset, by simpa using hinit⟩

theorem aeInitCheckConfig_not_xts {nonceLen : Nat}
    (h : aeInitCheckConfig op tagLen nonceLen = .ok ()) : op.algorithm ≠ algAesXts := by
  unfold aeInitCheckConfig at h
  cases hc : aeConfigOf op with
  | error e => rw [hc] at h; cases h
  | ok c =>
    obtain ⟨-, hmem, halg⟩ := aeConfigOf_ok hc
    exact halg ▸ aeConfig_not_xts c hmem

/-- An AE handle with a key has a context. -/
def AeMade (op : Operation κ) : Prop :=
  op.operationClass = .ae → has op.handleState flagKeySet = true → op.cryptoCtxt ≠ none

theorem mallocDestData_ends (hctx : s.op.cryptoCtxt = some c) :
    Ends (mallocDestData hal srcLen) (fun _ t => Same s t) (fun _ t => Same s t) s := by
  unfold mallocDestData
  simp only [ends_bind, ends_reads, ends_onError, ends_get?]
  refine ⟨fun hnone => absurd (hctx.symm.trans hnone) (by simp), fun c' _ => ?_⟩
  rw [ends_failIf]
  refine ⟨fun _ => .refl s, fun _ => ?_⟩
  rw [ends_ite]
  refine ⟨fun hsize => ?_, fun _ => .refl s⟩
  simp only [ends_steps]
  exact ends_malloc hsize ⟨rfl, rfl, rfl, rfl⟩ fun _ => ⟨rfl, rfl, rfl, rfl⟩

theorem aeEncryptCheckDestData_ends :
    Ends (aeEncryptCheckDestData level destData srcLen) (fun _ t => t = s) (fun _ t => Same s t) s := by
  unfold aeEncryptCheckDestData
  simp only [ends_steps]
  constructor
  · intro _
    cases s.destLen with
    | none => exact .refl s
    | some k =>
      simp only [ends_steps]
      exact ⟨fun _ => .refl s, fun _ => ⟨fun _ => .refl s, fun _ => trivial⟩⟩
  · intro _
    cases s.destLen with
    | none =>
      simp only [ends_steps, ends_fail]
      exact ⟨fun _ => .refl s, fun _ => trivial⟩
    | some k =>
      simp only [ends_steps, ends_fail]
      exact ⟨fun _ => ⟨fun _ => ⟨rfl, rfl, rfl, rfl⟩, fun _ => .refl s⟩,
        fun _ => ⟨fun _ => trivial, fun _ => .refl s⟩⟩

theorem Same.cryptoCtxt (h : Same s t) : t.op.cryptoCtxt = s.op.cryptoCtxt := by
  have hcore := congrArg Operation.cryptoCtxt h.op
  exact hcore

theorem Same.fresh (h : Same s t) (hfresh : Fresh s.op) : Fresh t.op := by
  have hcore : Fresh s.op.core := hfresh
  rw [← h.op] at hcore
  exact hcore

section Final

variable (h : Safe n s) (hctx : s.op.cryptoCtxt = some c) (hfresh : Fresh s.op)
  (hsame : Same (s.update (Operation.lower flagInitialized)) t)
include h hctx hfresh hsame

/-- The last call on a context, which is freed whether the call succeeds or not. -/
theorem final_ends {req : HalRequest} :
    Ends (Act.always (halCall hal req) (freeOperationCtx hal)) (fun _ => Safe n) (fun _ => Safe n) t := by
  have hfreed : ∀ r, Safe n (freeOperationCtx hal (t.returned c r)) := by
    intro r
    have hlow := hfresh
    refine ((h.lower.of_same hsame).called (hsame.cryptoCtxt.trans hctx) (hsame.fresh hlow)).free ?_
    show has t.op.handleState flagInitialized = false
    rw [hsame.handleState]
    exact initialized_lower _
  rw [ends_always]
  exact halCall_ends (hsame.cryptoCtxt.trans hctx) (fun _ => hfreed) fun _ => hfreed

theorem aeEncryptHal_keeps {data : Block} : Keeps n (aeEncryptHal hal data room tagLen keep) t := by
  unfold aeEncryptHal
  simp only [ends_steps]
  refine (final_ends h hctx hfresh hsame).imp (fun reply u hu => ?_) fun _ _ hu => hu
  cases keep with
  | false | true => exact hu.of_same ⟨rfl, rfl, rfl, rfl⟩

theorem aeDecryptHal_keeps {data tag : Block} :
    Keeps n (aeDecryptHal hal data tag room keep) t := by
  unfold aeDecryptHal
  simp only [ends_steps]
  refine (final_ends h hctx hfresh hsame).imp (fun reply u hu => ?_) fun _ _ hu => hu
  cases keep with
  | false => exact hu
  | true => exact hu.report reply.size

end Final

section

variable (h : Safe n s)
include h

theorem aeInit_keeps {nonce : Ref} {aadLen payloadLen : Nat} (hl : level ≥ apiLevel111) :
    Keeps n (aeInit hal level nonce tagLen aadLen payloadLen) s := by
  unfold aeInit
  cases nonce with
  | null k => exact h
  | buffer nonce =>
    have hlevel : level > apiLevel10 := hl
    simp only [ends_steps, if_pos hlevel]
    refine ⟨fun _ _ => h, fun _ hstate => ⟨fun _ _ => h, fun _ hconfig => ?_⟩⟩
    have htag : Safe n (s.update fun op =>
        { op with digestLength := if level ≥ apiLevel111 then tagLen / 8 else tagLen }) :=
      h.of_same ⟨rfl, rfl, rfl, rfl⟩
    refine ⟨fun _ => htag, fun info _ => ?_⟩
    obtain ⟨hset, hinit⟩ := aeInitError_ok hstate
    have hkey := key_of_not_xts h.op.keys (aeInitCheckConfig_not_xts hconfig)
    exact (makeCtx_ends htag hinit hset hkey).imp (fun _ _ ht => ht.1) fun _ _ ht => ht.1

theorem Safe.raise_called {r : Returned κ} (hset : has s.op.handleState flagKeySet = true)
    (hctx : s.op.cryptoCtxt = some c) (hfresh : Fresh s.op) :
    Safe n ((s.returned c r).update (Operation.raise flagInitialized)) := by
  refine (h.called hctx hfresh).raise hset nofun ?_
  intro c' hc'
  cases hc'
  exact hfresh c hctx

variable (hmade : AeMade s.op) {src : Ref}
include hmade

theorem Safe.aeContext
    (hcheck : has s.op.handleState flagKeySet = true ∧ s.op.operationClass = .ae) :
    ∃ c, s.op.cryptoCtxt = some c ∧ Fresh s.op := by
  obtain ⟨c, hc⟩ := ne_none_iff_exists'.mp (hmade hcheck.2 hcheck.1)
  exact ⟨c, hc, h.op.ae hcheck.2⟩

theorem aeUpdateAad_keeps {aad : Ref} : Keeps n (aeUpdateAad hal level aad) s := by
  unfold aeUpdateAad
  simp only [ends_steps]
  refine ⟨fun _ => h, fun _ => ?_⟩
  cases aad with
  | null k => exact h
  | buffer data =>
    simp only [ends_steps]
    refine ⟨fun _ => h, fun _ => ⟨fun _ _ => h, fun _ hcheck => ?_⟩⟩
    have hset := aeUpdateAadCheck_ok hcheck
    obtain ⟨c, hctx, hfresh⟩ := h.aeContext hmade hset
    apply halCall_ends hctx
    · exact fun _ r => ⟨fun _ => h.raise_called hset.1 hctx hfresh, fun _ => h.called hctx hfresh⟩
    · exact fun _ r => h.called hctx hfresh

theorem aeUpdate_keeps : Keeps n (aeUpdate hal level src destData) s := by
  unfold aeUpdate
  simp only [ends_bind, ends_reads, ends_get?, ends_failIf, ends_onError, ends_ofExcept]
  refine ⟨fun _ => h, fun destLen _ => ⟨fun _ => h, fun _ => ⟨fun _ => h, fun _ => ⟨fun _ => h, fun _ =>
    ⟨fun _ _ => h.lower, fun _ hcheck => ⟨fun _ => h.lower, fun _ => ?_⟩⟩⟩⟩⟩⟩
  have hset := aeUpdateCheck_ok hcheck
  obtain ⟨c, hctx, hfresh⟩ := h.aeContext hmade hset
  rw [ends_ite]
  constructor
  · intro _
    have hraised := h.raise hset.1 (hctx ▸ (by simp)) hfresh
    simp only [ends_steps]
    apply halCall_ends (show (s.update (raise flagInitialized)).op.cryptoCtxt = some c from hctx)
    · exact fun reply r => (hraised.called hctx hfresh).report reply.size
    · exact fun _ r => (hraised.called hctx hfresh).lower
  · intro _
    simp only [ends_steps]
    apply halCall_ends hctx
    · exact fun reply r => (h.called hctx hfresh).report reply.size
    · exact fun _ r => (h.called hctx hfresh).lower

theorem aeEncryptFinal_keeps {tag : Bool} :
    Keeps n (aeEncryptFinal hal level src destData tag) s := by
  unfold aeEncryptFinal
  simp only [ends_bind, ends_reads, ends_failIf, ends_get?, ends_ofExcept, ends_change]
  refine ⟨fun _ => h, fun _ => ⟨fun _ => h, fun tagLen _ => ⟨fun _ => h, fun _ =>
    ⟨fun _ _ => h, fun _ hcheck => ?_⟩⟩⟩⟩
  obtain ⟨c, hctx, hfresh⟩ := h.aeContext hmade (aeUpdateCheck_ok hcheck)
  have hlow : (s.update (lower flagInitialized)).op.cryptoCtxt = some c := hctx
  refine aeEncryptCheckDestData_ends.imp ?_ fun _ _ ht => h.lower.of_same ht
  intro own t ht
  subst ht
  simp only [ends_steps]
  refine ⟨fun _ => ?_, fun _ => aeEncryptHal_keeps h hctx hfresh (.refl _)⟩
  refine (mallocDestData_ends hlow).imp ?_ fun _ _ ht => h.lower.of_same ht
  exact fun room t hsame => aeEncryptHal_keeps h hctx hfresh hsame

theorem aeDecryptFinal_keeps {tag : Ref} :
    Keeps n (aeDecryptFinal hal level src destData tag) s := by
  unfold aeDecryptFinal
  simp only [ends_bind, ends_reads, ends_failIf, ends_get?, ends_ofExcept, ends_change]
  refine ⟨fun _ => h, fun destLen _ => ⟨fun _ => h, fun _ => ⟨fun _ => h, fun _ =>
    ⟨fun _ _ => h, fun _ hcheck => ?_⟩⟩⟩⟩
  obtain ⟨c, hctx, hfresh⟩ := h.aeContext hmade (aeUpdateCheck_ok hcheck)
  have hlow : (s.update (lower flagInitialized)).op.cryptoCtxt = some c := hctx
  simp only [ends_steps]
  refine ⟨fun _ => ?_, fun _ => ⟨fun _ => h.lower, fun _ => ?_⟩⟩
  · refine (mallocDestData_ends hlow).imp ?_ fun _ _ ht => h.lower.of_same ht
    exact fun room t hsame => aeDecryptHal_keeps h hctx hfresh hsame
  · exact aeDecryptHal_keeps h hctx hfresh (.refl _)

end

/-! ## Setting keys -/

theorem length_le_of_bits {a : Attribute} {max : Nat} (hmax : max ≤ maxKeySizeInBits)
    (hbits : keySizeInBits a ≤ max) (hshort : a.ref.length < 2^29) :
    a.ref.length ≤ maxSymmetricBufSize := by
  rw [keySizeInBits_eq hshort, keyBits] at hbits
  simp only [maxKeySizeInBits, maxSymmetricBufSize] at *
  split at hbits
  · omega
  · omega

theorem setSymmetric_stores : Ends (setSymmetricOperationKey key)
      (fun _ t => ∃ attrs b, key.attributes = some attrs ∧ attrs.first.ref = .buffer b ∧
        (0 < b.length ∧ b.length ≤ maxMallocLen) ∧
        t = s.answered.update (setKeyValue (some b) b.length))
      (fun _ t => Same s t) s := by
  unfold setSymmetricOperationKey
  simp only [ends_steps]
  refine ⟨fun _ => .refl s, fun attrs hattrs => ⟨fun _ => .refl s, fun hlen => ?_⟩⟩
  refine ends_malloc (by omega) ?_ fun _ => ⟨rfl, rfl, rfl, rfl⟩
  simp only [ends_steps, ends_onError]
  refine ⟨fun _ _ => ⟨rfl, rfl, rfl, rfl⟩, fun b hb => ?_⟩
  obtain ⟨hbuffer, -⟩ := memcpy_ok hb
  have hlength : attrs.first.ref.length = b.length := by rw [hbuffer]; rfl
  rw [hlength] at hlen ⊢
  refine ⟨attrs, b, hattrs, hbuffer, by omega, ?_⟩
  rw [Nat.mod_eq_of_lt (by simp only [maxMallocLen] at hlen; omega)]
  rfl

/-- The state of a handle between the erasure of its old key and the end of the call. -/
structure Open (n : Nat) (s : Local κ) : Prop where
  safe : Safe n s
  noKey : s.op.NoKey
  init : has s.op.handleState flagInitialized = false
  ae : s.op.operationClass = .ae → s.op.cryptoCtxt = none

/-- The handle has no context that a new key would make stale. -/
def AeIdle (op : Operation κ) : Prop :=
  op.operationClass = .ae → has op.handleState flagInitialized = false → op.cryptoCtxt = none

theorem Safe.erased (h : Safe n s) (hinit : has s.op.handleState flagInitialized = false)
    (hidle : AeIdle s.op) : Open n (resetOperationKey s) := by
  have hlow := (initialized_lower_keySet _).trans hinit
  have hclear : has (resetOperationKey s).op.handleState flagKeySet = false := keySet_lower _
  have hctx : s.op.operationClass = .ae → s.op.cryptoCtxt = none := fun hclass => hidle hclass hinit
  refine ⟨⟨⟨⟨?_, fun _ => rfl, ?_, ⟨rfl, rfl⟩, nofun, nofun⟩, ?_, ?_, h.op.symmetric, h.op.max, ?_,
    h.op.hal⟩, h.uses, h.noNull, h.clock⟩, resetOperationKey_noKey s, hlow, hctx⟩
  · exact fun hset => absurd (hclear.symm.trans hset) nofun
  · exact ⟨fun hne => absurd rfl hne, fun hne => absurd rfl hne.2⟩
  · exact fun hready => absurd (hlow.symm.trans hready) nofun
  · exact fun hclass c hc => absurd ((hctx hclass).symm.trans hc) nofun
  · exact fun hset => absurd (hclear.symm.trans hset) nofun

/-- The end of a successful call: the new key has the time of now. -/
theorem Open.tick (h : Open n s) (ht : t = s.update f) (hkeys : KeyPart (f s.op))
    (hinit : has (f s.op).handleState flagInitialized = false)
    (hrest : (Symmetric s.op → Symmetric (f s.op)) ∧
      (f s.op).operationClass = s.op.operationClass ∧ (f s.op).cryptoCtxt = s.op.cryptoCtxt ∧
      (f s.op).maxKeySize = s.op.maxKeySize ∧ (f s.op).halInfo = s.op.halInfo) : Safe n t.tick := by
  subst ht
  obtain ⟨⟨⟨-, -, -, symmetric, max, -, hal⟩, uses, noNull, clock⟩, -, -, ae⟩ := h
  obtain ⟨hsymmetric, hclass, hctx, hmax, hhal⟩ := hrest
  obtain ⟨set, clear, second, noPair, size, size2⟩ := hkeys
  refine ⟨⟨⟨set, clear, second, noPair, size, size2⟩, ?_, ?_, hsymmetric symmetric, hmax ▸ max,
    fun _ => Nat.lt_succ_self _, hhal ▸ hal⟩, uses, noNull, Nat.le_succ_of_le clock⟩
  · exact fun hready => absurd (hinit.symm.trans hready) nofun
  · intro hae c hc
    exact absurd ((hctx.trans (ae (hclass.symm.trans hae))).symm.trans hc) nofun

theorem Open.tick_self (h : Open n s) : Safe n s.tick :=
  h.tick (f := id) rfl h.safe.op.keys h.init ⟨id, rfl, rfl, rfl, rfl⟩

theorem Open.answered (h : Open n s) : Open n s.answered :=
  { h with safe := h.safe.of_same ⟨rfl, rfl, rfl, rfl⟩ }

theorem opType_symmetric {c : OperationClass} (h : c ∈ symmetricClasses) :
    getOpClassType c = .symmetric := by
  revert h
  cases c <;> decide

/-- Both keys and the mark that they are there. -/
def storeTwo (b1 b2 : Block) (op : Operation κ) : Operation κ :=
  (setKeyValue2 (some b2) b2.length (setKeyValue (some b1) b1.length op)).raise flagKeySet

theorem copyKeyValue_stores {b1 b2 : Block} (h1 : 0 < b1.length ∧ b1.length < 2^29)
    (h2 : 0 < b2.length ∧ b2.length < 2^29) :
    Ends (copyKeyValueToOperation (.buffer b1) (.buffer b2)) (fun _ t => t = s.update fun op =>
        setKeyValue2 (some b2) b2.length (setKeyValue (some b1) b1.length op))
      (fun _ _ => False) s := by
  have hcopy : ∀ b : Block, 0 < b.length ∧ b.length < 2^29 →
      memcpy (Ref.buffer b).length (.buffer b) = .ok b ∧ b.length % 2^32 = b.length := by
    intro b hb
    refine ⟨memcpy_self (by omega) ?_, Nat.mod_eq_of_lt (by omega)⟩
    simp only [securecMemMaxLen]
    omega
  unfold copyKeyValueToOperation
  simp only [ends_steps, (hcopy b1 h1).1, (hcopy b2 h2).1, reduceCtorEq, Except.ok.injEq, false_imp_iff, implies_true, true_and]
  intro _ hb1
  subst hb1
  intro _ hb2
  subst hb2
  simp only [Ref.length, (hcopy _ h1).2, (hcopy _ h2).2]
  rfl

theorem setOperationKey2Values_stores {ref1 ref2 : Ref} (hs : s.op.keyValue = none)
    (h1 : ref1.length < 2^29) (h2 : ref2.length < 2^29) :
    Ends (setOperationKey2Values ref1 ref2)
      (fun _ t => ∃ b1 b2, ref1 = .buffer b1 ∧ ref2 = .buffer b2 ∧ 0 < b1.length ∧ 0 < b2.length ∧
        t = s.answered.answered.update (storeTwo b1 b2))
      (fun _ t => Same s t) s := by
  unfold setOperationKey2Values
  simp only [ends_steps, ends_onError, ends_rescue]
  refine ⟨fun _ => .refl s, fun hnull => ⟨fun _ => .refl s, fun hlen => ?_⟩⟩
  cases ref1 with
  | null k => exact absurd (.inl rfl) hnull
  | buffer b1 =>
    cases ref2 with
    | null k => exact absurd (.inr rfl) hnull
    | buffer b2 =>
      simp only [Ref.length, not_or] at hlen h1 h2
      refine ends_malloc hlen.1 ?_ fun _ => ⟨rfl, rfl, rfl, rfl⟩
      refine ends_malloc hlen.2 ?_ fun _ => ⟨?_, rfl, rfl, rfl⟩
      · refine (copyKeyValue_stores ⟨by omega, h1⟩ ⟨by omega, h2⟩).imp ?_ fun _ _ hf => hf.elim
        rintro _ _ rfl
        exact ⟨b1, b2, rfl, rfl, by omega, by omega, rfl⟩
      · show { s.op.core with keyValue := none } = s.op.core
        have hcore : s.op.core.keyValue = none := hs
        rw [← hcore]

theorem shortFirst (h : Short key .symmetric) (hattrs : key.attributes = some attrs) :
    attrs.first.ref.length < 2^29 := by
  refine h attrs.first ?_
  simp only [sizeAttribute, hattrs, if_true]

section

variable (hl : level ≥ apiLevel111)
include hl

theorem compatible_size (hattrs : key.attributes = some attrs)
    (h : setOperationKeyCompatibleCheck op key level .symmetric = .ok ()) :
    keySizeInBits attrs.first ≤ op.maxKeySize := by
  have hlevel : level ≠ apiLevel10 := by
    simp only [apiLevel111, apiLevel10] at hl ⊢
    omega
  unfold setOperationKeyCompatibleCheck at h
  rw [if_neg hlevel] at h
  cases hinfo : key.objectInfo with
  | none => rw [hinfo] at h; cases h
  | some info =>
    rw [hinfo] at h
    cases hsize : checkObjectKeySizeValid op key .symmetric with
    | error e => rw [hsize] at h; cases h
    | ok _ =>
      simp only [checkObjectKeySizeValid, sizeAttribute, hattrs, if_true] at hsize
      split at hsize
      · cases hsize
      · split at hsize
        · cases hsize
        · next hfits => omega

theorem comCheck_ok (h : setOperationKeyComCheck op level = .ok ()) :
    has op.handleState flagInitialized = false := by
  unfold setOperationKeyComCheck at h
  split at h
  · cases h
  · rw [if_neg (Nat.not_lt.mpr hl)] at h
    split at h
    · cases h
    · next hinit => exact Bool.not_eq_true _ ▸ hinit

/-- One key: whatever happens the handle is sound, and a success has stored the key. -/
theorem setOperationKey_keeps {gen : Call κ Unit} {key : Option KeyObject} (h : Safe n s)
    (hidle : AeIdle s.op) :
    Ends (setOperationKey gen level key)
      (fun _ t => Safe n t ∧ (t.op.keyValue, t.op.keyValue2) = (key.bind KeyObject.value, none))
      (fun _ t => Safe n t) s := by
  unfold setOperationKey
  simp only [ends_steps]
  refine ⟨fun _ _ => h, fun _ hcheck => ?_⟩
  unfold setOperationKeyStateCheck at hcheck
  split at hcheck
  · cases hcheck
  next halg =>
  have hopen := h.erased (comCheck_ok hl hcheck) hidle
  cases key with
  | none =>
    exact (ends_change Local.tick).mpr ⟨hopen.tick_self, rfl⟩
  | some key =>
    simp only [ends_steps]
    refine ⟨fun _ => hopen.safe, fun _ => ⟨fun _ _ => hopen.safe, fun _ hcompatible => ?_⟩⟩
    rw [opType_symmetric h.op.symmetric.1] at hcompatible ⊢
    simp only [ends_steps]
    refine setSymmetric_stores.imp ?_ fun _ _ ht => hopen.safe.of_same ht
    rintro _ _ ⟨attrs, b, hattrs, hbuffer, ⟨hpos, hlen⟩, rfl⟩
    have hlength : attrs.first.ref.length = b.length := by rw [hbuffer]; rfl
    have hmax : b.length ≤ maxSymmetricBufSize := by
      rw [← hlength]
      refine length_le_of_bits h.op.max (compatible_size hl hattrs hcompatible) ?_
      simp only [maxMallocLen] at hlen
      omega
    obtain ⟨-, hvalue2, hpair⟩ := hopen.noKey
    refine ⟨hopen.answered.tick (f := fun op => (setKeyValue (some b) b.length op).raise flagKeySet) rfl
      ⟨fun _ => nofun, ?_, ?_, hpair, ?_, ?_⟩ ?_ ⟨id, rfl, rfl, rfl, rfl⟩, ?_⟩
    · exact fun hclear => absurd ((keySet_raise _).symm.trans hclear) nofun
    · exact ⟨fun hne => absurd hvalue2 hne, fun hxts => absurd hxts.1 halg⟩
    · intro b' hb'
      cases hb'
      exact ⟨rfl, hpos, hmax⟩
    · exact fun b' hb' => absurd (hvalue2.symm.trans hb') nofun
    · exact (initialized_raise_keySet _).trans hopen.init
    · show (some b, none) = (KeyObject.value key, none)
      simp only [KeyObject.value, hattrs, hbuffer, map_some, Ref.bytes]

/-- Two keys, none of them too long for the computation of its size. -/
theorem setOperationKey2_keeps {key1 key2 : Option KeyObject} (h : Safe n s)
    (hshort : ∀ k, key1 = some k ∨ key2 = some k → Short k .symmetric) :
    Ends (setOperationKey2 level key1 key2) (fun _ t => Safe n t ∧ (t.op.keyValue, t.op.keyValue2) =
        (key1.bind KeyObject.value, key2.bind KeyObject.value))
      (fun _ t => Safe n t) s := by
  unfold setOperationKey2
  simp only [ends_steps]
  refine ⟨fun _ _ => h, fun keys hkeys => ⟨fun _ _ => h, fun _ hcheck => ?_⟩⟩
  unfold setOperationKey2StateCheck at hcheck
  split at hcheck
  · cases hcheck
  next halg =>
  have hidle : AeIdle s.op := fun hae _ => absurd (not_not.mp halg) (h.op.symmetric.2 hae)
  have hopen := h.erased (comCheck_ok hl hcheck) hidle
  cases keys with
  | none =>
    obtain ⟨rfl, rfl⟩ := checkTwoKeysValid_none hkeys
    exact (ends_change Local.tick).mpr ⟨hopen.tick_self, rfl⟩
  | some keys =>
    obtain ⟨⟨k1, attrs1⟩, k2, attrs2⟩ := keys
    obtain ⟨rfl, rfl, hattrs1, hattrs2, -⟩ := checkTwoKeysValid_some hkeys
    have hshort1 := shortFirst (hshort k1 (.inl rfl)) hattrs1
    have hshort2 := shortFirst (hshort k2 (.inr rfl)) hattrs2
    simp only [ends_bind, ends_failIf, ends_ofExcept]
    refine ⟨fun _ => hopen.safe, fun _ => ⟨fun _ _ => hopen.safe, fun _ hcompatible1 =>
      ⟨fun _ _ => hopen.safe, fun _ hcompatible2 => ?_⟩⟩⟩
    refine (setOperationKey2Values_stores rfl hshort1 hshort2).imp ?_ fun _ _ ht => hopen.safe.of_same ht
    rintro _ _ ⟨b1, b2, hb1, hb2, hpos1, hpos2, rfl⟩
    have hmax1 := length_le_of_bits h.op.max (compatible_size hl hattrs1 hcompatible1) hshort1
    have hmax2 := length_le_of_bits h.op.max (compatible_size hl hattrs2 hcompatible2) hshort2
    rw [hb1] at hmax1
    rw [hb2] at hmax2
    obtain ⟨-, -, hpair⟩ := hopen.noKey
    refine (ends_change Local.tick).mpr ⟨hopen.answered.answered.tick rfl
      ⟨fun _ => Option.some_ne_none _, ?_, ?_, hpair, ?_, ?_⟩ ?_ ⟨id, rfl, rfl, rfl, rfl⟩, ?_⟩
    · exact fun hclear => absurd ((keySet_raise _).symm.trans hclear) (by simp)
    · exact ⟨fun _ => ⟨not_not.mp halg, Option.some_ne_none _⟩, fun _ => Option.some_ne_none _⟩
    · intro b hb
      cases hb
      exact ⟨rfl, hpos1, hmax1⟩
    · intro b hb
      cases hb
      exact ⟨rfl, hpos2, hmax2⟩
    · exact (initialized_raise_keySet _).trans hopen.init
    · show (some b1, some b2) = (k1.value, k2.value)
      simp only [KeyObject.value, hattrs1, hattrs2, hb1, hb2, map_some, Ref.bytes]

end

/-! ## Resetting and copying -/

theorem core_halInfo {info info' : HalInfo} (h : op.halInfo = some info) :
    { op with halInfo := some info' }.core = op.core := by
  unfold core
  simp only [h, map_some]

theorem resetOperation_keeps (h : Safe n s) : Keeps n (resetOperation hal level) s := by
  unfold resetOperation
  simp only [ends_steps]
  refine ⟨fun _ => h, fun _ => ⟨fun hnone => absurd hnone h.op.hal, fun info hinfo => ⟨fun _ => ?_, ?_⟩⟩⟩
  · have hfreed : Safe n ((freeOperationCtx hal s).update (lower flagInitialized)) :=
      h.free_lower
    have hkept : ((freeOperationCtx hal s).op.lower flagInitialized).halInfo = some info := hinfo
    exact hfreed.of_same ⟨core_halInfo hkept, rfl, rfl, rfl⟩
  · intro hdigest
    have hclass := h.op.symmetric.1
    rw [not_not] at hdigest
    rw [hdigest] at hclass
    exact absurd hclass (by decide)

/-- What a copy leaves of the destination until its last step, where its keys and its context
are left out. -/
def Operation.bare (op : Operation κ) : Operation κ :=
  { op.core with keyValue := none, keySize := 0, keyValue2 := none, keySize2 := 0, cryptoCtxt := none }

/-- What two handles share that differ in keys and context. -/
structure Kept (op op' : Operation κ) : Prop where
  state : op'.handleState = op.handleState
  alg : op'.algorithm = op.algorithm
  max : op'.maxKeySize = op.maxKeySize
  symmetric : Symmetric op → Symmetric op'
  pair : op.publicKey = none ∧ op.privateKey = none → op'.publicKey = none ∧ op'.privateKey = none
  hal : op'.halInfo = none → op.halInfo = none

theorem bare_fields (h : op'.bare = op.bare) : Kept op op' := by
  simp only [bare, core, mk.injEq] at h
  constructor <;> grind [Symmetric, map_eq_none_iff]

structure Around (s t : Local κ) : Prop where
  bare : t.op.bare = s.op.bare
  uses : t.uses = s.uses
  crashed : t.crashed = s.crashed
  clock : t.clock = s.clock
  granted : Granted s → Granted t

theorem Around.trans {u : Local κ} (h : Around s t) (h' : Around t u) : Around s u :=
  ⟨h'.bare.trans h.bare, h'.uses.trans h.uses, h'.crashed.trans h.crashed, h'.clock.trans h.clock,
    fun hg => h'.granted (h.granted hg)⟩

/-- A change of the handle that leaves the rest. -/
theorem Around.update (h : (f s.op).bare = s.op.bare) : Around s (s.update f) :=
  ⟨h, rfl, rfl, rfl, id⟩

theorem Around.release (b : Option Block) : Around s (s.release b) := ⟨rfl, rfl, rfl, rfl, id⟩

/-- What of a buffer is copied. -/
def copied (src : Option Block) (size : Nat) : Option Block × Nat :=
  match src with
  | none => (none, 0)
  | some b => if size = 0 ∨ size > maxSymmetricBufSize then (none, 0) else (some (b.take size), size)

theorem copied_of_sized {src : Option Block} (h : Sized src size) :
    (copied src size).1 = src ∧ (src ≠ none → (copied src size).2 = size) := by
  cases src with
  | none => exact ⟨rfl, fun hne => absurd rfl hne⟩
  | some b =>
    obtain ⟨rfl, hpos, hmax⟩ := h b rfl
    have hcopied : copied (some b) b.length = (some b, b.length) := by
      show (if b.length = 0 ∨ b.length > maxSymmetricBufSize then (none, 0)
        else (some (b.take b.length), b.length)) = (some b, b.length)
      rw [if_neg (by omega), List.take_length]
    rw [hcopied]
    exact ⟨rfl, fun _ => rfl⟩

theorem copyBuf_ends (set : Option Block → Nat → Operation κ → Operation κ) {src : Option Block}
    (hset : ∀ v k op, set v k (set none 0 op) = set v k op)
    (hbare : ∀ v k op, (set v k op).bare = op.bare) :
    Ends (copySymmetricBufInfo set src size)
      (fun _ t => Around s t ∧ t.op = set (copied src size).1 (copied src size).2 s.op)
      (fun _ t => Around s t ∧ ¬ Granted s) s := by
  have hcleared : Around s (s.update (set none 0)) := .update (hbare none 0 s.op)
  unfold copySymmetricBufInfo
  cases src with
  | none => exact ⟨hcleared, rfl⟩
  | some b =>
    simp only [ends_steps, copied]
    constructor
    · intro hskip
      rw [if_pos hskip]
      exact ⟨hcleared, rfl⟩
    · intro hcopy
      rw [if_neg hcopy]
      refine ends_malloc (fun hzero => hcopy (.inl hzero)) ⟨⟨?_, rfl, rfl, rfl, answered⟩, ?_⟩ ?_
      · exact (hbare _ _ _).trans (hbare _ _ _)
      · exact hset _ _ _
      · exact fun hrefused => ⟨⟨hbare _ _ _, rfl, rfl, rfl, answered⟩, hrefused⟩

theorem copySymmetricKeyIv_ends : Ends (copySymmetricKeyIv src)
      (fun _ t => Around s t ∧ (t.op.keyValue, t.op.keySize) = copied src.keyValue src.keySize ∧
        (t.op.keyValue2, t.op.keySize2) = copied src.keyValue2 src.keySize2)
      (fun _ t => Around s t ∧ ¬ Granted s) s := by
  unfold copySymmetricKeyIv
  simp only [ends_steps, ends_onError]
  refine (copyBuf_ends setKeyValue (fun _ _ _ => rfl) fun _ _ _ => rfl).imp ?_ ?_
  · rintro _ t ⟨hfirst, hop⟩
    have haround : Around s t := (Around.release _).trans hfirst
    refine (copyBuf_ends setKeyValue2 (fun _ _ _ => rfl) fun _ _ _ => rfl).imp ?_ ?_
    · rintro _ u ⟨hsecond, hop2⟩
      have haround2 : Around s u := haround.trans ((Around.release _).trans hsecond)
      refine (copyBuf_ends setIv (fun _ _ _ => rfl) fun _ _ _ => rfl).imp ?_ ?_
      · rintro _ v ⟨hthird, hop3⟩
        refine ⟨haround2.trans hthird, ?_, ?_⟩
        · rw [hop3, hop2]
          show (t.op.keyValue, t.op.keySize) = _
          rw [hop]
          rfl
        · rw [hop3, hop2]
          rfl
      · rintro _ v ⟨hthird, hrefused⟩
        have hdropped : Around v (dropKeyValue2 (dropKeyValue v)) := ⟨rfl, rfl, rfl, rfl, id⟩
        exact ⟨(haround2.trans hthird).trans hdropped, fun hg => hrefused (haround2.granted hg)⟩
    · rintro _ u ⟨hsecond, hrefused⟩
      have hdropped : Around u (dropKeyValue u) := ⟨rfl, rfl, rfl, rfl, id⟩
      exact ⟨(haround.trans ((Around.release _).trans hsecond)).trans hdropped,
        fun hg => hrefused (haround.granted hg)⟩
  · rintro _ t ⟨hfirst, hrefused⟩
    exact ⟨(Around.release _).trans hfirst, hrefused⟩

theorem copyCryptoHalCtx_ends : Ends (copyCryptoHalCtx hal src)
      (fun _ t => Around s t ∧ (t.op.keyValue = s.op.keyValue ∧ t.op.keyValue2 = s.op.keyValue2 ∧
          t.op.keySize2 = s.op.keySize2) ∧
        ((src.cryptoCtxt = none ∧ t.op.cryptoCtxt = none) ∨
          ∃ c raw, src.cryptoCtxt = some c ∧ t.op.cryptoCtxt = some { c with raw := raw }))
      (fun _ t => Around s t ∧
        ¬ (Granted s ∧ ∀ c ∈ src.cryptoCtxt, (hal.copy c.raw).1.isOk = true)) s := by
  unfold copyCryptoHalCtx
  cases hsrc : src.cryptoCtxt with
  | none => exact ⟨⟨rfl, rfl, rfl, rfl, id⟩, ⟨rfl, rfl, rfl⟩, .inl ⟨rfl, rfl⟩⟩
  | some c =>
    simp only [ends_steps]
    refine ends_malloc (by decide) ⟨fun e he => ⟨⟨rfl, rfl, rfl, rfl, answered⟩, ?_⟩, ?_⟩ ?_
    · rintro ⟨_, hcopy⟩
      have hcopied := hcopy c rfl
      rw [he] at hcopied
      cases hcopied
    · intro raw _
      exact ⟨⟨rfl, rfl, rfl, rfl, answered⟩, ⟨rfl, rfl, rfl⟩, .inr ⟨c, raw, rfl, rfl⟩⟩
    · exact fun hrefused => ⟨⟨rfl, rfl, rfl, rfl, answered⟩, fun h => hrefused h.1⟩

/-- What a successful copy has brought to the destination. -/
structure Brought (src dst : Operation κ) : Prop where
  keyValue : dst.keyValue = src.keyValue
  keyValue2 : dst.keyValue2 = src.keyValue2
  size2 : src.keyValue2 ≠ none → dst.keySize2 = src.keySize2
  ctx : (src.cryptoCtxt = none ∧ dst.cryptoCtxt = none) ∨
    ∃ c raw, src.cryptoCtxt = some c ∧ dst.cryptoCtxt = some { c with raw := raw }

/-- Nothing stands in the way of the copy. -/
def CopySucceeds (hal : Hal κ) (s : Local κ) (src : Operation κ) : Prop :=
  Granted s ∧ ∀ c ∈ src.cryptoCtxt, (hal.copy c.raw).1.isOk = true

section

variable (hpair : s.op.publicKey = none ∧ s.op.privateKey = none)
include hpair

theorem cleanOperationKey_eq : cleanOperationKey s = s := by
  obtain ⟨⟨op⟩, answers, destLen, tagLen, clock, released, uses, crashed⟩ := s
  obtain ⟨rfl, rfl⟩ := hpair
  simp only [cleanOperationKey, Local.update, Local.release, map_none, toList_none,
    List.append_nil, ite_self]

/-- A handle without a key pair takes no part in the copy of one. -/
theorem copyCryptoKeypair_eq (hsrc : src.publicKey = none ∧ src.privateKey = none) :
    Ends (copyCryptoKeypair src) (fun _ t => t = s) (fun _ _ => False) s := by
  unfold copyCryptoKeypair
  simp only [ends_steps, hsrc.1, hsrc.2, ne_eq, not_true_eq_false, false_and, if_false]
  exact cleanOperationKey_eq hpair

theorem bare_dropPair : (dropPair s).op.bare = s.op.bare := by
  obtain ⟨⟨op⟩, answers, destLen, tagLen, clock, released, uses, crashed⟩ := s
  obtain ⟨rfl, rfl⟩ := hpair
  rfl

theorem copyParts_ends (hsrc : KeyPart src) :
    Ends (do copySymmetricKeyIv src; copyCryptoHalOperation hal src)
      (fun _ t => Around s t ∧ Brought src t.op)
      (fun _ t => Around s t ∧ ¬ CopySucceeds hal s src) s := by
  rw [ends_bind]
  refine copySymmetricKeyIv_ends.imp ?_ fun _ t ht => ⟨ht.1, fun hs => ht.2 hs.1⟩
  intro _ t ⟨haround, hkey, hkey2⟩
  obtain ⟨hvalue, -⟩ := copied_of_sized hsrc.size
  obtain ⟨hvalue2, hsize2⟩ := copied_of_sized hsrc.size2
  unfold copyCryptoHalOperation
  rw [ends_bind]
  refine (copyCryptoKeypair_eq ((bare_fields haround.bare).pair hpair) hsrc.noPair).imp ?_
    fun _ _ hf => hf.elim
  rintro _ _ rfl
  rw [ends_onError]
  refine copyCryptoHalCtx_ends.imp ?_ ?_
  · intro _ u ⟨hlast, ⟨hkept, hkept2, hkeptSize⟩, hctx⟩
    refine ⟨haround.trans hlast, ?_, ?_, ?_, hctx⟩
    · exact (hkept.trans (congrArg Prod.fst hkey)).trans hvalue
    · exact (hkept2.trans (congrArg Prod.fst hkey2)).trans hvalue2
    · exact fun hne => (hkeptSize.trans (congrArg Prod.snd hkey2)).trans (hsize2 hne)
  · intro _ u ⟨hlast, hfailed⟩
    have hall := haround.trans hlast
    have hdropped : Around u (dropPair u) :=
      ⟨bare_dropPair ((bare_fields hall.bare).pair hpair), rfl, rfl, rfl, id⟩
    exact ⟨hall.trans hdropped, fun hs => hfailed ⟨haround.granted hs.1, hs.2⟩⟩

end

/-- The copy succeeds, or the destination has no key to lose. -/
def CopyDone (hal : Hal κ) (s : Local κ) (src : Operation κ) : Prop :=
  has s.op.handleState flagKeySet = true → CopySucceeds hal s src

theorem Sound.of_brought {dst : Operation κ} (h : Sound now src)
    (hb : Brought src dst) (hclass : dst.operationClass = src.operationClass)
    (hstate : dst.handleState = src.handleState) (hsize : dst.keySize = src.keySize)
    (hat : dst.keyAt = src.keyAt) (halg : dst.algorithm = src.algorithm)
    (hpair : dst.publicKey = none ∧ dst.privateKey = none) (hmax : dst.maxKeySize ≤ maxKeySizeInBits)
    (hhal : dst.halInfo ≠ none) : Sound now dst := by
  obtain ⟨⟨set, clear, second, -, size, size2⟩, ready, ae, symmetric, -, past, -⟩ := h
  obtain ⟨hvalue, hvalue2, hsize2, hctx⟩ := hb
  have hkey : dst.key = src.key := by rw [key, hvalue, hvalue2, key]
  refine ⟨⟨?_, ?_, ?_, hpair, ?_, ?_⟩, ?_, ?_, ?_, hmax, ?_, hhal⟩ <;>
    grind [Fresh, Sized, Symmetric]

/-- A destination without a key is sound when it has lost its context too. -/
theorem Sound.cleared (h : Sound now op)
    (hset : has op.handleState flagKeySet = false) (hbare : op'.bare = op.bare)
    (hnone : op'.keyValue = none ∧ op'.keyValue2 = none ∧ op'.cryptoCtxt = none) : Sound now op' := by
  obtain ⟨hstate, halg, hmax, hsymmetric, hpair, hhal⟩ := bare_fields hbare
  obtain ⟨⟨-, -, -, hnoPair, -, -⟩, ready, -, symmetric, max, -, hal⟩ := h
  refine ⟨⟨?_, ?_, ?_, hpair hnoPair, ?_, ?_⟩, ?_, ?_, hsymmetric symmetric, ?_, ?_, mt hhal hal⟩ <;>
    grind [Fresh, Sized]

theorem copyOperation_keeps (h : Safe n s) (hsrc : Sound s.clock src)
    (hdone : CopyDone hal s src) : Keeps n (copyOperation hal src) s := by
  unfold copyOperation checkAndCopyHalInfo
  simp only [ends_steps]
  refine ⟨fun _ => h, fun _ => ⟨fun _ => h, fun info _ => ⟨fun _ => h,
    fun hmatch => ⟨fun _ => h, fun _ => ?_⟩⟩⟩⟩
  obtain ⟨old, hold⟩ := ne_none_iff_exists'.mp h.op.hal
  have hinfo : Safe n (s.update fun op => { op with halInfo := some info }) :=
    h.of_same ⟨core_halInfo hold, rfl, rfl, rfl⟩
  rw [ends_onError]
  refine (copyParts_ends hinfo.op.keys.noPair hsrc.keys).imp ?_ ?_
  · rintro _ t ⟨haround, hbrought⟩
    have hkept := bare_fields haround.bare
    refine ⟨?_, haround.uses ▸ h.uses, haround.crashed.trans h.noNull, haround.clock ▸ h.clock⟩
    have halg : s.op.algorithm = src.algorithm := by
      by_contra hne
      exact hmatch (.inr hne)
    have hnow : Sound t.clock src := by
      rw [haround.clock]
      exact hsrc
    refine Sound.of_brought hnow ?_ rfl rfl rfl rfl (hkept.alg.trans halg)
      (hkept.pair hinfo.op.keys.noPair) (hkept.max ▸ hinfo.op.max) (mt hkept.hal hinfo.op.hal)
    exact { hbrought with }
  · rintro _ t ⟨haround, hfailed⟩
    have hset : has s.op.handleState flagKeySet = false := by
      rw [← Bool.not_eq_true]
      exact fun hs => hfailed (hdone hs)
    refine ⟨?_, haround.uses ▸ h.uses, haround.crashed.trans h.noNull, haround.clock ▸ h.clock⟩
    have hnow : Sound t.clock { s.op with halInfo := some info } := by
      rw [haround.clock]
      exact hinfo.op
    exact hnow.cleared hset haround.bare ⟨rfl, rfl, rfl⟩

end TeeOs.Crypto
