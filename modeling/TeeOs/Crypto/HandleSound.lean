import TeeOs.Crypto.HandleRuns
import TeeOs.Crypto.KeySetting

/-!
# What the calls keep of a handle

A handle is sound when its flags, its keys and its context agree. The cipher and MAC calls
rely on the flag of initialization for the context; the AE calls do not look at it, and so a
context of an AE handle has to be one of the stored key at any time.
-/

namespace TeeOs.Crypto

open TeeOs.Lib List BitVec

variable {κ : Type} {α : Type} {x f : Word} {c : Ctx κ} {op : Operation κ}

/-! ## Flags -/

theorem has_raise_self (x f : Word) : has (x ||| f) f = true := by
  unfold has
  rw [beq_iff_eq, BitVec.and_comm]
  exact eq_of_getLsbD_eq fun i _ => by
    rw [getLsbD_and, getLsbD_or]
    cases getLsbD f i with
    | false => rfl
    | true => rw [Bool.or_true, Bool.and_true]

theorem has_raise_other {g : Word} (h : f &&& g = 0#32) : has (x ||| f) g = has x g := by
  have hand : (x ||| f) &&& g = x &&& g := by
    rw [BitVec.and_comm, BitVec.and_or_distrib_left, BitVec.and_comm g f, h, BitVec.or_zero,
      BitVec.and_comm]
  unfold has
  rw [hand]

theorem has_lower_self (h : f ≠ 0#32) : has (x &&& ~~~f) f = false := by
  have hand : x &&& ~~~f &&& f = 0#32 := by
    rw [BitVec.and_assoc, BitVec.and_comm (~~~f) f, BitVec.and_not_self]
    exact and_zero
  unfold has
  rw [hand, beq_eq_false_iff_ne]
  exact h.symm

theorem has_lower_other {g : Word} (h : ~~~f &&& g = g) : has (x &&& ~~~f) g = has x g := by
  have hand : x &&& ~~~f &&& g = x &&& g := by rw [BitVec.and_assoc, h]
  unfold has
  rw [hand]

section
variable (op : Operation κ)

@[simp] theorem keySet_raise_initialized :
    has (op.raise flagInitialized).handleState flagKeySet = has op.handleState flagKeySet :=
  has_raise_other (by decide)

@[simp] theorem keySet_lower_initialized :
    has (op.lower flagInitialized).handleState flagKeySet = has op.handleState flagKeySet :=
  has_lower_other (by decide)

@[simp] theorem initialized_raise_keySet :
    has (op.raise flagKeySet).handleState flagInitialized = has op.handleState flagInitialized :=
  has_raise_other (by decide)

@[simp] theorem initialized_lower_keySet :
    has (op.lower flagKeySet).handleState flagInitialized = has op.handleState flagInitialized :=
  has_lower_other (by decide)

@[simp] theorem initialized_lower :
    has (op.lower flagInitialized).handleState flagInitialized = false :=
  has_lower_self (by decide)

@[simp] theorem keySet_raise : has (op.raise flagKeySet).handleState flagKeySet = true :=
  has_raise_self _ _

@[simp] theorem keySet_lower : has (op.lower flagKeySet).handleState flagKeySet = false :=
  has_lower_self (by decide)

end

/-! ## Sound handles -/

/-- The context was made from the stored key, after it was stored. -/
def Fresh (op : Operation κ) : Prop :=
  ∀ c, op.cryptoCtxt = some c → c.madeFrom = op.key ∧ op.keyAt < c.madeAt

/-- A recorded size is that of the block, which is not too long to be copied. -/
def Sized (value : Option Block) (size : Nat) : Prop :=
  ∀ b, value = some b → size = b.length ∧ 0 < b.length ∧ b.length ≤ maxSymmetricBufSize

structure KeyPart (op : Operation κ) : Prop where
  set : has op.handleState flagKeySet = true → op.keyValue ≠ none
  clear : has op.handleState flagKeySet = false → op.keyValue = none
  second : op.keyValue2 ≠ none ↔ op.algorithm = algAesXts ∧ op.keyValue ≠ none
  noPair : op.publicKey = none ∧ op.privateKey = none
  size : Sized op.keyValue op.keySize
  size2 : Sized op.keyValue2 op.keySize2

/-- The handle is of one of the classes that take one buffer as a key. -/
def Symmetric (op : Operation κ) : Prop :=
  op.operationClass ∈ symmetricClasses ∧ (op.operationClass = .ae → op.algorithm ≠ algAesXts)

structure Sound (now : Nat) (op : Operation κ) : Prop where
  keys : KeyPart op
  ready : has op.handleState flagInitialized = true →
    has op.handleState flagKeySet = true ∧ op.cryptoCtxt ≠ none ∧ Fresh op
  ae : op.operationClass = .ae → Fresh op
  symmetric : Symmetric op
  max : op.maxKeySize ≤ maxKeySizeInBits
  past : has op.handleState flagKeySet = true → op.keyAt < now
  hal : op.halInfo ≠ none

/-- What a call leaves, when it started at `since`. -/
structure Safe (since : Nat) (s : Local κ) : Prop where
  op : Sound s.clock s.op
  uses : ∀ u ∈ s.uses, u.Proper
  noNull : s.crashed = false
  clock : since ≤ s.clock

/-- Whether it succeeds or fails, the call leaves a sound handle. -/
abbrev Keeps (since : Nat) (x : Call κ α) (s : Local κ) : Prop :=
  Ends x (fun _ t => Safe since t) (fun _ t => Safe since t) s

/-! ## Changes that do not matter -/

/-- The handle without what soundness does not speak of. -/
def Operation.core (op : Operation κ) : Operation κ :=
  { op with
    mode := .encrypt, digestLength := 0, requiredKeyUsage := 0#32, iv := none, ivLen := 0,
    publicKeyLen := 0, privateKeyLen := 0, halInfo := op.halInfo.map fun _ => ⟨0, 0, 0⟩ }

theorem sound_core {now : Nat} : Sound now op.core ↔ Sound now op := by
  have hhal : op.core.halInfo ≠ none ↔ op.halInfo ≠ none := not_congr Option.map_eq_none_iff
  constructor
  · intro h
    have hk := h.keys
    exact { h with keys := { hk with }, hal := hhal.mp h.hal }
  · intro h
    have hk := h.keys
    exact { h with keys := { hk with }, hal := hhal.mpr h.hal }

theorem Sound.setState {now : Nat} (h : Sound now op)
    (hset : has x flagKeySet = has op.handleState flagKeySet)
    (hready : has x flagInitialized = true →
      has op.handleState flagKeySet = true ∧ op.cryptoCtxt ≠ none ∧ Fresh op) :
    Sound now { op with handleState := x } := by
  have hk := h.keys
  rw [← hset] at hready
  exact { h with
    keys := { hk with set := hset ▸ hk.set, clear := hset ▸ hk.clear }
    ready := hready
    past := hset ▸ h.past }

/-- Nothing differs that soundness speaks of. -/
structure Same (s t : Local κ) : Prop where
  op : t.op.core = s.op.core
  uses : t.uses = s.uses
  crashed : t.crashed = s.crashed
  clock : t.clock = s.clock

theorem Same.refl (s : Local κ) : Same s s := ⟨rfl, rfl, rfl, rfl⟩

theorem Same.trans {s t u : Local κ} (h : Same s t) (h' : Same t u) : Same s u :=
  ⟨h'.op.trans h.op, h'.uses.trans h.uses, h'.crashed.trans h.crashed, h'.clock.trans h.clock⟩

theorem Same.handleState {s t : Local κ} (h : Same s t) : t.op.handleState = s.op.handleState := by
  have hcore := congrArg Operation.handleState h.op
  exact hcore

theorem Same.key {s t : Local κ} (h : Same s t) : t.op.key = s.op.key := by
  have hcore := congrArg Operation.key h.op
  exact hcore

namespace Safe

variable {n : Nat} {s t : Local κ}

variable (h : Safe n s) {hal : Hal κ}
include h

theorem of_same (hsame : Same s t) : Safe n t where
  op := by
    rw [← sound_core, hsame.op, hsame.clock, sound_core]
    exact h.op
  uses := hsame.uses ▸ h.uses
  noNull := hsame.crashed.trans h.noNull
  clock := hsame.clock ▸ h.clock

theorem update {f : Operation κ → Operation κ} (hop : Sound s.clock (f s.op)) :
    Safe n (s.update f) :=
  { h with op := hop }

theorem lower : Safe n (s.update (Operation.lower flagInitialized)) := by
  refine h.update (h.op.setState (keySet_lower_initialized _) fun hinit => ?_)
  cases (initialized_lower s.op).symm.trans hinit

theorem raise (hset : has s.op.handleState flagKeySet = true) (hctx : s.op.cryptoCtxt ≠ none)
    (hfresh : Fresh s.op) : Safe n (s.update (Operation.raise flagInitialized)) :=
  h.update (h.op.setState (keySet_raise_initialized _) fun _ => ⟨hset, hctx, hfresh⟩)

theorem free (hinit : has s.op.handleState flagInitialized = false) :
    Safe n (freeOperationCtx hal s) := by
  have hk := h.op.keys
  refine { h with op := ?_ }
  refine ⟨{ hk with }, fun hready => ?_, fun _ => nofun,
    h.op.symmetric, h.op.max, h.op.past, h.op.hal⟩
  have hclear : has s.op.handleState flagInitialized = true := hready
  rw [hinit] at hclear
  cases hclear

/-- Freeing the context and taking the mark back, in either order. -/
theorem free_lower : Safe n ((freeOperationCtx hal s).update (Operation.lower flagInitialized)) :=
  h.lower.free (initialized_lower _)

end Safe
/-! ## The hardware layer -/

section
variable {n : Nat} {s : Local κ} {hal : Hal κ}

theorem Safe.called {r : Returned κ} (h : Safe n s) (hctx : s.op.cryptoCtxt = some c)
    (hfresh : Fresh s.op) : Safe n (s.returned c r) := by
  have hkept : Fresh (setRaw c r.raw s.op) := by
    intro c' hc'
    cases hc'
    exact hfresh c hctx
  have hk := h.op.keys
  refine ⟨⟨{ hk with }, fun hready => ?_, fun _ => hkept,
    h.op.symmetric, h.op.max, h.op.past, h.op.hal⟩, fun u hu => ?_, h.noNull, h.clock⟩
  · exact ⟨(h.op.ready hready).1, nofun, hkept⟩
  · rcases mem_append.mp hu with hold | hnew
    · exact h.uses u hold
    · obtain rfl := mem_singleton.mp hnew
      exact ⟨c, hctx, hfresh c hctx⟩

theorem halCall_ends {req : HalRequest} {Q : Reply → Local κ → Prop} {E : TeeError → Local κ → Prop}
    (hctx : s.op.cryptoCtxt = some c) (hQ : ∀ reply r, Q reply (s.returned c r))
    (hE : ∀ e r, E e (s.returned c r)) : Ends (halCall hal req) Q E s := by
  unfold Ends halCall
  simp only [hctx]
  generalize hal.call c.raw req = r
  cases hr : r.result with
  | error e => exact hE e r
  | ok reply => exact hQ reply r

/-- A context is made from the stored key of a handle that is not marked as initialized. -/
theorem makeCtx_ends {req : InitRequest} {key : Block} {e : TeeError} (h : Safe n s)
    (hinit : has s.op.handleState flagInitialized = false)
    (hset : has s.op.handleState flagKeySet = true) (hkey : key = s.op.key) :
    Ends (makeCtx hal req key e)
      (fun _ t => Safe n t ∧ has t.op.handleState flagKeySet = true ∧ t.op.cryptoCtxt ≠ none ∧
        Fresh t.op)
      (fun _ t => Safe n t ∧ hal.init req = none) s := by
  unfold makeCtx
  simp only [ends_steps]
  refine ⟨fun hnone => ⟨h.free hinit, hnone⟩, fun raw _ => ?_⟩
  have hfresh : Fresh { s.op with cryptoCtxt := some ⟨raw, key, s.clock⟩ } := by
    intro c hc
    cases hc
    exact ⟨hkey, h.op.past hset⟩
  have hk := h.op.keys
  have hlater : s.clock ≤ s.clock + 1 := Nat.le_succ _
  refine ⟨⟨⟨{ hk with }, ?_, fun _ => hfresh,
    h.op.symmetric, h.op.max, fun hs => Nat.lt_succ_of_lt (h.op.past hs), h.op.hal⟩, h.uses,
    h.noNull, h.clock.trans hlater⟩, hset, by simp, hfresh⟩
  intro hready
  exact absurd (hinit.symm.trans hready) (by simp)

end

/-! ## Parts of the calls -/

section
variable {n level : Nat} {s : Local κ} {hal : Hal κ}

variable {table : List OpConfig} {iv src message : Ref} {op : Operation κ} {destData : Bool}

theorem clearOperationIv_core (op : Operation κ) : (clearOperationIv op).core = op.core := by
  unfold clearOperationIv
  split
  · rfl
  · rfl

theorem setOperationIv_ends :
    Ends (setOperationIv iv) (fun _ t => Same s t) (fun _ t => Same s t) s := by
  have hclear : Same s (s.update clearOperationIv) := ⟨clearOperationIv_core s.op, rfl, rfl, rfl⟩
  unfold setOperationIv
  simp only [ends_bind, ends_change, ends_reads, ends_ite, ends_pure, ends_failIf]
  refine ⟨fun _ => hclear, fun hsome => ⟨fun _ => hclear, fun _ => ?_⟩⟩
  refine ends_malloc (fun hzero => hsome (Or.inr hzero)) ?_ fun _ => hclear.trans ⟨rfl, rfl, rfl, rfl⟩
  rw [ends_ofExcept]
  exact ⟨fun _ _ => hclear.trans ⟨rfl, rfl, rfl, rfl⟩, fun _ _ => hclear.trans ⟨rfl, rfl, rfl, rfl⟩⟩

theorem keyBuffer_of_sized {value : Option Block} {size : Nat} (h : Sized value size) :
    keyBuffer value size = value.getD [] := by
  cases value with
  | none => exact take_nil
  | some b =>
    rw [(h b rfl).1]
    exact take_length

theorem key_of_not_xts (h : KeyPart op) (halg : op.algorithm ≠ algAesXts) :
    keyBuffer op.keyValue op.keySize = op.key := by
  have hsecond : op.keyValue2 = none := by
    by_contra hne
    exact halg (h.second.mp hne).1
  rw [keyBuffer_of_sized h.size, Operation.key, hsecond]
  exact (append_nil _).symm

theorem setCipherKey_ends (h : KeyPart s.op) :
    Ends (setCipherKey s.op) (fun key t => Same s t ∧ key = s.op.key) (fun _ t => Same s t) s := by
  unfold setCipherKey
  rw [ends_ite]
  refine ⟨fun _ => ?_, fun halg => ?_⟩
  · unfold setAesXtsKey
    simp only [ends_steps, ends_onError]
    refine ⟨fun _ => .refl s, fun _ => ?_⟩
    by_cases hzero : s.op.keySize + s.op.keySize2 = 0
    · unfold Ends malloc
      rw [if_pos hzero]
      exact .refl s
    · refine ends_malloc hzero ?_ fun _ => ⟨rfl, rfl, rfl, rfl⟩
      refine ⟨fun _ => ⟨rfl, rfl, rfl, rfl⟩, fun _ => ⟨⟨rfl, rfl, rfl, rfl⟩, ?_⟩⟩
      rw [keyBuffer_of_sized h.size, keyBuffer_of_sized h.size2]
      rfl
  · exact ⟨.refl s, key_of_not_xts h halg⟩

theorem doCipherInit_keeps (h : Safe n s) (hinit : has s.op.handleState flagInitialized = false)
    (hset : has s.op.handleState flagKeySet = true) : Keeps n (doCipherInit hal) s := by
  unfold doCipherInit
  simp only [ends_steps]
  refine ⟨fun _ => h, fun info _ => (setCipherKey_ends h.op.keys).imp ?_ fun _ t ht => h.of_same ht⟩
  rintro key t ⟨hsame, hkey⟩
  simp only [ends_always]
  refine (makeCtx_ends (h.of_same hsame) (hsame.handleState ▸ hinit) (hsame.handleState ▸ hset)
    (hkey.trans hsame.key.symm)).imp ?_ ?_
  · rintro _ u ⟨hsafe, hset, hmade, hfresh⟩
    split
    · have hreleased : Safe n (u.release (some (wipe key.length key))) :=
        hsafe.of_same ⟨rfl, rfl, rfl, rfl⟩
      exact hreleased.raise hset hmade hfresh
    · exact hsafe.raise hset hmade hfresh
  · rintro _ u ⟨hsafe, _⟩
    split
    · exact hsafe.of_same ⟨rfl, rfl, rfl, rfl⟩
    · exact hsafe

theorem cipherCheck_initialized (hl : level ≥ apiLevel111)
    (h : cipherUpdateFinalOperationStateCheck op level = .ok ()) :
    has op.handleState flagInitialized = true := by
  unfold cipherUpdateFinalOperationStateCheck at h
  split at h
  · cases h
  · next hready =>
    by_contra hclear
    exact hready ⟨hl, Or.inr (by simpa using hclear)⟩

theorem Safe.report (h : Safe n s) (k : Nat) : Safe n (s.report k) := h.of_same ⟨rfl, rfl, rfl, rfl⟩

/-- What a handle that is marked as initialized gives the hardware layer. -/
theorem Safe.context (h : Safe n s) (hinit : has s.op.handleState flagInitialized = true) :
    ∃ c, s.op.cryptoCtxt = some c ∧ Fresh s.op := by
  obtain ⟨-, hctx, hfresh⟩ := h.op.ready hinit
  obtain ⟨c, hc⟩ := Option.ne_none_iff_exists'.mp hctx
  exact ⟨c, hc, hfresh⟩

theorem checkCipherDestlen_ends {srcLen destLen : Nat} :
    Ends (checkCipherDestlen srcLen destLen) (fun _ t => t = s) (fun _ t => Same s t) s := by
  unfold checkCipherDestlen
  simp only [ends_steps, ends_onError]
  refine ⟨fun _ => .refl s, fun _ _ => ⟨fun _ => ?_, fun _ => trivial⟩⟩
  split
  · exact ⟨rfl, rfl, rfl, rfl⟩
  · exact .refl s

/-- The last call gives the context up, behind the mark. -/
theorem doCipherFinal_keeps {data : Block} {destLen : Nat} (h : Safe n s)
    (hinit : has s.op.handleState flagInitialized = false) (hctx : s.op.cryptoCtxt = some c)
    (hfresh : Fresh s.op) : Keeps n (doCipherFinal hal data destData destLen) s := by
  have hfreed : ∀ r, Safe n (freeOperationCtx hal (s.returned c r)) :=
    fun r => (h.called hctx hfresh).free hinit
  unfold doCipherFinal
  simp only [ends_steps, ends_always]
  apply halCall_ends hctx
  · intro reply r
    exact ⟨fun _ => (hfreed r).of_same ⟨rfl, rfl, rfl, rfl⟩, fun _ => (hfreed r).report reply.size⟩
  · exact fun _ r => hfreed r

theorem configOf_ok {c : OpConfig}
    (h : configOf table op = .ok c) : c ∈ table ∧ c.algorithm = op.algorithm := by
  unfold configOf at h
  cases hfind : table.find? fun c => c.algorithm = op.algorithm with
  | none => rw [hfind] at h; cases h
  | some c' =>
    rw [hfind] at h
    simp only at h
    split at h
    · cases h
    · cases h
      exact ⟨mem_of_find?_eq_some hfind, by simpa using find?_some hfind⟩

theorem initCheckConfig_ok
    (h : initCheckConfig table op iv = .ok ()) : ∃ c ∈ table, c.algorithm = op.algorithm := by
  unfold initCheckConfig at h
  cases hc : configOf table op with
  | error e => rw [hc] at h; cases h
  | ok c => exact ⟨c, configOf_ok hc⟩

theorem macConfig_not_xts : ∀ c ∈ macConfig, c.algorithm ≠ algAesXts := by decide

/-- The hardware layer makes the context that `TEE_MACInit` asks for. -/
def HmacMade (hal : Hal κ) (op : Operation κ) : Prop :=
  isCipherAlgorithm op.algorithm = false → has op.handleState flagKeySet = true →
    ∀ info, op.halInfo = some info →
      hal.init (.hmac op.algorithm (keyBuffer op.keyValue op.keySize) info.cryptoFlag) ≠ none

theorem macCheck_initialized (hl : level ≥ apiLevel111)
    (h : macUpdateFinalOperationStateCheck op level = .ok ()) :
    has op.handleState flagInitialized = true := by
  unfold macUpdateFinalOperationStateCheck at h
  split at h
  · cases h
  split at h
  · cases h
  · split at h
    · cases h
    · next hready =>
      by_contra hclear
      exact hready ⟨hl, by simpa using hclear⟩

/-! ## The cipher and MAC calls -/

variable (h : Safe n s) (hl : level ≥ apiLevel111)
include h hl

theorem initCheck_ends :
    Ends (initOperationStateCheck table level iv)
      (fun _ t => t = s.update (Operation.lower flagInitialized) ∧
        has s.op.handleState flagKeySet = true ∧ s.op.keyValue ≠ none ∧
        initCheckConfig table t.op iv = .ok ())
      (fun _ t => Safe n t) s := by
  unfold initOperationStateCheck
  rw [if_pos hl]
  simp only [ends_steps]
  refine ⟨fun _ => h, fun hset => ⟨fun _ => h.lower, fun hvalue => ⟨fun _ _ => h.lower, ?_⟩⟩⟩
  intro _ hconfig
  exact ⟨trivial, by simpa using hset, hvalue, hconfig⟩

theorem cipherInit_keeps :
    Keeps n (cipherInit hal level iv) s := by
  unfold cipherInit
  rw [Keeps, ends_bind]
  refine (initCheck_ends h hl).imp ?_ fun _ _ ht => ht
  rintro _ _ ⟨rfl, hset, -, -⟩
  rw [ends_bind]
  refine setOperationIv_ends.imp ?_ fun _ _ ht => h.lower.of_same ht
  intro _ t hsame
  rw [ends_always]
  have hinit : has t.op.handleState flagInitialized = false := by
    rw [hsame.handleState]
    exact initialized_lower _
  have hkeySet : has t.op.handleState flagKeySet = true := by
    rw [hsame.handleState]
    exact (keySet_lower_initialized _).trans hset
  refine (doCipherInit_keeps (h.lower.of_same hsame) hinit hkeySet).imp ?_ ?_
  · exact fun _ u hu => hu.of_same ⟨clearOperationIv_core u.op, rfl, rfl, rfl⟩
  · exact fun _ u hu => hu.of_same ⟨clearOperationIv_core u.op, rfl, rfl, rfl⟩

theorem cipherUpdate_keeps :
    Keeps n (cipherUpdate hal level src destData) s := by
  unfold cipherUpdate
  cases src with
  | null k =>
    simp only [ends_steps]
    exact ⟨fun _ => h, fun _ => h.report 0⟩
  | buffer data =>
    simp only [ends_steps, ends_onError]
    refine ⟨fun _ => h.report 0, fun _ => ⟨fun _ _ => h, fun _ hcheck => ⟨fun _ _ => h, fun _ _ => ?_⟩⟩⟩
    obtain ⟨c, hctx, hfresh⟩ := h.context (cipherCheck_initialized hl hcheck)
    apply halCall_ends hctx
    · exact fun reply r => (h.called hctx hfresh).report reply.size
    · exact fun _ r => (h.called hctx hfresh).lower

theorem cipherDoFinal_keeps :
    Keeps n (cipherDoFinal hal level src destData) s := by
  unfold cipherDoFinal
  simp only [ends_steps]
  refine ⟨fun _ => h, fun _ => ⟨fun _ => h, fun destLen _ => ⟨fun _ _ => h, fun _ hcheck => ?_⟩⟩⟩
  refine checkCipherDestlen_ends.imp ?_ fun _ _ ht => h.of_same ht
  rintro _ _ rfl
  obtain ⟨c, hctx, hfresh⟩ := h.context (cipherCheck_initialized hl hcheck)
  exact doCipherFinal_keeps h.lower (initialized_lower _) hctx hfresh

theorem macInit_keeps (hmade : HmacMade hal s.op) :
    Keeps n (macInit hal level iv) s := by
  unfold macInit
  rw [Keeps, ends_bind]
  refine (initCheck_ends h hl).imp ?_ fun _ _ ht => ht
  rintro _ _ ⟨rfl, hset, hvalue, hconfig⟩
  simp only [ends_steps, ends_always]
  refine ⟨fun _ => h.lower, fun info hinfo => ⟨fun _ => cipherInit_keeps h.lower hl, fun hmac => ?_⟩⟩
  obtain ⟨c, hc, halg⟩ := initCheckConfig_ok hconfig
  have hkey := key_of_not_xts h.lower.op.keys (halg ▸ macConfig_not_xts c hc)
  obtain ⟨b, hb⟩ := Option.ne_none_iff_exists'.mp hvalue
  have hsize : s.op.keySize ≠ 0 := by
    have hsized := h.op.keys.size b hb
    omega
  have hsetKey : macInitSetKey (s.op.lower flagInitialized) level iv =
      .ok (keyBuffer s.op.keyValue s.op.keySize) := if_pos ⟨hvalue, hsize⟩
  unfold hmacInitHal
  simp only [ends_steps]
  refine ⟨fun e he => absurd (hsetKey.symm.trans he) (by simp), fun key hok => ?_⟩
  obtain rfl : keyBuffer s.op.keyValue s.op.keySize = key := by
    have heq := hsetKey.symm.trans hok
    cases heq
    rfl
  refine (makeCtx_ends h.lower (initialized_lower _) ((keySet_lower_initialized _).trans hset) hkey).imp
    ?_ ?_
  · rintro _ u ⟨hsafe, hset, hctx, hfresh⟩
    exact hsafe.raise hset hctx hfresh
  · rintro _ u ⟨_, hnone⟩
    exact absurd hnone (hmade (Bool.not_eq_true _ ▸ hmac) hset info hinfo)

theorem macUpdate_keeps {chunk : Ref} :
    Keeps n (macUpdate hal level chunk) s := by
  unfold macUpdate
  cases chunk with
  | null k => exact h
  | buffer data =>
    simp only [ends_steps, ends_onError]
    refine ⟨fun _ => h, fun _ => ⟨fun _ _ => h, fun _ hcheck => ⟨fun _ => ?_, fun _ => ?_⟩⟩⟩
    · exact cipherUpdate_keeps h hl
    · obtain ⟨c, hctx, hfresh⟩ := h.context (macCheck_initialized hl hcheck)
      apply halCall_ends hctx
      · exact fun _ r => h.called hctx hfresh
      · exact fun _ r => (h.called hctx hfresh).lower

theorem macComputeFinal_keeps {mac : Bool} :
    Keeps n (macComputeFinal hal level message mac) s := by
  unfold macComputeFinal
  simp only [ends_steps, ends_always]
  refine ⟨fun _ => h, fun macLen _ => ⟨fun _ => h, fun _ => ⟨fun _ _ => h, fun _ hcheck =>
    ⟨fun _ => cipherDoFinal_keeps h hl, fun _ => ⟨fun _ => h, fun _ => ?_⟩⟩⟩⟩⟩
  obtain ⟨c, hctx, hfresh⟩ := h.context (macCheck_initialized hl hcheck)
  have hdone : ∀ r, Safe n ((freeOperationCtx hal (s.returned c r)).update
      (Operation.lower flagInitialized)) := fun r => (h.called hctx hfresh).free_lower
  unfold hmacDofinalHal
  simp only [ends_steps, ends_always]
  apply halCall_ends hctx
  · exact fun reply r => (hdone r).of_same ⟨rfl, rfl, rfl, rfl⟩
  · exact fun _ r => hdone r

theorem macCompareFinal_keeps {mac : Block} :
    Keeps n (macCompareFinal hal level message mac) s := by
  have hsized : Safe n { s with destLen := some mac.length } := h.of_same ⟨rfl, rfl, rfl, rfl⟩
  unfold macCompareFinal
  simp only [ends_steps]
  refine (macComputeFinal_keeps hsized hl).imp ?_ fun _ _ ht => ht
  exact fun _ t ht => ⟨fun _ => ht, fun _ => ht⟩

end

end TeeOs.Crypto
