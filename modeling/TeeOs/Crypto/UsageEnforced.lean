import TeeOs.Crypto.KeySetting

/-!
# Enforcement of the usage of keys

Setting a key has to accept exactly the keys that the usage recorded at allocation permits,
and a refusal has to leave the handle without a key. The two usage tables do not agree, the
size of a key may be cut off, and a call may be refused before the old key is erased.
-/

namespace TeeOs.Crypto

open TeeOs.Lib

variable {κ : Type}

/-- How a call that sets a key has to end. -/
structure Enforced (permitted fitting : Prop) (r : Except TeeError Unit × Local κ) : Prop where
  only : r.1 = .ok () → permitted
  every : fitting → r.1 = .ok ()
  refused : r.1 ≠ .ok () → r.2.op.NoKey

/-- The same handle, with other answers of the allocator. -/
def Local.given (s : Local κ) (answers : List Bool) : Local κ := { s with answers := answers }

variable {s : Local κ} {key : KeyObject} {level : Nat} {gen : Call κ Unit} {op : Operation κ}

/-- A call that accepts what it should, whatever the allocator answers. -/
theorem enforced_iff {permitted fitting accepted checked : Prop} {x : Call κ Unit}
    (hchecked : accepted → checked)
    (h : ∀ answers, Ends x (fun _ _ => accepted) (fun _ t =>
      (¬ checked ∧ t = s.given answers ∨ checked ∧ t.op.NoKey) ∧
        ¬ (accepted ∧ Granted (s.given answers))) (s.given answers)) :
    (∀ answers, Enforced permitted (fitting ∧ Granted (s.given answers)) (x (s.given answers))) ↔
      (accepted → permitted) ∧ (fitting → accepted) ∧ (¬ checked → s.op.NoKey) := by
  constructor
  · intro henforced
    -- an allocator that refuses nothing
    have hends := h []
    have hrun := henforced []
    have hgranted : Granted (s.given []) := nofun
    unfold Ends at hends
    generalize x (s.given []) = r at hends hrun
    obtain ⟨e | a, t⟩ := r
    · refine ⟨fun hacc => absurd ⟨hacc, hgranted⟩ hends.2, fun hfit => ?_, fun hnot => ?_⟩
      · cases hrun.every ⟨hfit, hgranted⟩
      · rcases hends.1 with ⟨-, rfl⟩ | ⟨hok, -⟩
        · exact hrun.refused nofun
        · exact absurd hok hnot
    · exact ⟨fun _ => hrun.only rfl, fun _ => hends, fun hnot => absurd (hchecked hends) hnot⟩
  · rintro ⟨honly, hevery, hearly⟩ answers
    have hends := h answers
    unfold Ends at hends
    generalize x (s.given answers) = r at hends ⊢
    obtain ⟨e | a, t⟩ := r
    · refine ⟨nofun, fun hfit => absurd ⟨hevery hfit.1, hfit.2⟩ hends.2, fun _ => ?_⟩
      rcases hends.1 with ⟨hnot, rfl⟩ | ⟨-, hnokey⟩
      · exact hearly hnot
      · exact hnokey
    · exact ⟨fun _ => honly hends, fun _ => rfl, fun hne => absurd rfl hne⟩

/-- The condition on a key and the handle it is set for. -/
structure OneKeyCondition (level : Nat) (op : Operation κ) (key : KeyObject) : Prop where
  usage : ∀ info, Fitting SizeFits level op 0#32 key info →
    UsageAsRecorded op.algorithm info.objectUsage op.mode
  erased : setOperationKeyStateCheck op level ≠ .ok () → op.NoKey
  short : ∀ info, Accepted level op (tableUsage op.algorithm op.mode) key info →
    Short key (getOpClassType op.operationClass)

/-- The condition on two keys and the handle they are set for. -/
structure TwoKeyCondition (level : Nat) (op : Operation κ) (key1 key2 : Option KeyObject) :
    Prop where
  usage : ∀ k1 k2 a1 a2 i1 i2, key1 = some k1 → key2 = some k2 →
    FittingTwo SizeFits level op 0#32 k1 k2 a1 a2 i1 i2 →
    UsageAsRecorded op.algorithm i1.objectUsage op.mode ∧
      UsageAsRecorded op.algorithm i2.objectUsage op.mode
  erased : ¬ TwoKeysChecked level op key1 key2 → op.NoKey
  short : ∀ k1 k2 a1 a2 i1 i2, key1 = some k1 → key2 = some k2 →
    FittingTwo SizePasses level op (tableUsage op.algorithm op.mode) k1 k2 a1 a2 i1 i2 →
    Short k1 .symmetric ∧ Short k2 .symmetric

theorem has_table_iff {usage : Word} (ha : Allocated op)
    (h : UsageAsRecorded op.algorithm usage op.mode) :
    has usage (tableUsage op.algorithm op.mode) = true ↔ has usage op.requiredKeyUsage = true := by
  rw [ha.usage]
  exact usageAsRecorded_iff.mp h

theorem Fitting.any {usage : Word} {info : ObjectInfo} (h : Fitting SizeFits level op usage key info) :
    Fitting SizeFits level op 0#32 key info :=
  { h with allowed := has_zero _ }

section

variable (ha : Allocated op)
include ha

/-- What is accepted is permitted and what fits is accepted, exactly if the two tables agree
about a key that fits otherwise and no accepted key is too long. -/
theorem oneKey_iff :
    ((∃ info, Accepted level op (tableUsage op.algorithm op.mode) key info) →
        Permitted op op.requiredKeyUsage key (getOpClassType op.operationClass)) ∧
      ((∃ info, Fitting SizeFits level op op.requiredKeyUsage key info) →
        ∃ info, Accepted level op (tableUsage op.algorithm op.mode) key info) ∧
      (¬ setOperationKeyStateCheck op level = .ok () → op.NoKey) ↔ OneKeyCondition level op key := by
  constructor
  · rintro ⟨honly, hevery, hearly⟩
    refine ⟨fun info hfit => ?_, hearly, fun info hacc => ?_⟩
    · rw [usageAsRecorded_iff, ← ha.usage]
      constructor
      · intro hhas
        have hfits : Fitting SizeFits level op _ key info := { hfit with allowed := hhas }
        obtain ⟨i, hi, hallowed, -⟩ := honly ⟨info, hfits.accepted ha⟩
        obtain rfl := Option.mem_unique hfit.suits.object hi
        exact hallowed
      · intro hhas
        obtain ⟨i, hacc⟩ := hevery ⟨info, { hfit with allowed := hhas }⟩
        obtain rfl := Option.mem_unique hfit.suits.object hacc.suits.object
        exact hacc.allowed
    · obtain ⟨-, -, -, -, hsize⟩ := honly ⟨info, hacc⟩
      exact hsize.short ha
  · intro hcond
    refine ⟨?_, ?_, hcond.erased⟩
    · rintro ⟨info, hacc⟩
      have hfit := hacc.fitting (hcond.short info hacc)
      have hhas := (has_table_iff ha (hcond.usage info hfit.any)).mp hacc.allowed
      exact ⟨info, hfit.suits.object, hhas, hfit.suits.kind, hfit.suits.size⟩
    · rintro ⟨info, hfit⟩
      have hhas := (has_table_iff ha (hcond.usage info hfit.any)).mpr hfit.allowed
      have hfits : Fitting SizeFits level op _ key info := { hfit with allowed := hhas }
      exact ⟨info, hfits.accepted ha⟩

/-- Nothing is recorded for an operation that takes two keys. -/
theorem requiredKeyUsage_of_state2 (h : setOperationKey2StateCheck op level = .ok ()) :
    op.requiredKeyUsage = 0#32 := by
  have hvalid := ha.valid
  unfold setOperationKey2StateCheck at h
  split at h
  · cases h
  next halg =>
  rw [ha.usage, not_not.mp halg]
  rw [not_not.mp halg] at hvalid
  generalize op.mode = mode at hvalid ⊢
  cases mode with
  | encrypt | decrypt | digest | unknown => rfl
  | sign | verify | mac | derive => exact absurd hvalid (by decide)

theorem twoKeys_iff {key1 key2 : Option KeyObject} :
    (AcceptedPair level op (tableUsage op.algorithm op.mode) key1 key2 →
        PermittedTwo op op.requiredKeyUsage key1 key2) ∧
      (FittingPair level op op.requiredKeyUsage key1 key2 →
        AcceptedPair level op (tableUsage op.algorithm op.mode) key1 key2) ∧
      (¬ TwoKeysChecked level op key1 key2 → op.NoKey) ↔ TwoKeyCondition level op key1 key2 := by
  constructor
  · rintro ⟨honly, hevery, hearly⟩
    refine ⟨?_, hearly, ?_⟩
    · rintro k1 k2 a1 a2 i1 i2 rfl rfl hfit
      -- every such pair has the usage recorded, so it is accepted
      have hzero := requiredKeyUsage_of_state2 ha hfit.state
      have hboth : has i1.objectUsage (tableUsage op.algorithm op.mode) = true ∧
          has i2.objectUsage (tableUsage op.algorithm op.mode) = true := by
        rcases hevery ⟨k1, k2, a1, a2, i1, i2, rfl, rfl, hzero ▸ hfit⟩ with
          ⟨hnone, -⟩ | ⟨k1', k2', _, _, j1, j2, hk1, hk2, hacc⟩
        · cases hnone
        · obtain rfl := Option.some.inj hk1
          obtain rfl := Option.some.inj hk2
          obtain rfl := Option.mem_unique hfit.suits1.object hacc.suits1.object
          obtain rfl := Option.mem_unique hfit.suits2.object hacc.suits2.object
          exact ⟨hacc.allowed1, hacc.allowed2⟩
      rw [usageAsRecorded_iff, usageAsRecorded_iff, ← ha.usage, hzero]
      exact ⟨iff_of_true hboth.1 (has_zero _), iff_of_true hboth.2 (has_zero _)⟩
    · rintro k1 k2 a1 a2 i1 i2 rfl rfl hacc
      have hpermitted := honly (.inr ⟨k1, k2, a1, a2, i1, i2, rfl, rfl, hacc⟩)
      obtain ⟨-, -, -, -, hsize1⟩ := hpermitted k1 (.inl rfl)
      obtain ⟨-, -, -, -, hsize2⟩ := hpermitted k2 (.inr rfl)
      exact ⟨hsize1.short ha, hsize2.short ha⟩
  · intro hcond
    refine ⟨?_, ?_, hcond.erased⟩
    · rintro (⟨rfl, rfl, -⟩ | ⟨k1, k2, a1, a2, i1, i2, rfl, rfl, hacc⟩)
      · rintro k (hk | hk)
        · cases hk
        · cases hk
      obtain ⟨hshort1, hshort2⟩ := hcond.short _ _ _ _ _ _ rfl rfl hacc
      have hfit := hacc.imp (objectKeySize_iff hshort1).mp (objectKeySize_iff hshort2).mp
      have hzero := requiredKeyUsage_of_state2 ha hacc.state
      rw [hzero]
      rintro k (hk | hk)
      · obtain rfl := Option.some.inj hk
        exact ⟨i1, hfit.suits1.object, has_zero _, hfit.suits1.kind, hfit.suits1.size⟩
      · obtain rfl := Option.some.inj hk
        exact ⟨i2, hfit.suits2.object, has_zero _, hfit.suits2.kind, hfit.suits2.size⟩
    · rintro ⟨k1, k2, a1, a2, i1, i2, rfl, rfl, hfit⟩
      have hzero := requiredKeyUsage_of_state2 ha hfit.state
      obtain ⟨husage1, husage2⟩ := hcond.usage _ _ _ _ _ _ rfl rfl (hzero ▸ hfit)
      have hfits : FittingTwo SizeFits level op (tableUsage op.algorithm op.mode) k1 k2 a1 a2 i1 i2 :=
        { hfit with
          allowed1 := (has_table_iff ha husage1).mpr hfit.allowed1
          allowed2 := (has_table_iff ha husage2).mpr hfit.allowed2 }
      exact .inr ⟨k1, k2, a1, a2, i1, i2, rfl, rfl, hfits.imp (·.passes ha) (·.passes ha)⟩

end

/-- A handle as a call finds it, with memory at its disposal. -/
def atRest (op : Operation κ) : Local κ := ⟨op, [], none, none, 0, [], [], false⟩

def aesOperation : Operation Unit :=
  { freshOperation with
    algorithm := algAesEcbNopad
    operationClass := .cipher
    requiredKeyUsage := usageEncrypt
    maxKeySize := 128
    halInfo := some ⟨0, 0, 0⟩ }

def aesKey (usage : Word) : KeyObject where
  listed := true
  objectInfo := some ⟨typeAes, usage, flagInitialized⟩
  attributes := some ⟨⟨0xC0000000#32, .buffer (List.replicate 16 7)⟩, [], 1⟩
  crtMode := false

def dhOperation : Operation Unit :=
  { freshOperation with
    algorithm := algDhDerive
    operationClass := .keyDerivation
    mode := .derive
    requiredKeyUsage := usageDerive
    maxKeySize := 256
    halInfo := some ⟨0, 0, 0⟩ }

def dhKey (usage : Word) : KeyObject where
  listed := true
  objectInfo := some ⟨typeDhKeypair, usage, flagInitialized⟩
  attributes := some
    { first := ⟨0xD0001032#32, .buffer (List.replicate 32 1)⟩
      rest := [⟨0xD0001232#32, .buffer [2]⟩, ⟨attrDhPublicValue, .buffer (List.replicate 32 3)⟩,
        ⟨attrDhPrivateValue, .buffer (List.replicate 32 4)⟩]
      attributesLen := 4 }
  crtMode := false

end TeeOs.Crypto
