import TeeOs.Crypto.SetKey
import TeeOs.Lib.Masks

/-!
# The usage of a key

The usage an operation needs is recorded when it is allocated, from its mode and algorithm,
and looked up again in another table when a key is set. The two agree for most operations.
They do not for key derivation, where the second table asks for the wrong bit, for plain RSA,
where it asks for one more, and for XTS, where nothing is recorded.
-/

namespace TeeOs.Crypto

open TeeOs.Lib

variable {κ : Type}

/-! ## What is recorded at allocation -/

/-- The usage an operation of this mode is allocated with above the lowest level. -/
def recordedUsage (alg : Word) : Mode → Word
  | .encrypt => if alg = algAesXts then 0#32 else usageEncrypt
  | .decrypt => if alg = algAesXts then 0#32 else usageDecrypt
  | .sign => usageSign
  | .verify => usageVerify
  | .mac => usageMac
  | .derive => usageDerive
  | .digest | .unknown => 0#32

/-- The mode under which the algorithms of a mode stand in the table. -/
def Mode.base : Mode → Mode
  | .decrypt => .encrypt
  | .verify => .sign
  | m => m

/-- What a handle keeps from its allocation. -/
structure Allocated (op : Operation κ) : Prop where
  valid : cryptoCheckAlgValid op.algorithm op.mode.base = true
  opClass : op.operationClass = cryptoGetOpClass op.algorithm
  usage : op.requiredKeyUsage = recordedUsage op.algorithm op.mode
  size : op.maxKeySize ≤ maxKeySizeInBits

/-- The fields that no call on a handle changes. -/
structure SameAllocation (op op' : Operation κ) : Prop where
  algorithm : op.algorithm = op'.algorithm
  mode : op.mode = op'.mode
  opClass : op.operationClass = op'.operationClass
  usage : op.requiredKeyUsage = op'.requiredKeyUsage
  size : op.maxKeySize = op'.maxKeySize

variable {mode : Mode} {alg usage : Word} {op op' : Operation κ}

theorem checkAlgorithmValid_ok {level : Nat}
    (hlevel : level > apiLevel10) (h : checkAlgorithmValid level mode alg op = .ok op') :
    cryptoCheckAlgValid alg mode.base = true ∧ op'.requiredKeyUsage = recordedUsage alg mode := by
  cases mode <;> simp only [checkAlgorithmValid, checkDigestAlgValid, checkEncDecAlgValid,
      checkSignVerifyAlgValid, checkMacAlgValid, checkDeriveAlgValid, hlevel, if_true,
      reduceCtorEq, if_false] at h
  all_goals
    split at h
    · next hvalid =>
      refine ⟨hvalid, ?_⟩
      first
        | (split at h <;> next hxts => cases h; simp only [recordedUsage, hxts, if_true, if_false])
        | (cases h; rfl)
    · cases h

theorem allocated_of_ok {level maxKeySize : Nat} {engine : Word → Nat} (hlevel : level > apiLevel10)
    (h : allocateOperation level engine alg mode maxKeySize = .ok op) : Allocated op := by
  obtain ⟨_, hparam, h⟩ := Act.ok_of_bind h
  obtain ⟨op', hvalid, h⟩ := Act.ok_of_bind h
  obtain ⟨hbase, husage⟩ := checkAlgorithmValid_ok hlevel hvalid
  have hsize : maxKeySize ≤ maxKeySizeInBits := by
    unfold checkAllocateParam at hparam
    split at hparam
    · cases hparam
    · omega
  cases h
  exact ⟨hbase, rfl, husage, hsize⟩

theorem Allocated.of_same (h : Allocated op') (hsame : SameAllocation op op') : Allocated op where
  valid := by rw [hsame.algorithm, hsame.mode]; exact h.valid
  opClass := by rw [hsame.opClass, hsame.algorithm]; exact h.opClass
  usage := by rw [hsame.usage, hsame.algorithm, hsame.mode]; exact h.usage
  size := by rw [hsame.size]; exact h.size

theorem mem_algConfig (h : cryptoCheckAlgValid alg mode = true) :
    ∃ c ∈ algConfig, c.alg = alg ∧ c.mode = mode := by
  simp only [cryptoCheckAlgValid, List.any_eq_true, decide_eq_true_eq] at h
  obtain ⟨c, hc, hcalg, hcmode⟩ := h
  exact ⟨c, hc, hcalg.symm, hcmode.symm⟩

/-- An operation that takes a key takes one buffer or a pair. -/
theorem opClassType_of_mode : ∀ c ∈ algConfig, c.mode ≠ .digest →
      getOpClassType (cryptoGetOpClass c.alg) = .symmetric ∨
        getOpClassType (cryptoGetOpClass c.alg) = .asymmetric := by
  decide +kernel

/-! ## The two tables -/

/-- The bit test of the table singles out plain RSA. -/
theorem rsaNopad_of_bits :
    ∀ c ∈ algConfig, c.alg &&& algRsaNopad = c.alg → c.alg = algRsaNopad := by
  decide +kernel

theorem and_algAny (alg : Word) : alg &&& algAny = alg := BitVec.and_allOnes

/-- The usage the second table asks for. -/
def tableUsage (alg : Word) : Mode → Word
  | .encrypt => if alg = algRsaNopad then usageEncrypt ||| usageVerify else usageEncrypt
  | .decrypt => if alg = algRsaNopad then usageDecrypt ||| usageSign else usageDecrypt
  | .sign => usageSign
  | .verify => usageVerify
  | .mac | .derive => usageMac
  | .digest | .unknown => 0#32

theorem usageCheck_iff
    (hvalid : cryptoCheckAlgValid alg mode.base = true) (hmode : mode ≠ .digest) :
    operationModeKeyUsageCheck alg mode usage = .ok () ↔ has usage (tableUsage alg mode) = true := by
  obtain ⟨c, hc, rfl, hcmode⟩ := mem_algConfig hvalid
  have hbits := rsaNopad_of_bits c hc
  obtain ⟨conf, hfind, husage⟩ : ∃ conf, usageConfOf c.alg mode = some conf ∧ conf.usage = tableUsage c.alg mode := by
    by_cases hrsa : c.alg = algRsaNopad
    · rw [hrsa]
      cases mode with
      | digest => exact absurd rfl hmode
      | unknown => exact absurd hcmode (by revert c; decide +kernel)
      | _ => exact ⟨_, rfl, rfl⟩
    · have hne : ¬ c.alg &&& algRsaNopad = c.alg := fun h => hrsa (hbits h)
      cases mode with
      | digest => exact absurd rfl hmode
      | unknown => exact absurd hcmode (by revert c; decide +kernel)
      | _ =>
        simp only [usageConfOf, modeUsageConf, List.find?, hne, and_algAny, reduceCtorEq,
          tableUsage, hrsa, if_false, and_false, false_and, and_self, decide_false, decide_true]
        exact ⟨_, rfl, rfl⟩
  simp only [operationModeKeyUsageCheck, hfind, husage]
  split
  · next hhas => simp only [hhas]
  · next hhas => simp only [reduceCtorEq, hhas]

/-- The recorded usage and the one of the second table ask for the same of this key. -/
def UsageAsRecorded (alg usage : Word) : Mode → Prop
  | .encrypt =>
    (alg = algRsaNopad → has usage usageEncrypt = true → has usage usageVerify = true) ∧
      (alg = algAesXts → has usage usageEncrypt = true)
  | .decrypt =>
    (alg = algRsaNopad → has usage usageDecrypt = true → has usage usageSign = true) ∧
      (alg = algAesXts → has usage usageDecrypt = true)
  | .derive => has usage usageMac = has usage usageDerive
  | _ => True

theorem has_or (usage a b : Word) :
    has usage (a ||| b) = true ↔ has usage a = true ∧ has usage b = true := by
  simp only [has, beq_iff_eq]
  exact Masks.and_or_eq_iff usage a b

theorem has_zero (usage : Word) : has usage 0#32 = true := by
  simp [has]

theorem usageAsRecorded_iff : UsageAsRecorded alg usage mode ↔
      (has usage (tableUsage alg mode) = true ↔ has usage (recordedUsage alg mode) = true) := by
  have hxts : algAesXts ≠ algRsaNopad := by decide
  cases mode with
  | derive => exact Bool.eq_iff_iff
  | encrypt | decrypt =>
    by_cases hr : alg = algRsaNopad
    · simp [UsageAsRecorded, tableUsage, recordedUsage, hr, hxts.symm, has_or]
    · by_cases hx : alg = algAesXts <;>
        simp [UsageAsRecorded, tableUsage, recordedUsage, hr, hx, hxts, has_zero]
  | _ => simp only [UsageAsRecorded, tableUsage, recordedUsage]

end TeeOs.Crypto
