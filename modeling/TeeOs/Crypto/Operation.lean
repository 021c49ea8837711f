import TeeOs.Crypto.Alg
import TeeOs.Lib.Act

/-!
# Operation handles

The handle of `TEE_AllocateOperation`. A block of memory is the list of its bytes, and a
pointer that owns one is an optional block. Besides the handle, a call sees the answers of
the allocator, and some things are recorded that the code does not keep: the content of
each block with a secret when it is freed, the contexts the hardware layer is called with,
the time of the last change of the key, and whether a null pointer was followed.
-/

namespace TeeOs.Crypto

open TeeOs.Lib

abbrev Block := List UInt8

def usageEncrypt : Word := 0x2#32
def usageDecrypt : Word := 0x4#32
def usageMac : Word := 0x8#32
def usageSign : Word := 0x10#32
def usageVerify : Word := 0x20#32
def usageDerive : Word := 0x40#32

def flagInitialized : Word := 0x20000#32
def flagKeySet : Word := 0x40000#32
def flagExpectTwoKeys : Word := 0x80000#32

/-- All bits of the flag are set. -/
def has (state flag : Word) : Bool := state &&& flag == flag

/-! ## The handle -/

/-- A context of the hardware layer, with the key it was made from and the time it was made
at. -/
structure Ctx (κ : Type) where
  raw : κ
  madeFrom : Block
  madeAt : Nat

structure HalInfo where
  cryptoFlag : Nat
  digestallocFlag : Nat
  cipherUpdateLen : Nat

/-- `struct __TEE_OperationHandle`; `keyAt` is the time of the last change of the key. -/
structure Operation (κ : Type) where
  algorithm : Word
  operationClass : OperationClass
  mode : Mode
  digestLength : Nat
  maxKeySize : Nat
  keySize : Nat
  keySize2 : Nat
  requiredKeyUsage : Word
  handleState : Word
  keyValue : Option Block
  keyValue2 : Option Block
  cryptoCtxt : Option (Ctx κ)
  iv : Option Block
  ivLen : Nat
  publicKey : Option Block
  publicKeyLen : Nat
  privateKey : Option Block
  privateKeyLen : Nat
  halInfo : Option HalInfo
  keyAt : Nat

variable {κ : Type}

/-- The key that is stored; two keys are used one behind the other. -/
def Operation.key (op : Operation κ) : Block := op.keyValue.getD [] ++ op.keyValue2.getD []

def Operation.NoKey (op : Operation κ) : Prop :=
  op.keyValue = none ∧ op.keyValue2 = none ∧ op.publicKey = none ∧ op.privateKey = none

instance (op : Operation κ) : Decidable op.NoKey := instDecidableAnd

def Operation.raise (flag : Word) (op : Operation κ) : Operation κ :=
  { op with handleState := op.handleState ||| flag }

def Operation.lower (flag : Word) (op : Operation κ) : Operation κ :=
  { op with handleState := op.handleState &&& ~~~flag }

/-- A call of the hardware layer: the context it is given, and the key stored at that time
with the time it was set at. -/
structure Use (κ : Type) where
  ctx : Option (Ctx κ)
  key : Block
  keyAt : Nat

/-- What a call on a handle sees and changes: the handle, the answers of the allocator, the
lengths the caller passes by pointer, and what is recorded. -/
structure Local (κ : Type) where
  op : Operation κ
  answers : List Bool
  destLen : Option Nat
  tagLen : Option Nat
  clock : Nat
  released : List Block
  uses : List (Use κ)
  crashed : Bool

abbrev Call (κ α : Type) : Type := Act (Local κ) TeeError α

namespace Local

def update (f : Operation κ → Operation κ) (s : Local κ) : Local κ := { s with op := f s.op }

/-- The block is freed as it is. -/
def release (b : Option Block) (s : Local κ) : Local κ :=
  { s with released := s.released ++ b.toList }

/-- The key of the handle was changed. -/
def tick (s : Local κ) : Local κ :=
  { s with op := { s.op with keyAt := s.clock }, clock := s.clock + 1 }

end Local

/-- `memset_s` with zeros over the first `n` bytes of a block. -/
def wipe (n : Nat) (b : Block) : Block := List.replicate (min n b.length) 0 ++ b.drop n

/-- `TEE_Malloc` with zeros, with the error the caller answers instead of a null pointer. The
allocator gives its next answer, and memory where none is left. -/
def malloc (n : Nat) (e : TeeError) : Call κ Block := fun s =>
  if n = 0 then (.error e, s)
  else if s.answers.headD true then
    (.ok (List.replicate n 0), { s with answers := s.answers.tail })
  else (.error e, { s with answers := s.answers.tail })

/-! ## Allocation -/

def maxKeySizeInBits : Nat := 1024 * 8

/-- `g_output_lower_limit`, without the algorithms that are not allocated. -/
def outputLowerLimit : List (Word × Nat) :=
  [(algSha256, 32), (algSha384, 48), (algSha512, 64), (algSm3, 32), (algHmacSha1, 20),
    (algHmacSha256, 32), (algHmacSha384, 48), (algHmacSha512, 64), (algHmacSm3, 32),
    (algAesCmac, 16), (algAesCbcMacNopad, 16), (algSipHash, 8)]

variable (level : Nat) (alg : Word) (mode : Mode) (op : Operation κ)

def cryptoGetOutputLength : Nat :=
  match outputLowerLimit.find? fun c => c.1 = alg with
  | some c => c.2
  | none => 0

def checkValidKeySizeForAlgorithm (maxKeySize : Nat) : Except TeeError Unit :=
  if level = apiLevel10 then checkLowLevKeySizeForAlg alg maxKeySize
  else cryptoCheckKeysize alg maxKeySize

def checkAllocateParam (maxKeySize : Nat) : Except TeeError Unit :=
  if maxKeySize > maxKeySizeInBits then .error .badParameters
  else
    match checkValidKeySizeForAlgorithm level alg maxKeySize with
    | .error _ => .error .notSupported
    | .ok () => checkIfUnsafeAlg alg (if level = apiLevel10 then maxKeySize * 8 else maxKeySize)

/-- A handle as `TEE_Malloc` gives it. -/
def freshOperation : Operation κ where
  algorithm := 0#32
  operationClass := .invalid
  mode := .encrypt
  digestLength := 0
  maxKeySize := 0
  keySize := 0
  keySize2 := 0
  requiredKeyUsage := 0#32
  handleState := 0#32
  keyValue := none
  keyValue2 := none
  cryptoCtxt := none
  iv := none
  ivLen := 0
  publicKey := none
  publicKeyLen := 0
  privateKey := none
  privateKeyLen := 0
  halInfo := none
  keyAt := 0

def checkDigestAlgValid : Except TeeError (Operation κ) :=
  if cryptoCheckAlgValid alg .digest then
    .ok { op.raise (flagKeySet ||| flagInitialized) with
      requiredKeyUsage := if level > apiLevel10 then 0#32 else usageMac,
      digestLength := cryptoGetOutputLength alg }
  else .error .notSupported

def checkEncDecAlgValid : Except TeeError (Operation κ) :=
  if cryptoCheckAlgValid alg .encrypt then
    let usage := if mode = .encrypt then usageEncrypt else usageDecrypt
    if alg = algAesXts then
      .ok { op.raise flagExpectTwoKeys with
        requiredKeyUsage := if level > apiLevel10 then 0#32 else usage }
    else .ok { op with requiredKeyUsage := usage }
  else .error .notSupported

def checkSignVerifyAlgValid : Except TeeError (Operation κ) :=
  if cryptoCheckAlgValid alg .sign then
    .ok { op with requiredKeyUsage := if mode = .sign then usageSign else usageVerify }
  else .error .notSupported

def checkMacAlgValid : Except TeeError (Operation κ) :=
  if cryptoCheckAlgValid alg .mac then
    .ok { op with requiredKeyUsage := usageMac, digestLength := cryptoGetOutputLength alg }
  else .error .notSupported

def checkDeriveAlgValid : Except TeeError (Operation κ) :=
  if cryptoCheckAlgValid alg .derive then .ok { op with requiredKeyUsage := usageDerive }
  else .error .notSupported

def checkAlgorithmValid (alg : Word) (op : Operation κ) : Except TeeError (Operation κ) :=
  match mode with
  | .digest => checkDigestAlgValid level alg op
  | .encrypt | .decrypt => checkEncDecAlgValid level alg mode op
  | .sign | .verify => checkSignVerifyAlgValid alg mode op
  | .mac => checkMacAlgValid alg op
  | .derive => checkDeriveAlgValid alg op
  | .unknown => .error .notSupported

/-- `TEE_AllocateOperation`, where memory is found; `engine` is the table of the default
engines. -/
def allocateOperation (engine : Word → Nat) (alg : Word) (mode : Mode)
    (maxKeySize : Nat) : Except TeeError (Operation κ) := do
  checkAllocateParam level alg maxKeySize
  let op ← checkAlgorithmValid level mode alg freshOperation
  .ok { op with
    operationClass := cryptoGetOpClass alg
    halInfo := some { cryptoFlag := engine alg, digestallocFlag := 0, cipherUpdateLen := 0 }
    algorithm := alg
    mode := mode
    maxKeySize := maxKeySize }

/-! ## Resetting the key, and what is reported -/

def resetOperationKey (s : Local κ) : Local κ :=
  let op := s.op
  let s := s.release (op.keyValue.map (wipe op.keySize))
  let s := s.release (op.keyValue2.map (wipe op.keySize2))
  let s := s.release (op.privateKey.map (wipe op.privateKeyLen))
  { s with
    op := { op.lower flagKeySet with
      keyValue := none, keyValue2 := none, privateKey := none, publicKey := none,
      keySize := 0, keySize2 := 0, publicKeyLen := 0, privateKeyLen := 0 } }

structure OperationInfo where
  algorithm : Word
  mode : Mode
  operationClass : OperationClass
  digestLength : Nat
  maxKeySize : Nat
  keySize : Nat
  requiredKeyUsage : Word
  handleState : Word

/-- `get_operation_key_size_in_byte`, which gives bits. -/
def getOperationKeySizeInByte (keySize : Nat) (alg : Word) : Nat :=
  if keySize = 66 ∧ alg ∈ [algEcdsaSha512, algEcdhP521, algEcdhDerive] then 521 else keySize * 8

/-- `TEE_GetOperationInfo`; nothing is reported for a key size that does not fit. -/
def getOperationInfo : Option OperationInfo :=
  if op.keySize > (2^32 - 1) / 8 then none
  else
    some
      { algorithm := op.algorithm
        mode := op.mode
        operationClass := op.operationClass
        digestLength := op.digestLength
        maxKeySize := op.maxKeySize
        keySize :=
          if level = apiLevel10 then op.keySize
          else if op.algorithm = algAesXts then 0
          else getOperationKeySizeInByte op.keySize op.algorithm
        requiredKeyUsage := op.requiredKeyUsage
        handleState := op.handleState }

end TeeOs.Crypto
