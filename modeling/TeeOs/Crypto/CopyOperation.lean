import TeeOs.Crypto.CipherApi

/-!
# Resetting and copying operations

`TEE_ResetOperation`, and `TEE_CopyOperation` as a call on the destination that reads the
source. The history of a copied key and context is that of the source's.
-/

namespace TeeOs.Crypto

open TeeOs.Lib Act

variable {κ : Type}

variable (hal : Hal κ) (s : Local κ) (src : Operation κ)

def resetOperation (level : Nat) : Call κ Unit := do
  let op ← reads Local.op
  failIf (level ≥ apiLevel111 ∧ has op.handleState flagKeySet = false) .badState
  change (freeOperationCtx hal)
  let info ← get? op.halInfo .badParameters
  change (Local.update fun op => { op with halInfo := some { info with digestallocFlag := 0 } })
  if op.operationClass ≠ .digest then
    change (Local.update (Operation.lower flagInitialized))

def checkAndCopyHalInfo : Call κ Unit := do
  let dst ← reads Local.op
  failIf dst.halInfo.isNone .generic
  let info ← get? src.halInfo .generic
  failIf (dst.mode ≠ src.mode ∨ dst.algorithm ≠ src.algorithm) .generic
  failIf (src.keySize > dst.maxKeySize) .generic
  change (Local.update fun op => { op with halInfo := some info })

def maxSymmetricBufSize : Nat := 1024

/-- `copy_symmetric_buf_info` behind the free of the old buffer; `set` writes the buffer and
its size. What is too long is not copied. -/
def copySymmetricBufInfo (set : Option Block → Nat → Operation κ → Operation κ)
    (src : Option Block) (srcSize : Nat) : Call κ Unit := do
  change (Local.update (set none 0))
  match src with
  | none => pure ()
  | some bytes =>
    if srcSize = 0 ∨ srcSize > maxSymmetricBufSize then pure ()
    else
      let _ ← malloc srcSize .outOfMemory
      change (Local.update (set (some (bytes.take srcSize)) srcSize))

variable (value : Option Block) (size : Nat) (op : Operation κ)

def setKeyValue : Operation κ :=
  { op with keyValue := value, keySize := size }

def setKeyValue2 : Operation κ :=
  { op with keyValue2 := value, keySize2 := size }

def setIv : Operation κ :=
  { op with iv := value, ivLen := size }

/-- A key is erased over the length that is recorded for it, and freed. -/
def dropKeyValue : Local κ :=
  (s.release (s.op.keyValue.map (wipe s.op.keySize))).update fun op => { op with keyValue := none }

def dropKeyValue2 : Local κ :=
  (s.release (s.op.keyValue2.map (wipe s.op.keySize2))).update fun op => { op with keyValue2 := none }

/-- `copy_symmetric_key_iv`; the old keys of the destination are freed as they are. -/
def copySymmetricKeyIv : Call κ Unit := do
  change fun s => s.release s.op.keyValue
  copySymmetricBufInfo setKeyValue src.keyValue src.keySize
  change fun s => s.release s.op.keyValue2
  onError (copySymmetricBufInfo setKeyValue2 src.keyValue2 src.keySize2) dropKeyValue
  onError (copySymmetricBufInfo setIv src.iv src.ivLen) fun s => dropKeyValue2 (dropKeyValue s)

def cleanOperationKey : Local κ :=
  let s := if s.op.publicKeyLen ≠ 0 then s.update fun op => { op with publicKey := none } else s
  if s.op.privateKeyLen ≠ 0 then
    (s.release (s.op.privateKey.map (wipe s.op.privateKeyLen))).update fun op =>
      { op with privateKey := none }
  else s

def copyCryptoKeypair : Call κ Unit := do
  change cleanOperationKey
  if src.publicKey ≠ none ∧ src.publicKeyLen ≠ 0 then
    let _ ← malloc src.publicKeyLen .outOfMemory
    change (Local.update fun op =>
      { op with publicKey := src.publicKey, publicKeyLen := src.publicKeyLen })
  if src.privateKey ≠ none ∧ src.privateKeyLen ≠ 0 then
    let _ ← onError (malloc src.privateKeyLen .outOfMemory) fun s =>
      if src.publicKey ≠ none ∧ src.publicKeyLen ≠ 0 then
        s.update fun op => { op with publicKey := none, publicKeyLen := 0 }
      else s
    change (Local.update fun op =>
      { op with privateKey := src.privateKey, privateKeyLen := src.privateKeyLen })

/-- The size of `struct ctx_handle_t`. -/
def ctxHandleSize : Nat := 112

def copyCryptoHalCtx : Call κ Unit := do
  change (freeOperationCtx hal)
  match src.cryptoCtxt with
  | none => pure ()
  | some c =>
    let _ ← malloc ctxHandleSize .outOfMemory
    change (Local.releaseAll (hal.copy c.raw).2)
    let raw ← ofExcept (hal.copy c.raw).1
    change (Local.update (setRaw c raw))

/-- The cleanup of `copy_crypto_hal_operation`. -/
def dropPair : Local κ :=
  (s.release (s.op.privateKey.map (wipe s.op.privateKeyLen))).update fun op =>
    { op with publicKey := none, publicKeyLen := 0, privateKey := none, privateKeyLen := 0 }

def copyCryptoHalOperation : Call κ Unit := do
  copyCryptoKeypair src
  onError (copyCryptoHalCtx hal src) dropPair

/-- `clear_all_info`, which leaves the state of the handle as it is. -/
def clearAllInfo : Local κ :=
  freeOperationCtx hal ((dropKeyValue2 (dropKeyValue s)).update fun op => { op with iv := none })

/-- `TEE_CopyOperation` behind the check of the two handles. -/
def copyOperation : Call κ Unit := do
  checkAndCopyHalInfo src
  onError
    (do
      copySymmetricKeyIv src
      copyCryptoHalOperation hal src)
    (clearAllInfo hal)
  change (Local.update fun op =>
    { op with
      operationClass := src.operationClass
      digestLength := src.digestLength
      requiredKeyUsage := src.requiredKeyUsage
      handleState := src.handleState
      keySize := src.keySize
      keyAt := src.keyAt })

end TeeOs.Crypto
