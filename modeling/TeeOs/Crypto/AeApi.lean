import TeeOs.Crypto.CipherApi

/-!
# Authenticated encryption

`TEE_AEInit`, `TEE_AEUpdateAAD`, `TEE_AEUpdate`, `TEE_AEEncryptFinal` and
`TEE_AEDecryptFinal`. These calls ask for a key only, and not whether the handle is marked as
initialized.
-/

namespace TeeOs.Crypto

open TeeOs.Lib Act

variable {κ : Type}

structure AeConfig where
  algorithm : Word
  expectNonce : List Nat
  expectTag : List Nat

def gcmNonces : List Nat := [7, 12]
def gcmTags : List Nat := [12, 13, 14, 15, 16]

/-- `g_ae_config`, whose entries all expect the class of authenticated encryption and the
modes of encryption and decryption. -/
def aeConfig : List AeConfig := [
  ⟨algAesGcm, gcmNonces, gcmTags⟩,
  ⟨algAesCcm, [7, 8, 9, 10, 11, 12, 13], [4, 6, 8, 10, 12, 14, 16]⟩,
  ⟨algSm4Gcm, gcmNonces, gcmTags⟩]

variable (op : Operation κ) (hal : Hal κ) (level : Nat)

/-- The entry of the algorithm, where class and mode are the expected ones. -/
def aeConfigOf : Except TeeError AeConfig :=
  match aeConfig.find? fun c => c.algorithm = op.algorithm with
  | none => .error .badParameters
  | some c =>
    if op.operationClass ≠ .ae ∨ (op.mode ≠ .encrypt ∧ op.mode ≠ .decrypt) then
      .error .badParameters
    else .ok c

def aeInitOperationError : Except TeeError Unit :=
  if has op.handleState flagKeySet = false then .error .badState
  else if has op.handleState flagInitialized then .error .badState
  else if op.keyValue = none then .error .badParameters
  else .ok ()

def aeInitCheckConfig (tagLen nonceLen : Nat) : Except TeeError Unit :=
  match aeConfigOf op with
  | .error e => .error e
  | .ok c =>
    if nonceLen ∉ c.expectNonce then .error .badParameters
    else if tagLen ∉ c.expectTag then .error .notSupported
    else .ok ()

def aeInit (nonce : Ref) (tagLen aadLen payloadLen : Nat) : Call κ Unit := do
  match nonce with
  | .null _ => fail .badParameters
  | .buffer nonce =>
    let tagLen := if level ≥ apiLevel111 then tagLen / 8 else tagLen
    let op ← reads Local.op
    if level > apiLevel10 then ofExcept (aeInitOperationError op)
    ofExcept (aeInitCheckConfig op tagLen nonce.length)
    change (Local.update fun op => { op with digestLength := tagLen })
    let info ← get? op.halInfo .badParameters
    let key := keyBuffer op.keyValue op.keySize
    makeCtx hal
      (.ae op.algorithm (decide (op.mode ≠ .encrypt)) key nonce tagLen aadLen payloadLen
        info.cryptoFlag)
      key .notSupported

def aeUpdateCheck : Except TeeError Unit :=
  if has op.handleState flagKeySet = false then .error .badState
  else
    match aeConfigOf op with
    | .error e => .error e
    | .ok _ => .ok ()

def aeUpdateAadCheck : Except TeeError Unit :=
  if level > apiLevel111 ∧ has op.handleState flagInitialized then .error .badState
  else aeUpdateCheck op

def aeUpdateAad (aad : Ref) : Call κ Unit := do
  let op ← reads Local.op
  if (op.algorithm = algAesGcm ∨ op.algorithm = algSm4Gcm) ∧ level = apiLevel10 then pure ()
  else
    match aad with
    | .null _ => pure ()
    | .buffer data =>
      if data.length = 0 then pure ()
      else
        ofExcept (aeUpdateAadCheck op level)
        let _ ← halCall hal (.aeUpdateAad data)
        if level = apiLevel111 then change (Local.update (Operation.raise flagInitialized))

variable (src : Ref) (destData : Bool)

/-- `TEE_AEUpdate`. The handle is marked before the hardware layer is called, and every error
behind the check of the lengths takes the mark back. -/
def aeUpdate : Call κ Block := do
  let s ← reads id
  let destLen ← get? s.destLen .badParameters
  failIf (src = .null src.length ∧ src.length > 0) .badParameters
  failIf (destLen > 0 ∧ destData = false) .badParameters
  failIf (destLen < src.length) .shortBuffer
  onError
    (do
      ofExcept (aeUpdateCheck s.op)
      failIf s.op.halInfo.isNone .badParameters
      if level = apiLevel111 ∨ (level > apiLevel111 ∧ src.length ≠ 0) then
        change (Local.update (Operation.raise flagInitialized))
      let reply ← halCall hal (.aeUpdate src.bytes destLen)
      change (Local.report reply.size)
      pure reply.out)
    (Local.update (Operation.lower flagInitialized))

def maxSrcSize : Nat := 512000

/-- `malloc_dest_data`, which reads the context of the handle without asking whether there is
one; a null pointer ends the TA. -/
def mallocDestData (srcLen : Nat) : Call κ Nat := do
  let ctx ← reads fun s : Local κ => s.op.cryptoCtxt
  let c ← onError (get? ctx .generic) fun s => { s with crashed := true }
  let size := hal.aeDestSize c.raw srcLen
  failIf (size < srcLen ∨ size > maxSrcSize) .badParameters
  if size ≠ 0 then
    let _ ← malloc size .outOfMemory
  pure size

/-- `check_dest_data_old_level` and `check_dest_data_new_level`: whether the output goes to a
buffer of the call's own. -/
def aeEncryptCheckDestData (srcLen : Nat) : Call κ Bool := do
  let destLen ← reads fun s : Local κ => s.destLen
  if level < apiLevel111 then
    match destLen with
    | none => fail .badParameters
    | some n =>
      failIf (destData = false ∨ n = 0) .badParameters
      failIf (n < srcLen) .shortBuffer
      pure false
  else
    match destLen with
    | none => if destData then fail .badParameters else pure true
    | some n =>
      if (destData = false ∧ n = 0) ∨ (destData = true ∧ n < srcLen) then
        if n = 0 then change (Local.report srcLen)
        fail .shortBuffer
      else if destData then pure false
      else fail .badParameters

/-- `ae_encrypt_hal`; `keep` says that the length of the output is reported. -/
def aeEncryptHal (data : Block) (room tagLen : Nat) (keep : Bool) : Call κ (Block × Block) := do
  let reply ← always (halCall hal (.aeEncFinal data room tagLen)) (freeOperationCtx hal)
  change fun s => if keep then s.report reply.size else s
  change fun s => { s with tagLen := some reply.tag.length }
  change (Local.update fun op => { op with digestLength := reply.tag.length })
  pure (reply.out, reply.tag)

/-- `TEE_AEEncryptFinal`; the output and the tag. -/
def aeEncryptFinal (destData tag : Bool) : Call κ (Block × Block) := do
  let s ← reads id
  failIf (src = .null src.length ∧ src.length > 0) .badParameters
  let tagLen ← get? s.tagLen .badParameters
  failIf (tagLen > 0 ∧ tag = false) .badParameters
  ofExcept (aeUpdateCheck s.op)
  change (Local.update (Operation.lower flagInitialized))
  let own ← aeEncryptCheckDestData level destData src.length
  let room ← if own then mallocDestData hal src.length else pure (s.destLen.getD 0)
  aeEncryptHal hal src.bytes room tagLen (decide (own = false ∧ level ≥ apiLevel111))

/-- `ae_decrypt_hal`, in the same way. -/
def aeDecryptHal (data tag : Block) (room : Nat) (keep : Bool) : Call κ Block := do
  let reply ← always (halCall hal (.aeDecFinal data tag room)) (freeOperationCtx hal)
  change fun s => if keep then s.report reply.size else s
  pure reply.out

def aeDecryptFinal (tag : Ref) : Call κ Block := do
  let s ← reads id
  let destLen ← get? s.destLen .badParameters
  failIf ((destLen > 0 ∧ destData = false) ∨ (destLen = 0 ∧ destData = true)) .badParameters
  failIf ((src = .null src.length ∧ src.length > 0) ∨ (tag = .null tag.length ∧ tag.length > 0))
    .badParameters
  ofExcept (aeUpdateCheck s.op)
  change (Local.update (Operation.lower flagInitialized))
  let own := decide (destLen = 0 ∧ level > apiLevel10)
  let room ←
    if own then mallocDestData hal src.length
    else do
      failIf (destLen < src.length) .shortBuffer
      pure destLen
  aeDecryptHal hal src.bytes tag.bytes room (decide (own = false ∧ level ≥ apiLevel111))

end TeeOs.Crypto
