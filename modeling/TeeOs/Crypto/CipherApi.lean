import TeeOs.Crypto.SetKey

/-!
# Cipher and MAC operations

`TEE_CipherInit`, `TEE_CipherUpdate`, `TEE_CipherDoFinal` and the MAC calls, which go to the
cipher calls for the MACs that are made with a cipher. The hardware layer is a parameter.
-/

namespace TeeOs.Crypto

open TeeOs.Lib Act

/-! ## The hardware layer -/

inductive InitRequest
  | cipher (alg : Word) (decrypt : Bool) (key : Block) (iv : Option Block) (engine : Nat)
  | hmac (alg : Word) (key : Block) (engine : Nat)
  | ae (alg : Word) (decrypt : Bool) (key nonce : Block) (tagLen aadLen payloadLen engine : Nat)

/-- The calls on a context, with the room of the buffers for what they give. -/
inductive HalRequest
  | cipherUpdate (data : Block) (room : Option Nat)
  | cipherDoFinal (data : Block) (destData : Bool) (room : Nat)
  | hmacUpdate (data : Block)
  | hmacDoFinal (data : Ref) (room : Nat)
  | aeUpdateAad (aad : Block)
  | aeUpdate (data : Block) (room : Nat)
  | aeEncFinal (data : Block) (room tagRoom : Nat)
  | aeDecFinal (data tag : Block) (room : Nat)

/-- What a call gives: the bytes of the output and of the tag, and the length it reports. -/
structure Reply where
  out : Block
  size : Nat
  tag : Block
  deriving DecidableEq

/-- How a call on a context ends, with the blocks it freed that may hold a secret. -/
structure Returned (κ : Type) where
  result : Except TeeError Reply
  raw : κ
  released : List Block

/-- The functions `tee_crypto_*`, with the allocator they see. A context that cannot be made is
a null pointer; `copy` and `free` tell what is in the blocks they free, and `aeDestSize` is the
room `malloc_dest_data` computes from the context. -/
structure Hal (κ : Type) where
  init : InitRequest → Option κ
  call : κ → HalRequest → Returned κ
  copy : κ → Except TeeError κ × List Block
  free : κ → List Block
  aeDestSize : κ → Nat → Nat

variable {κ : Type}

/-- The use of the context is recorded. -/
def Local.used (s : Local κ) : Local κ :=
  { s with uses := s.uses ++ [{ ctx := s.op.cryptoCtxt, key := s.op.key, keyAt := s.op.keyAt }] }

def setRaw (c : Ctx κ) (raw : κ) (op : Operation κ) : Operation κ :=
  { op with cryptoCtxt := some { c with raw := raw } }

def Local.releaseAll (bs : List Block) (s : Local κ) : Local κ :=
  { s with released := s.released ++ bs }

/-- What a call on the context leaves. -/
def Local.returned (c : Ctx κ) (r : Returned κ) (s : Local κ) : Local κ :=
  (s.used.update (setRaw c r.raw)).releaseAll r.released

variable (op : Operation κ) (hal : Hal κ) (level : Nat) (iv : Ref)

/-- A call on the context of the handle; a null pointer is refused. -/
def halCall (req : HalRequest) : Call κ Reply := fun s =>
  match s.op.cryptoCtxt with
  | none => (.error .badParameters, s.used)
  | some c => ((hal.call c.raw req).result, s.returned c (hal.call c.raw req))

def freeOperationCtx (s : Local κ) : Local κ :=
  let released := match s.op.cryptoCtxt with
    | none => []
    | some c => hal.free c.raw
  (s.releaseAll released).update fun op => { op with cryptoCtxt := none }

/-- The old context is freed and a new one made from the key, which may fail. -/
def makeCtx (req : InitRequest) (key : Block) (e : TeeError) : Call κ Unit := do
  change (freeOperationCtx hal)
  let raw ← get? (hal.init req) e
  change fun s =>
    { s with
      op := { s.op with cryptoCtxt := some ⟨raw, key, s.clock⟩ }
      clock := s.clock + 1 }

/-! ## Ciphers -/

structure OpConfig where
  expectClass : OperationClass
  mode0 : Mode
  mode1 : Mode
  algorithm : Word
  expectIvLength : Nat

def aesIvLen : Nat := 16
def maxIvLen : Nat := 32

/-- `g_cipher_config`, without the algorithms that are not allocated. -/
def cipherConfig : List OpConfig := [
  ⟨.mac, .mac, .unknown, algAesCbcMacNopad, aesIvLen⟩,
  ⟨.mac, .mac, .unknown, algAesCmac, 0⟩,
  ⟨.cipher, .encrypt, .decrypt, algAesEcbNopad, 0⟩,
  ⟨.cipher, .encrypt, .decrypt, algAesEcbPkcs5, 0⟩,
  ⟨.cipher, .encrypt, .decrypt, algAesCbcNopad, aesIvLen⟩,
  ⟨.cipher, .encrypt, .decrypt, algAesCbcPkcs5, aesIvLen⟩,
  ⟨.cipher, .encrypt, .decrypt, algAesCtr, 0⟩,
  ⟨.cipher, .encrypt, .decrypt, algAesCts, 0⟩,
  ⟨.cipher, .encrypt, .decrypt, algAesXts, 0⟩,
  ⟨.cipher, .encrypt, .decrypt, algSm4CbcNopad, aesIvLen⟩,
  ⟨.cipher, .encrypt, .decrypt, algSm4CbcPkcs7, aesIvLen⟩,
  ⟨.cipher, .encrypt, .decrypt, algSm4EcbNopad, 0⟩,
  ⟨.cipher, .encrypt, .decrypt, algSm4Ctr, aesIvLen⟩,
  ⟨.cipher, .encrypt, .decrypt, algSm4Cfb128, aesIvLen⟩]

variable (message : Ref) (alg : Word) (table : List OpConfig)

/-- The entry of an algorithm, where class and mode of the operation are those it expects. -/
def configOf (op : Operation κ) : Except TeeError OpConfig :=
  match table.find? fun c => c.algorithm = op.algorithm with
  | none => .error .badParameters
  | some c =>
    if op.operationClass ≠ c.expectClass ∨ (op.mode ≠ c.mode0 ∧ op.mode ≠ c.mode1) then
      .error .badParameters
    else .ok c

def initCheckConfig (op : Operation κ) (iv : Ref) : Except TeeError Unit :=
  match configOf table op with
  | .error e => .error e
  | .ok c =>
    if c.expectIvLength ≠ 0 ∧ (c.expectIvLength ≠ iv.length ∨ iv = .null iv.length) then
      .error .badParameters
    else .ok ()

/-- `cipher_init_operation_state_check` and `mac_init_operation_state_check`, which differ in
the table. -/
def initOperationStateCheck (level : Nat) (iv : Ref) : Call κ Unit := do
  if level ≥ apiLevel111 then
    let op ← reads Local.op
    failIf (has op.handleState flagKeySet = false) .badState
    change (Local.update (Operation.lower flagInitialized))
    failIf (op.keyValue = none) .badParameters
  let op ← reads Local.op
  ofExcept (initCheckConfig table op iv)

def clearOperationIv : Operation κ :=
  if op.iv = none then op else { op with iv := none, ivLen := 0 }

def noIvAlgs : List Word := [algAesEcbPkcs5, algAesEcbNopad, algSm4EcbNopad, algAesCmac]

def setOperationIv : Call κ Unit := do
  change (Local.update clearOperationIv)
  let op ← reads Local.op
  if op.algorithm ∈ noIvAlgs ∨ iv.length = 0 then pure ()
  else
    failIf (iv.length > maxIvLen) .badParameters
    let _ ← malloc iv.length .outOfMemory
    let value ← ofExcept (memcpy iv.length iv)
    change (Local.update fun op => { op with iv := some value, ivLen := iv.length })

/-- The bytes the hardware layer reads of a key. -/
def keyBuffer (value : Option Block) (size : Nat) : Block := (value.getD []).take size

/-- `set_aes_xts_key`: a copy of both keys, one behind the other. -/
def setAesXtsKey : Call κ Block := do
  failIf (op.keySize + op.keySize2 > mallocMaxKeySize) .badParameters
  let _ ← malloc (op.keySize + op.keySize2) .outOfMemory
  -- a copy fails for a null pointer or no room, and the block is erased and freed
  let copied := padded (op.keySize + op.keySize2) (keyBuffer op.keyValue op.keySize)
  onError (failIf (op.keyValue = none ∨ op.keyValue2 = none ∨ op.keySize2 = 0) .security)
    (Local.release (some (wipe (op.keySize + op.keySize2) copied)))
  pure (keyBuffer op.keyValue op.keySize ++ keyBuffer op.keyValue2 op.keySize2)

def setCipherKey : Call κ Block :=
  if op.algorithm = algAesXts then setAesXtsKey op
  else pure (keyBuffer op.keyValue op.keySize)

def doCipherInit : Call κ Unit := do
  let op ← reads Local.op
  let info ← get? op.halInfo .badParameters
  let key ← setCipherKey op
  let iv := if op.iv ≠ none ∧ op.ivLen ≠ 0 then op.iv else none
  -- the copy of the two keys of XTS is erased and freed, whether a context was made or not
  let drop := fun s : Local κ =>
    if op.algorithm = algAesXts then s.release (some (wipe key.length key)) else s
  let request := InitRequest.cipher op.algorithm (decide (op.mode = .decrypt)) key iv info.cryptoFlag
  always (makeCtx hal request key .generic) drop
  change (Local.update (Operation.raise flagInitialized))

def cipherInit : Call κ Unit := do
  initOperationStateCheck cipherConfig level iv
  setOperationIv iv
  always (doCipherInit hal) (Local.update clearOperationIv)

def cipherUpdateFinalOperationStateCheck : Except TeeError Unit :=
  if level ≥ apiLevel111 ∧
      (has op.handleState flagKeySet = false ∨ has op.handleState flagInitialized = false) then
    .error .badState
  else
    match configOf cipherConfig op with
    | .error e => .error e
    | .ok _ => .ok ()

/-- The algorithms whose updates need no output buffer. -/
def noDestAlgs : List Word := [algAesCbcMacNopad, algAesCmac, algSm4CbcPkcs7]

def checkDestParamValid (srcLen : Nat) (destData : Bool) (destLen : Option Nat) :
    Except TeeError Unit :=
  if alg ∈ noDestAlgs then .ok ()
  else
    match destLen with
    | none => .error .badParameters
    | some n =>
      if destData = false then .error .badParameters
      else if n < srcLen then .error .shortBuffer
      else .ok ()

/-- The room of an output buffer, which may be a null pointer. -/
def destRoom (destData : Bool) (destLen : Option Nat) : Option Nat :=
  if destData then destLen else none

def Local.report (size : Nat) (s : Local κ) : Local κ :=
  { s with destLen := s.destLen.map fun _ => size }

/-- `TEE_CipherUpdate`; the output, where there is one. -/
def cipherUpdate (src : Ref) (destData : Bool) : Call κ Block := do
  match src with
  | .null n =>
    failIf (n > 0) .badParameters
    change (Local.report 0)
    pure []
  | .buffer data =>
    if data.length = 0 then
      change (Local.report 0)
      pure []
    else
      let s ← reads id
      ofExcept (cipherUpdateFinalOperationStateCheck s.op level)
      ofExcept (checkDestParamValid s.op.algorithm data.length destData s.destLen)
      let reply ← onError (halCall hal (.cipherUpdate data (destRoom destData s.destLen)))
        (Local.update (Operation.lower flagInitialized))
      change (Local.report reply.size)
      pure reply.out

def pkcs5PaddingLen : Nat := 16
def aesMacLen : Nat := 16

/-- `get_padding_dest_len` and `get_cipher_dest_len`: an `int32_t`, whose -1 is refused. -/
def getCipherDestLen (srcLen : Nat) : Option Nat :=
  let length :=
    if op.algorithm = algAesCbcMacNopad ∨ op.algorithm = algAesCmac then aesMacLen
    else if (op.algorithm = algAesEcbPkcs5 ∨ op.algorithm = algAesCbcPkcs5) ∧ op.mode = .encrypt then
      if srcLen / pkcs5PaddingLen + 1 > (2^32 - 1) / pkcs5PaddingLen then 2^32 - 1
      else (srcLen / pkcs5PaddingLen + 1) * pkcs5PaddingLen
    else srcLen
  if length % 2^32 = 2^32 - 1 then none else some (length % 2^32)

/-- `check_cipher_destlen`; a length of 0 is replaced by that of the source. -/
def checkCipherDestlen (srcLen destLen : Nat) : Call κ Unit := do
  let op ← reads Local.op
  let length ← get? (getCipherDestLen op srcLen) .badParameters
  onError (failIf (destLen < length) .shortBuffer)
    fun s => if destLen = 0 then s.report srcLen else s

def doCipherFinal (data : Block) (destData : Bool) (destLen : Nat) : Call κ Block := do
  let reply ← always (halCall hal (.cipherDoFinal data destData destLen)) (freeOperationCtx hal)
  change (Local.report reply.size)
  let op ← reads Local.op
  if op.algorithm = algAesCmac ∨ op.algorithm = algAesCbcMacNopad then
    change (Local.update fun op => { op with digestLength := reply.size })
  pure reply.out

/-- The bytes of a source; a null pointer has none. -/
def Ref.bytes : Ref → Block
  | .null _ => []
  | .buffer b => b

def cipherDoFinal (src : Ref) (destData : Bool) : Call κ Block := do
  failIf (src.length > 0 ∧ src = .null src.length) .badParameters
  let s ← reads id
  let destLen ← get? s.destLen .badParameters
  ofExcept (cipherUpdateFinalOperationStateCheck s.op level)
  checkCipherDestlen src.length destLen
  change (Local.update (Operation.lower flagInitialized))
  doCipherFinal hal src.bytes destData destLen

/-! ## MACs -/

/-- `g_mac_config`, without the algorithms that are not allocated. -/
def macConfig : List OpConfig := [
  ⟨.mac, .mac, .mac, algHmacSha1, 0⟩,
  ⟨.mac, .mac, .mac, algHmacSha256, 0⟩,
  ⟨.mac, .mac, .mac, algHmacSha384, 0⟩,
  ⟨.mac, .mac, .mac, algHmacSha512, 0⟩,
  ⟨.mac, .mac, .mac, algAesCbcMacNopad, aesIvLen⟩,
  ⟨.mac, .mac, .mac, algAesCmac, 0⟩,
  ⟨.mac, .mac, .mac, algHmacSm3, 0⟩,
  ⟨.mac, .mac, .mac, algSipHash, 0⟩]

def isCipherAlgorithm : Bool := decide (alg = algAesCbcMacNopad ∨ alg = algAesCmac)

/-- `mac_init_set_key`; at the lowest level the IV may stand for the key. -/
def macInitSetKey : Except TeeError Block :=
  if op.keyValue ≠ none ∧ op.keySize ≠ 0 then .ok (keyBuffer op.keyValue op.keySize)
  else
    match iv with
    | .null _ => .error .badParameters
    | .buffer b =>
      if b.length ≤ maxKeySizeInBits / 8 ∧ level = apiLevel10 then .ok b else .error .badParameters

def hmacInitHal (engine : Nat) : Call κ Unit := do
  let op ← reads Local.op
  let key ← ofExcept (macInitSetKey op level iv)
  makeCtx hal (.hmac op.algorithm key engine) key .generic

/-- `TEE_MACInit`; the handle is marked as initialized whether a context was made or not. -/
def macInit : Call κ Unit := do
  initOperationStateCheck macConfig level iv
  let op ← reads Local.op
  let info ← get? op.halInfo .badParameters
  if isCipherAlgorithm op.algorithm then cipherInit hal level iv
  else
    always (hmacInitHal hal level iv info.cryptoFlag)
      (Local.update (Operation.raise flagInitialized))

def macUpdateFinalOperationStateCheck : Except TeeError Unit :=
  if level ≥ apiLevel111 ∧ has op.handleState flagKeySet = false then .error .badState
  else if level ≥ apiLevel111 ∧ op.keyValue = none then .error .badParameters
  else if level ≥ apiLevel111 ∧ has op.handleState flagInitialized = false then .error .badState
  else
    match configOf macConfig op with
    | .error e => .error e
    | .ok _ => .ok ()

def macUpdate (chunk : Ref) : Call κ Unit :=
  match chunk with
  | .null _ => fail .badParameters
  | .buffer data => do
    failIf (data.length = 0) .badParameters
    let op ← reads Local.op
    ofExcept (macUpdateFinalOperationStateCheck op level)
    if isCipherAlgorithm op.algorithm then
      let _ ← cipherUpdate hal level chunk false
    else
      let _ ← onError (halCall hal (.hmacUpdate data))
        (Local.update (Operation.lower flagInitialized))

/-- `crypto_output_buff_len_check`; the caller answers a short buffer in either case. -/
def outputBuffLenShort (outputLen : Nat) : Bool :=
  match outputLowerLimit.find? fun c => c.1 = alg with
  | some c => decide (outputLen < c.2)
  | none => true

def hmacDofinalHal (macLen : Nat) : Call κ Block := do
  let reply ← always (halCall hal (.hmacDoFinal message macLen)) (freeOperationCtx hal)
  change (Local.report reply.size)
  change (Local.update fun op => { op with digestLength := reply.size })
  pure reply.out

def macComputeFinal (mac : Bool) : Call κ Block := do
  let s ← reads id
  let macLen ← get? s.destLen .badParameters
  failIf (mac = false ∨ macLen = 0) .badParameters
  ofExcept (macUpdateFinalOperationStateCheck s.op level)
  if isCipherAlgorithm s.op.algorithm then cipherDoFinal hal level message mac
  else
    failIf (outputBuffLenShort s.op.algorithm macLen) .shortBuffer
    always (hmacDofinalHal hal message macLen) (Local.update (Operation.lower flagInitialized))

/-- `tee_mac_commare_final111`, which compares with a MAC it computes. -/
def macCompareFinal (mac : Block) : Call κ Unit := do
  change fun s => { s with destLen := some mac.length }
  let computed ← macComputeFinal hal level message true
  let size ← reads fun s : Local κ => s.destLen
  failIf (size ≠ some mac.length ∨ computed ≠ mac) .macInvalid

end TeeOs.Crypto
