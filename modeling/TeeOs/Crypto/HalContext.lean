import TeeOs.Crypto.CipherApi

/-!
# Contexts of the hardware layer

The functions `tee_crypto_*` between the operations and an engine, which is a parameter. For a
driver that does not cache itself, the layer keeps up to one block of the message back, so that
the last call has data to work on, and pads the message. For an engine that cannot work on a
part of an AE message it keeps the whole message.
-/

namespace TeeOs.Crypto

open TeeOs.Lib Act

/-- The soft engine or a driver, with its own context. -/
structure Engine (σ : Type) where
  init : InitRequest → Option σ
  call : σ → HalRequest → Except TeeError Reply × σ
  copy : σ → Except TeeError σ
  driverCache : Word → Bool

/-- `struct crypto_cache_t`; the message so far, in a buffer of `totalLen` bytes. -/
structure AeCache where
  totalLen : Nat
  message : Block

/-- `struct ctx_handle_t`. -/
structure HalCtx (σ : Type) where
  soft : Bool
  driverCache : Bool
  algType : Word
  encrypt : Bool
  cipherCacheData : Block
  cipherCacheLen : Nat
  isSupportAeUpdate : Bool
  aeCache : Option AeCache
  aadSize : Nat
  state : σ

/-- What a call sees: the context, the answers of the allocator, and the blocks that were freed
as they were then. -/
structure Site (σ : Type) where
  ctx : HalCtx σ
  answers : List Bool
  released : List Block

open Site

abbrev HalAct (σ α : Type) : Type := Act (Site σ) TeeError α

variable {σ : Type}

def HalCtx.cached (c : HalCtx σ) : Block := c.cipherCacheData.take c.cipherCacheLen

def Site.release (b : Block) (s : Site σ) : Site σ := { s with released := s.released ++ [b] }

def Site.update (f : HalCtx σ → HalCtx σ) (s : Site σ) : Site σ := { s with ctx := f s.ctx }

/-- `TEE_Malloc`. -/
def halMalloc (n : Nat) : HalAct σ Unit := fun s =>
  if n = 0 then (.error .outOfMemory, s)
  else if s.answers.headD true then (.ok (), { s with answers := s.answers.tail })
  else (.error .outOfMemory, { s with answers := s.answers.tail })

variable (c : HalCtx σ) (engine : Engine σ) (level : Nat) (data : Block) (destData : Bool)
  (room : Nat)

def engineCall (req : HalRequest) : HalAct σ Reply := fun s =>
  ((engine.call s.ctx.state req).1, s.update fun c => { c with state := (engine.call s.ctx.state req).2 })

def maxCryptoDataLen : Nat := 500 * 1024
def cipherCacheSize : Nat := 16
def cryptoPaddingLen : Nat := 16

/-! ## Ciphers -/

/-- Bytes are written to the front of the array. -/
def HalCtx.keep (bytes : Block) (c : HalCtx σ) : HalCtx σ :=
  { c with
    cipherCacheData := bytes ++ c.cipherCacheData.drop bytes.length
    cipherCacheLen := bytes.length }

def HalCtx.clear (c : HalCtx σ) : HalCtx σ :=
  { c with cipherCacheData := List.replicate cipherCacheSize 0, cipherCacheLen := 0 }

/-- `do_cipher_cache_update` with `rebuild_cipher_input_data`: the end of the data takes the
place of the cached bytes before the driver is called. -/
def doCipherCacheUpdate : HalAct σ Reply := do
  let c ← reads ctx
  let totalLen := data.length + c.cipherCacheLen
  let cacheLen := if totalLen % cipherCacheSize = 0 then cipherCacheSize else totalLen % cipherCacheSize
  let inputLen := totalLen - cacheLen
  halMalloc inputLen
  let input := (c.cached ++ data).take inputLen
  change (update (HalCtx.keep (data.drop (data.length - cacheLen))))
  always (engineCall engine (.cipherUpdate input (some room))) (release (wipe inputLen input))

def doCryptoCipherUpdate : HalAct σ Reply := do
  let c ← reads ctx
  if data.length = 0 then pure ⟨[], room, []⟩
  else
    failIf (data.length > maxCryptoDataLen) .badParameters
    if level = apiLevel10 ∨ c.algType = algAesXts then engineCall engine (.cipherUpdate data (some room))
    else if data.length + c.cipherCacheLen > cipherCacheSize then doCipherCacheUpdate engine data room
    else
      change (update (HalCtx.keep (c.cached ++ data)))
      pure ⟨[], 0, []⟩

/-- `adapt_cipher_dest_data`: the room of the buffer, of one that is made where there is none. -/
def adaptCipherDestData : Option Nat → HalAct σ Nat
  | some room => pure room
  | none => do
    failIf (data.length = 0) .badParameters
    halMalloc data.length
    pure data.length

def teeCryptoCipherUpdate (room : Option Nat) : HalAct σ Reply := do
  let c ← reads ctx
  if c.soft then engineCall engine (.cipherUpdate data room)
  else
    let size ← adaptCipherDestData data room
    if c.driverCache then engineCall engine (.cipherUpdate data (some size))
    else doCryptoCipherUpdate engine level data size

def paddingNum (n : Nat) : Nat := cryptoPaddingLen - n % cryptoPaddingLen

/-- The data with its padding. -/
def paddingData : Block :=
  data ++ List.replicate (paddingNum data.length) (UInt8.ofNat (paddingNum data.length))

/-- `do_padding_enc` with `build_padding_data_in`; the padded data is freed as it is. -/
def doPaddingEnc : HalAct σ Reply := do
  failIf (data.length > maxCryptoDataLen - cryptoPaddingLen) .badParameters
  failIf (room < data.length + paddingNum data.length) .shortBuffer
  halMalloc (data.length + paddingNum data.length)
  always (engineCall engine (.cipherDoFinal (paddingData data) destData room))
    (release (paddingData data))

/-- `check_padding_valid`; the number of the padding bytes. -/
def checkPaddingValid (out : Block) (size : Nat) : Except TeeError Nat :=
  if size = 0 then .error .badParameters
  else
    let num := (out.getD (size - 1) 0).toNat
    if num = 0 ∨ num > cryptoPaddingLen ∨ size < num then .error .badFormat
    else if ((out.take size).drop (size - num)).all fun b => b.toNat = num then .ok num
    else .error .badFormat

def checkAndCopyDataOut (out : Block) (size room : Nat) : Except TeeError Reply :=
  match checkPaddingValid out size with
  | .error e => .error e
  | .ok num =>
    if room < size - num then .error .shortBuffer else .ok ⟨out.take (size - num), size - num, []⟩

/-- `do_padding_dec`; the padded plaintext is freed as it is. -/
def doPaddingDec : HalAct σ Reply := do
  failIf (data.length = 0 ∨ data.length > maxCryptoDataLen ∨ data.length < cryptoPaddingLen ∨
    destData = false ∨ room = 0 ∨ room > maxCryptoDataLen) .badParameters
  halMalloc room
  let reply ← engineCall engine (.cipherDoFinal data true room)
  let out := padded room reply.out
  always (ofExcept (checkAndCopyDataOut out reply.size room)) (release out)

def paddingAlgs : List Word := [algAesEcbPkcs5, algAesCbcPkcs5]

def procNotSoftCipherDofinal : HalAct σ Reply := do
  let c ← reads ctx
  if c.algType ∈ paddingAlgs then
    if c.encrypt then doPaddingEnc engine data destData room
    else doPaddingDec engine data destData room
  else engineCall engine (.cipherDoFinal data destData room)

/-- `do_cipher_cache_dofinal`. The block of the input is erased over the length of the data and
that of the cache, which has been set to 0 by then. -/
def doCipherCacheDofinal : HalAct σ Reply := do
  let c ← reads ctx
  failIf (data.length > maxCryptoDataLen) .badParameters
  if level = apiLevel10 ∨ c.algType = algAesXts then procNotSoftCipherDofinal engine data destData room
  else if data.length + c.cipherCacheLen = 0 then pure ⟨[], room, []⟩
  else
    halMalloc (data.length + c.cipherCacheLen)
    let input := c.cached ++ data
    change (update HalCtx.clear)
    always (procNotSoftCipherDofinal engine input destData room)
      fun s => s.release (wipe (data.length + s.ctx.cipherCacheLen) input)

def teeCryptoCipherDofinal : HalAct σ Reply := do
  let c ← reads ctx
  if c.soft ∨ c.driverCache then engineCall engine (.cipherDoFinal data destData room)
  else doCipherCacheDofinal engine level data destData room

/-! ## Authenticated encryption -/

def checkAeInSize (size : Nat) : Except TeeError AeCache :=
  match c.aeCache with
  | none => .error .badParameters
  | some cache =>
    if size > cache.totalLen ∨ cache.message.length + size > cache.totalLen then .error .badParameters
    else .ok cache

/-- `do_crypto_cache`; the room is left as it is where there is nothing to keep. -/
def doCryptoCache : HalAct σ Reply := do
  let c ← reads ctx
  let cache ← ofExcept (checkAeInSize c data.length)
  if data.length = 0 then pure ⟨[], room, []⟩
  else
    change (update fun c =>
      { c with aeCache := some { cache with message := cache.message ++ data } })
    pure ⟨[], 0, []⟩

/-- `tee_crypto_ae_update`; an engine that does not support it makes the layer keep the data. -/
def teeCryptoAeUpdate : HalAct σ Reply := do
  let c ← reads ctx
  failIf c.aeCache.isNone .badParameters
  if data.length = 0 then pure ⟨[], room, []⟩
  else
    elseOn (engineCall engine (.aeUpdate data room)) .notSupported do
      change (update fun c => { c with isSupportAeUpdate := false })
      doCryptoCache data room

def teeCryptoAeUpdateAad (aad : Block) : HalAct σ Reply := do
  let c ← reads ctx
  failIf (c.algType = algAesCcm ∧ c.aadSize < aad.length) .badParameters
  engineCall engine (.aeUpdateAad aad)

/-- `do_ae_final_not_support_update`: the data is added to what was kept before the engine is
called, and the call is that of the direction of the context. -/
def doAeFinalNotSupportUpdate (data tag : Block) (room tagRoom : Nat) : HalAct σ Reply := do
  let _ ← doCryptoCache data room
  let c ← reads ctx
  let cache ← get? c.aeCache .badParameters
  if c.encrypt then engineCall engine (.aeEncFinal cache.message room tagRoom)
  else engineCall engine (.aeDecFinal cache.message tag room)

def teeCryptoAeEncFinal (room tagRoom : Nat) : HalAct σ Reply := do
  let c ← reads ctx
  if c.isSupportAeUpdate then engineCall engine (.aeEncFinal data room tagRoom)
  else doAeFinalNotSupportUpdate engine data [] room tagRoom

def teeCryptoAeDecFinal (data tag : Block) (room : Nat) : HalAct σ Reply := do
  let c ← reads ctx
  if c.isSupportAeUpdate then engineCall engine (.aeDecFinal data tag room)
  else doAeFinalNotSupportUpdate engine data tag room 0

/-! ## MACs -/

/-- `tee_crypto_hmac_dofinal`: the rest of the message is an update of its own. -/
def teeCryptoHmacDofinal (data : Ref) (room : Nat) : HalAct σ Reply := do
  if data.bytes.length ≠ 0 then
    let _ ← engineCall engine (.hmacUpdate data.bytes)
  engineCall engine (.hmacDoFinal (.null 0) room)

/-! ## Contexts -/

def softCrypto : Nat := 2

/-- A context as `alloc_ctx_handle` gives it. -/
def newCtx (alg : Word) (flag : Nat) (encrypt : Bool) (state : σ) : HalCtx σ where
  soft := decide (flag = softCrypto)
  driverCache := decide (flag ≠ softCrypto) && engine.driverCache alg
  algType := alg
  encrypt := encrypt
  cipherCacheData := List.replicate cipherCacheSize 0
  cipherCacheLen := 0
  isSupportAeUpdate := false
  aeCache := none
  aadSize := 0
  state := state

/-- The room of the cache by `alloc_crypto_cache`; none for one that is not allocated. -/
def aeCacheSize (alg : Word) (payloadLen : Nat) : Option Nat :=
  if alg = algAesCcm then
    if payloadLen = 0 ∨ payloadLen > maxCryptoDataLen then none else some payloadLen
  else if alg = algAesGcm ∨ alg = algSm4Gcm then
    some (if 0 < payloadLen ∧ payloadLen < maxCryptoDataLen then payloadLen else maxCryptoDataLen)
  else none

/-- `tee_crypto_cipher_init`, `tee_crypto_hmac_init` and `tee_crypto_ae_init`, where memory is
found. -/
def halInit (req : InitRequest) : Option (HalCtx σ) :=
  match req with
  | .cipher alg decrypt _ _ flag => (engine.init req).map (newCtx engine alg flag (!decrypt))
  | .hmac alg _ flag => (engine.init req).map (newCtx engine alg flag false)
  | .ae alg decrypt _ _ _ aadLen payloadLen flag =>
    match aeCacheSize alg payloadLen, engine.init req with
    | some total, some state =>
      some { newCtx engine alg flag (!decrypt) state with
        isSupportAeUpdate := true
        aeCache := some ⟨total, []⟩
        aadSize := if alg = algAesCcm then aadLen else 0 }
    | _, _ => none

/-- `tee_crypto_ctx_free`, as far as the layer's own blocks go: the cache of a message is
erased, the context with the bytes that were kept back is not. -/
def ctxFree : List Block :=
  (c.aeCache.map fun cache => wipe cache.totalLen cache.message).toList ++ [c.cipherCacheData]

/-- `tee_crypto_ctx_copy`. A copy that fails is freed with what was copied to it. -/
def ctxCopy (memory : Bool) (c : HalCtx σ) : Except TeeError (HalCtx σ) × List Block :=
  match engine.copy c.state with
  | .error e => (.error e, [c.cipherCacheData])
  | .ok state =>
    if c.aeCache.isSome ∧ memory = false then (.error .outOfMemory, [c.cipherCacheData])
    else (.ok { c with state := state }, [])

def teeCrypto : HalRequest → HalAct σ Reply
  | .cipherUpdate data room => teeCryptoCipherUpdate engine level data room
  | .cipherDoFinal data destData room => teeCryptoCipherDofinal engine level data destData room
  | .hmacUpdate data => engineCall engine (.hmacUpdate data)
  | .hmacDoFinal data room => teeCryptoHmacDofinal engine data room
  | .aeUpdateAad aad => teeCryptoAeUpdateAad engine aad
  | .aeUpdate data room => teeCryptoAeUpdate engine data room
  | .aeEncFinal data room tagRoom => teeCryptoAeEncFinal engine data room tagRoom
  | .aeDecFinal data tag room => teeCryptoAeDecFinal engine data tag room

def ctxOffSet : Nat := 256

/-- `malloc_size` of `malloc_dest_data`. -/
def HalCtx.mallocSize (c : HalCtx σ) (srcLen : Nat) : Nat :=
  if c.isSupportAeUpdate then (srcLen + ctxOffSet) % 2^32
  else ((c.aeCache.map fun cache => cache.message.length).getD 0 + srcLen) % 2^32

/-- The layer over an engine, where the allocator gives these answers. -/
def cryptoHal (answers : List Bool) : Hal (HalCtx σ) where
  init := halInit engine
  call c req :=
    let r := teeCrypto engine level req ⟨c, answers, []⟩
    ⟨r.1, r.2.ctx, r.2.released⟩
  copy := ctxCopy engine (answers.headD true)
  free := ctxFree
  aeDestSize := HalCtx.mallocSize

end TeeOs.Crypto
