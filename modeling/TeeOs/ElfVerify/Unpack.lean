import TeeOs.ElfVerify.Package

/-!
# Unpacking an image

The rest of `secure_elf_verify`: the header, the cipher layer, the payload with the
manifest, and then the configuration package and the signature of the image. At the end
`free_verify` clears the variables of the image, for the version it knows.
-/

namespace TeeOs.ElfVerify

open TeeOs.Conf (Uuid maxImageLen)
open TeeOs.Lib Act
open TeeOs.PermSrv

variable {D : Type}

def cipherLayerVersion : Nat := 3
def imageHdrSize : Nat := 16
def cipherHdrSize : Nat := 12
def payloadHdrSize : Nat := 20
def uuidSize : Nat := 16
def taPropertySize : Nat := 24
def maxServiceNameSize : Nat := 64
def serviceNameMaxInManifest : Nat := 48
def maxTafsNameLen : Nat := 64
def additionalBufSize : Nat := 4096
def uint32MaxValue : Nat := 0xFFFFFFFF
def keyVerNotEncrypt : Nat := 0
def secImgTaKeyVersion : Nat := 2

/-- Neither `overflow_check` nor `boundary_check` finds anything. -/
def fits (max off len : Nat) : Bool := decide (off ≤ uint32MaxValue - len ∧ off + len ≤ max)

/-! ## The header -/

/-- `tee_secure_img_header_check_v3`, with `handle_cipher_layer_len`. -/
def teeSecureImgHeaderCheckV3 : Verify D Unit := do
  let hdr ← reads fun s => s.imageHdr
  failIf (hdr.contextLen > uint32MaxValue - imageHdrSize) .generic
  failIf (hdr.contextLen + imageHdrSize > maxImageLen) .generic
  if hdr.taKeyVersion = keyVerNotEncrypt then
    change fun s => { s with cipherLayerLen := cipherHdrSize, isEncryptedSec := false }
  else
    failIf (hdr.taKeyVersion % 2^8 ≠ secImgTaKeyVersion) .generic
    change fun s => { s with isEncryptedSec := true }
    let ver := hdr.taKeyVersion / 2^8 % 2^8
    if ver ≤ 1 then change fun s => { s with cipherLayerLen := 256 }
    else if ver = 2 then change fun s => { s with cipherLayerLen := 384 }
    else fail .badParameters

/-- `process_header`, with `tee_secure_get_img_header_v3`. -/
def processHeader (img : Bytes) : Verify D Unit := do
  let version ← reads fun s => s.imgInfo.imgVersion
  failIf (version ≠ cipherLayerVersion) .notSupported
  failIf (img.length ≤ imageHdrSize) .generic
  change fun s =>
    { s with imageHdr := { contextLen := u32At img 8, taKeyVersion := u32At img 12 } }
  teeSecureImgHeaderCheckV3

/-! ## The cipher layer -/

def teeSecureImgParseCipherLayer (layer : Bytes) : Verify D Unit := do
  failIf (layer.length = 0) .badParameters
  failIf (layer.length < cipherHdrSize) .generic
  let hdr : CipherHdr :=
    { keySize := u32At layer 0, ivSize := u32At layer 4, signatureAlg := u32At layer 8 }
  change (setCipherLayer fun c => { c with cipherHdr := hdr })
  let encrypted ← reads fun s => s.isEncryptedSec
  if hdr.ivSize = 0 ∧ hdr.keySize = 0 ∧ encrypted = false then pure ()
  else
    failIf (fits layer.length cipherHdrSize hdr.keySize = false) .generic
    failIf (fits layer.length (cipherHdrSize + hdr.keySize) hdr.ivSize = false) .generic
    failIf (hdr.ivSize = 0) .badParameters
    -- a copy of an empty key is refused, and the copy of the IV freed again
    failIf (hdr.keySize = 0) .badParameters
    change (setCipherLayer fun c =>
      { c with
        iv := some (slice layer (cipherHdrSize + hdr.keySize) hdr.ivSize)
        key := some (slice layer cipherHdrSize hdr.keySize) })

variable (env : Env D) (req : ElfVerifyReq)

/-- `tee_secure_img_proc_cipher_layer`: the plain layer. -/
def teeSecureImgProcCipherLayer (img : Bytes) : Verify D Bytes := do
  let len ← reads fun s => s.cipherLayerLen
  failIf (fits img.length imageHdrSize len = false) .generic
  let cipher := slice img imageHdrSize len
  let encrypted ← reads fun s => s.isEncryptedSec
  if encrypted then
    match env.decryptCipherLayer cipher with
    | .error ret => fail (.lib ret)
    | .ok layer =>
      teeSecureImgParseCipherLayer layer
      pure layer
  else
    teeSecureImgParseCipherLayer cipher
    pure cipher

def teeSecureImgGetSignatureSize (alg : Nat) : Option Nat :=
  if alg % 2^16 = 0x2048 then some 256
  else if alg % 2^16 = 0x4096 then some 512
  else if alg % 2^16 = 0x0256 then some 72
  else none

/-! ## The payload -/

def uuidAt (b : Bytes) : Uuid :=
  ⟨u32At b 0, u16At b 4, u16At b 6, (slice b 8 8).map UInt8.toNat⟩

def taPropertyAt (b : Bytes) (off : Nat) : TaProperty :=
  { singleInstance := u32At b off
    multiSession := u32At b (off + 4)
    multiCommand := u32At b (off + 8)
    heapSize := u32At b (off + 12)
    stackSize := u32At b (off + 16)
    instanceKeepAlive := u32At b (off + 20) }

/-- `check_manifest_alloc_name`, with `alloc_name_buffer_copy_mani_conf`. -/
def checkManifestAllocName (mani : Bytes) : Verify D Unit := do
  failIf (mani.length < uuidSize + taPropertySize ∨
    mani.length > uuidSize + taPropertySize + maxServiceNameSize) .badParameters
  let nameLen := mani.length - uuidSize - taPropertySize
  let property := taPropertyAt mani (uuidSize + nameLen)
  change (setManifest fun m =>
    { m with
      srvUuid := uuidAt mani
      serviceNameLen := nameLen
      serviceName := some (slice mani uuidSize nameLen)
      taProperty := property })
  if property.singleInstance = 0 then refuseManifest .badParameters else pure ()

/-- `tee_secure_img_parse_payload`; the payload stands at `off` of the image. -/
def teeSecureImgParsePayload (payload : Bytes) (off : Nat) : Verify D Unit := do
  failIf (payload.length < payloadHdrSize) .generic
  let hdr : PayloadHdr :=
    { formatVersion := u32At payload 0
      maniInfoSize := u32At payload 4
      maniExtSize := u32At payload 8
      taElfSize := u32At payload 12
      taConfSize := u32At payload 16 }
  change (setPayload fun p => { p with payloadHdr := hdr })
  failIf (fits payload.length payloadHdrSize hdr.maniInfoSize = false) .generic
  let extOff := payloadHdrSize + hdr.maniInfoSize
  failIf (fits payload.length extOff hdr.maniExtSize = false) .generic
  let elfOff := extOff + hdr.maniExtSize
  failIf (fits payload.length elfOff hdr.taElfSize = false) .generic
  change (setPayload fun p => { p with taElf := some (off + elfOff) })
  let confOff := elfOff + hdr.taElfSize
  failIf (fits payload.length confOff hdr.taConfSize = false) .generic
  change (setPayload fun p => { p with taConf := slice payload confOff hdr.taConfSize })
  checkManifestAllocName (slice payload payloadHdrSize hdr.maniInfoSize)
  let extSize ← teeSecureImgParseManifestV3 env (slice payload extOff hdr.maniExtSize) none
  change (setPayload fun p =>
    { p with payloadHdr := { p.payloadHdr with maniExtSize := extSize } })

/-- `tee_secure_img_proc_payload`: the plain payload. -/
def teeSecureImgProcPayload (img layer : Bytes) (off size : Nat) : Verify D Bytes := do
  failIf (fits img.length off size = false) .generic
  let cipher := slice img off size
  let encrypted ← reads fun s => s.isEncryptedSec
  let cipherLayer ← reads fun s => s.cipherLayer
  let plain ← get?
    (if encrypted then if cipher = [] then none else env.decryptPayload cipherLayer cipher
      else some cipher) .badFormat
  failIf (fits img.length (imageHdrSize + layer.length) plain.length = false) .generic
  teeSecureImgParsePayload env plain (imageHdrSize + layer.length)
  pure plain

/-- What `tee_secure_img_unpack_v3` has before it verifies the signature. -/
structure Unpacked where
  signature : Bytes
  layer : Bytes
  payload : Bytes

/-- `tee_secure_img_unpack_v3` up to there. -/
def teeSecureImgUnpackV3 (img : Bytes) : Verify D Unpacked := do
  failIf (img.length < imageHdrSize) .generic
  let layer ← teeSecureImgProcCipherLayer env img
  let len ← reads fun s => s.cipherLayerLen
  let alg ← reads fun s => s.cipherLayer.cipherHdr.signatureAlg
  let sigSize ← get? (teeSecureImgGetSignatureSize alg) .badFormat
  failIf (fits img.length (imageHdrSize + len) sigSize = false) .generic
  let contextLen ← reads fun s => s.imageHdr.contextLen
  -- the size of the payload is computed in 32 bits
  let size := (contextLen + 2^33 - len - sigSize) % 2^32
  let payload ← teeSecureImgProcPayload env img layer (imageHdrSize + len + sigSize) size
  pure ⟨slice img (imageHdrSize + len) sigSize, layer, payload⟩

/-! ## The signature -/

/-- `get_sign_config`; the key length was checked with the size of the signature. -/
def getSignConfig (alg : Nat) : SignConfig :=
  { keyLen := if alg % 2^16 = 0x2048 then 2048 else if alg % 2^16 = 0x4096 then 4096 else 256
    sha512 := alg / 2^26 % 2 = 1
    pss := alg / 2^27 % 2 = 1
    release := alg / 2^28 % 2 = 1
    signTaAlg := alg / 2^20 % 2^4 }

def getConfigCertParam : Verify D CertParam := do
  let payload ← reads fun s => s.payload
  let m ← reads fun s => s.imgInfo.manifest
  if payload.payloadHdr.taConfSize = 0 then pure {}
  else
    let serviceName ← get? m.serviceName .badParameters
    let param ← teeExtSetConfig env
      { conf := payload.taConf
        uuid := m.srvUuid
        serviceName := serviceName
        sysVerifyTa := m.ext.sysVerifyTa
        img := some
          { drvTargetType := m.ext.targetType = drvTargetType
            hardwareEngineCrypto := m.ext.hardwareType = hardwareEngineCrypto }
        configMem := req.configMem
        taMem := req.taMem }
    change (setPayload fun p => { p with confRegisted := true })
    pure param

def getSignatureVerifyKey (config : SignConfig) (confSize : Nat) (param : CertParam) :
    Except Nat Bytes :=
  if confSize ≠ 0 ∧ (env.localSign = true ∨ param.certType = .debug) then .ok param.publicKey
  else env.verifyPubkey config.keyLen config.release

/-- `tee_secure_img_signature_verify`, with `check_img_format_valid`. -/
def teeSecureImgSignatureVerify (u : Unpacked) : Verify D CertParam := do
  let alg ← reads fun s => s.cipherLayer.cipherHdr.signatureAlg
  let config := getSignConfig alg
  let encrypted ← reads fun s => s.isEncryptedSec
  failIf (config.release = true ∧ encrypted = false ∧ config.signTaAlg = 0) .notSupported
  let hdr ← reads fun s => s.payload.payloadHdr
  failIf (hdr.formatVersion ≠ cipherLayerVersion) .notSupported
  match env.hash config.sha512 (slice req.img 0 imageHdrSize ++ u.layer ++ u.payload) with
  | .error ret => fail (.lib ret)
  | .ok hash =>
    let param ← getConfigCertParam env req
    if env.signatureOff then pure param
    else match getSignatureVerifyKey env config hdr.taConfSize param with
      | .error ret => fail (.lib ret)
      | .ok key =>
        failIf (env.verifyImage config key hash u.signature = false) .generic
        pure param

/-! ## The request -/

/-- `PAGE_ALIGN_UP` of a size with the additional buffer, in 32 bits. -/
def mappedSize (imgSize : Nat) : Nat :=
  ((imgSize + additionalBufSize) % 2^32 + 4095) % 2^32 / 4096 * 4096

def unpackCopyCheckParams : Verify D Unit := do
  change fun s => { s with imgInfo := { s.imgInfo with imgVersion := req.version } }
  failIf (mappedSize req.img.length < req.img.length) .badParameters
  failIf (req.tmpFile.length = 0 ∨ req.tmpFile.length ≥ maxTafsNameLen) .badParameters

/-- `secure_img_load_unpack` up to the verification of the signature. -/
def secureImgLoadUnpack : Verify D Unpacked := do
  unpackCopyCheckParams req
  failIf (req.mapped = false) .badParameters
  change fun s => { s with imgInfo := { s.imgInfo with imgSize := req.img.length } }
  processHeader req.img
  teeSecureImgUnpackV3 env req.img

/-- `elf_verify_reply`, without the result. -/
structure Reply where
  confRegisted : Bool := false
  taProperty : TaProperty := {}
  serviceNameLen : Nat := 0
  serviceName : Bytes := []
  payloadHdr : PayloadHdr := {}
  maniExt : ManiExt := {}
  srvUuid : Uuid := ⟨0, 0, 0, []⟩
  dynConfRegisted : Bool := false
  offTaElf : Option Nat := some 0
  deriving DecidableEq

/-- `secure_img_copy_rsp`: the reply as far as it is filled. -/
def secureImgCopyRsp (info : LoadImgInfo) (payload : PayloadLayer) : Option VerifyError × Reply :=
  if info.imgVersion ≠ cipherLayerVersion then
    (some .badParameters, { confRegisted := payload.confRegisted })
  else
    let part : Reply :=
      { confRegisted := payload.confRegisted
        taProperty := info.manifest.taProperty
        serviceNameLen := info.manifest.serviceNameLen }
    match info.manifest.serviceName with
    | none => (some .generic, part)
    | some name =>
      if info.manifest.serviceNameLen + 1 > serviceNameMaxInManifest then (some .generic, part)
      else
        (none, { part with
          serviceName := name
          payloadHdr := payload.payloadHdr
          maniExt := info.manifest.ext
          srvUuid := info.manifest.srvUuid
          dynConfRegisted := info.dynConfRegisted
          offTaElf := payload.taElf })

/-- `free_verify`, with `free_verify_v3`. -/
def freeVerify (s : State D) : Option VerifyError × State D :=
  if s.imgInfo.imgVersion = cipherLayerVersion then
    (none, { s with imgInfo := {}, imageHdr := {}, payload := {}, cipherLayer := {} })
  else (some .badParameters, s)

/-- The verdict on an image: the certificate it was accepted with, or the error. -/
structure Verdict where
  ret : Except VerifyError CertParam
  reply : Reply
  deriving DecidableEq

/-- The verdict in the state that the verification leaves, before it is cleared. -/
def verdict (ret : Except VerifyError CertParam) (info : LoadImgInfo) (payload : PayloadLayer) :
    Verdict :=
  match ret with
  | .error e =>
    ⟨.error e, if info.dynConfRegisted || payload.confRegisted then
      (secureImgCopyRsp info payload).2 else {}⟩
  | .ok param =>
    match secureImgCopyRsp info payload with
    | (some e, reply) => ⟨.error e, reply⟩
    | (none, reply) => ⟨.ok param, reply⟩

/-- The verification of an image, as one computation. -/
def verifyImage : Verify D CertParam := do
  let u ← secureImgLoadUnpack env req
  teeSecureImgSignatureVerify env req u

/-- `secure_elf_verify`. The error of `free_verify` never decides: it is one of versions
that were refused before. -/
def secureElfVerify (s : State D) : Verdict × State D :=
  let r := verifyImage env req s
  (verdict r.1 r.2.imgInfo r.2.payload, (freeVerify r.2).2)

end TeeOs.ElfVerify
