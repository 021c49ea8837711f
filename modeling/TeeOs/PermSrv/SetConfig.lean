import TeeOs.Conf.Text
import TeeOs.PermSrv.Crl

/-!
# Setting the configuration of a TA

A configuration package holds a header, the certificate of the TA, the configuration
and what its signature is verified with: a built-in key or a certificate.
`teeExtSetConfig` takes it apart, verifies the signature and both certificates and
installs the configuration.

`CertLib` stands for the libraries that read certificates and verify signatures, and for
the keys of the product. `mem` is the memory that a load of the list finds.
-/

namespace TeeOs.PermSrv

open TeeOs.Conf

def taConfigSegmentMagic : Nat := 0xABCDABCD
def configHeaderV1 : Nat := 1
def configHeaderV2 : Nat := 2
def typePubKey : Nat := 0
def typeCert : Nat := 1
def typeCertChain : Nat := 2
def signTypeRsaSha256Pkcs1 : Nat := 1
def signTypeEcdsaSha256 : Nat := 2
def signTypeRsaSha256Pss : Nat := 3
def signConfigAlgBits : Nat := 30
def configSignAlgRsaPss : Nat := 2
def eccSignatureLen : Nat := 72
def offsetMaxVal : Nat := 0xFFFFFFFF
def taCertMaxServiceNameLen : Nat := 27

/-- Both versions of the header have this size. -/
def configHeaderSize : Nat := 44

/-- The bit of the policy version that tells the product. -/
def productBitMap : Nat := 4

/-! ## The package -/

variable (pkg : Bytes) (b : Bytes) (off : Nat)

def byteAt : Nat := (b.getD off 0).toNat

def u16At : Nat := byteAt b off + 2^8 * byteAt b (off+1)

def u32At : Nat := u16At b off + 2^16 * u16At b (off+2)

def slice (off len : Nat) : Bytes := (b.drop off).take len

structure SignVerifyData where
  type : Nat
  signAlg : Nat
  cert : Bytes
  signature : Bytes

structure TaConfigInfo where
  version : Nat
  policyVersion : Nat
  /-- The algorithm bits of the signature length, in a header of version 1. -/
  signSecAlg : Nat := 0
  taCert : Bytes
  tlvConfig : Bytes
  verifyData : SignVerifyData
  /-- What the signature is made over. -/
  signed : Bytes

/-- The end of the field, if it lies within the bytes allowed. -/
def checkAndGetOffVal (offset offLen allowLen : Nat) : Option Nat :=
  if offset > offsetMaxVal - offLen then none
  else if offset + offLen > allowLen then none
  else some (offset + offLen)

def getConfigInfoV1 : Option TaConfigInfo := do
  let taCertLen := u32At pkg 12
  let configLen := u32At pkg 16
  let realSigLen := u32At pkg 20 % 2^signConfigAlgBits
  let algorithm := u32At pkg 20 / 2^signConfigAlgBits
  let certOff ← checkAndGetOffVal 0 configHeaderSize pkg.length
  let configOff ← checkAndGetOffVal certOff taCertLen pkg.length
  let sigOff ← checkAndGetOffVal configOff configLen pkg.length
  let confCertOff ← checkAndGetOffVal sigOff realSigLen pkg.length
  let confCertEnd ← checkAndGetOffVal confCertOff (u32At pkg 24) pkg.length
  let signAlg :=
    if realSigLen = eccSignatureLen then signTypeEcdsaSha256
    else if algorithm = configSignAlgRsaPss then signTypeRsaSha256Pss
    else signTypeRsaSha256Pkcs1
  pure
    { version := configHeaderV1
      policyVersion := u16At pkg 6
      signSecAlg := algorithm
      taCert := slice pkg certOff taCertLen
      tlvConfig := slice pkg configOff configLen
      verifyData :=
        { type := typeCert
          signAlg := signAlg
          cert := slice pkg confCertOff (confCertEnd - confCertOff)
          signature := slice pkg sigOff realSigLen }
      signed := slice pkg 0 sigOff }

/-- The segment with the signature: its type, the algorithm, a certificate with its
length, and the signature in the rest. -/
def getSignVerifyData (data : Bytes) : Option SignVerifyData := do
  let algOff ← checkAndGetOffVal 0 4 data.length
  let lenOff ← checkAndGetOffVal algOff 4 data.length
  let certOff ← checkAndGetOffVal lenOff 4 data.length
  let sigOff ← checkAndGetOffVal certOff (u32At data lenOff) data.length
  pure
    { type := u32At data 0
      signAlg := u32At data algOff
      cert := slice data certOff (u32At data lenOff)
      signature := data.drop sigOff }

def getConfigInfoV2 : Option TaConfigInfo := do
  let taCertLen := u32At pkg 12
  let configLen := u32At pkg 16
  let verifyLen := u32At pkg 20
  let certOff ← checkAndGetOffVal 0 configHeaderSize pkg.length
  let configOff ← checkAndGetOffVal certOff taCertLen pkg.length
  -- the certificate of the TA comes after its type
  let inner ← checkAndGetOffVal 0 4 taCertLen
  let verifyOff ← checkAndGetOffVal configOff configLen pkg.length
  let _ ← checkAndGetOffVal verifyOff verifyLen pkg.length
  let verifyData ← getSignVerifyData (slice pkg verifyOff verifyLen)
  pure
    { version := configHeaderV2
      policyVersion := u16At pkg 6
      taCert := slice pkg (certOff + inner) (taCertLen - inner)
      tlvConfig := slice pkg configOff configLen
      verifyData := verifyData
      signed := slice pkg 0 verifyOff }

/-- The header is read and the package taken apart by its version. -/
def getConfigInfo : Option TaConfigInfo :=
  if pkg.length ≤ configHeaderSize then none
  else if u32At pkg 0 ≠ taConfigSegmentMagic then none
  else if u16At pkg 4 = configHeaderV1 then getConfigInfoV1 pkg
  else if u16At pkg 4 = configHeaderV2 then getConfigInfoV2 pkg
  else none

/-- A package of the OpenHarmony product. -/
def TaConfigInfo.isOh (info : TaConfigInfo) : Bool :=
  info.version = configHeaderV1 && (info.policyVersion / productBitMap) % 2 = 1

/-! ## Certificates -/

inductive CaType
  | unset
  | pub
  | priv
  deriving DecidableEq

/-- What is read from certificates, and the keys that the product knows. An empty key
is none. -/
structure CertLib where
  validate : Bytes → Bytes → Bool
  unexpired : Bytes → Bool
  issuer : Bytes → Option Bytes
  serial : Bytes → Option Bytes
  /-- The names in a certificate of a configuration, and in one of a TA. -/
  configSubjects : Bytes → Bool → Bool
  taSubjects : Bytes → Bool → Uuid → Bytes → Bool
  publicKey : Bytes → Option Bytes
  verifyDigest : Nat → Bytes → Bytes → Bytes → Bool
  caPubkey : Bytes
  pubCaKey : Nat → Bytes
  privCaKey : Nat → Bytes
  importedKey : Option Bytes
  configPubKey : Option Bytes
  parseConfigBody : Uuid → Bytes → Bool

structure PermState where
  crl : RevokedConfig := {}
  caType : CaType := .unset
  configs : List (Uuid × Bytes) := []

/-- The kind of image that is being loaded. -/
structure ImgInfo where
  drvTargetType : Bool
  hardwareEngineCrypto : Bool

/-- A request to set a configuration: the package, the TA, whether the system verifies
it, the image being loaded, and the memory for the loads of the revocation list before
the check of each certificate. -/
structure SetConfigReq where
  conf : Bytes
  uuid : Uuid
  serviceName : Bytes
  sysVerifyTa : Bool
  img : Option ImgInfo
  configMem : Nat
  taMem : Nat

variable (lib : CertLib)

/-- Loads the list unless it is there; a failure is only logged. -/
def checkCrlCertCtlList (img : Option ImgInfo) (mem : Nat) (st : PermState) : PermState :=
  match img with
  | none => st
  | some i =>
    if i.drvTargetType && i.hardwareEngineCrypto then st
    else { st with crl := (globalTaCrlListLoading true st.crl mem).1 }

def notRevoked (crl : RevokedConfig) (cert : Bytes) : Bool :=
  match lib.issuer cert, lib.serial cert with
  | some issuer, some sn => checkCertRevoked crl sn issuer = some false
  | _, _ => false

def certValidationCheck (crl : RevokedConfig) (cert key : Bytes) : Bool :=
  lib.validate cert key && lib.unexpired cert && notRevoked lib crl cert

variable (info : TaConfigInfo) (cert : Bytes) (r : SetConfigReq) (st : PermState)

/-- The check against the public and then the private CA, and which one signed. -/
def checkOhCertValidation : PermState × Bool :=
  if (lib.pubCaKey info.signSecAlg).isEmpty || (lib.privCaKey info.signSecAlg).isEmpty then
    (st, false)
  else if certValidationCheck lib st.crl cert (lib.pubCaKey info.signSecAlg) then
    ({ st with caType := .pub }, true)
  else if certValidationCheck lib st.crl cert (lib.privCaKey info.signSecAlg) then
    ({ st with caType := .priv }, true)
  else (st, false)

/-- The key of the product, or an imported one for a TA that the system does not verify. -/
def ownCaKey (sysVerifyTa : Bool) (caKey : Bytes) : Bytes :=
  if sysVerifyTa then caKey
  else match lib.importedKey with
    | some key => if key.isEmpty then caKey else key
    | none => caKey

/-- The signature and the revocation of a configuration certificate. -/
def verifyConfigCert : PermState × Bool :=
  if info.isOh then checkOhCertValidation lib info cert st
  else
    let caKey := ownCaKey lib r.sysVerifyTa lib.caPubkey
    if caKey.isEmpty then (st, false)
    else
      let st := checkCrlCertCtlList r.img r.configMem st
      (st, certValidationCheck lib st.crl cert caKey)

def checkConfigCertValidation : PermState × Option Bytes :=
  match verifyConfigCert lib info cert r st with
  | (st, false) => (st, none)
  | (st, true) =>
    if lib.configSubjects cert r.sysVerifyTa then (st, lib.publicKey cert) else (st, none)

def validateSignVerifyData : PermState × Option Bytes :=
  if info.verifyData.type = typePubKey then (st, lib.configPubKey)
  else if info.verifyData.type = typeCert then
    checkConfigCertValidation lib info info.verifyData.cert r st
  else (st, none)

def configSignatureVerify : PermState × Bool :=
  match validateSignVerifyData lib info r st with
  | (st, none) => (st, false)
  | (st, some key) =>
    (st, lib.verifyDigest info.verifyData.signAlg key info.signed info.verifyData.signature)

def taCertVerify : PermState × Bool :=
  let platKey :=
    if info.isOh then
      if st.caType = .pub then lib.pubCaKey info.signSecAlg else lib.privCaKey info.signSecAlg
    else lib.caPubkey
  let caKey := ownCaKey lib r.sysVerifyTa platKey
  if caKey.isEmpty then (st, false)
  else
    let st := checkCrlCertCtlList r.img r.taMem st
    (st, certValidationCheck lib st.crl info.taCert caKey &&
      lib.taSubjects info.taCert r.sysVerifyTa r.uuid r.serviceName &&
      (lib.publicKey info.taCert).isSome)

def taCertVerifyV5 : PermState × Bool :=
  let st := checkCrlCertCtlList r.img r.taMem st
  (st, lib.unexpired info.taCert &&
    lib.taSubjects info.taCert r.sysVerifyTa r.uuid r.serviceName &&
    notRevoked lib st.crl info.taCert)

def taCertInfoVerify : PermState × Bool :=
  if info.verifyData.type = typeCertChain then taCertVerifyV5 lib info r st
  else taCertVerify lib info r st

/-- Whether the configuration was set, and installed with it. -/
def teeExtSetConfig : PermState × Bool :=
  if r.conf.length = 0 ∨ r.serviceName.length = 0 ∨
      r.serviceName.length > taCertMaxServiceNameLen then (st, false)
  else match getConfigInfo r.conf with
    | none => (st, false)
    | some info =>
      match configSignatureVerify lib info r st with
      | (st, false) => (st, false)
      | (st, true) =>
        match taCertInfoVerify lib info r st with
        | (st, false) => (st, false)
        | (st, true) =>
          if lib.parseConfigBody r.uuid info.tlvConfig then
            ({ st with configs := st.configs ++ [(r.uuid, info.tlvConfig)] }, true)
          else (st, false)

/-! ## The parts of the answer -/

section Parts

variable {lib : CertLib} {info : TaConfigInfo} {cert : Bytes} {r : SetConfigReq} {st : PermState}

theorem checkConfigCertValidation_eq : checkConfigCertValidation lib info cert r st =
    ((verifyConfigCert lib info cert r st).1,
      if (verifyConfigCert lib info cert r st).2 && lib.configSubjects cert r.sysVerifyTa then
        lib.publicKey cert
      else none) := by
  unfold checkConfigCertValidation
  rcases verifyConfigCert lib info cert r st with ⟨s, _ | _⟩
  · rfl
  · dsimp only
    rw [Bool.true_and]
    split
    · rfl
    · rfl

theorem configSignatureVerify_eq : configSignatureVerify lib info r st =
    ((validateSignVerifyData lib info r st).1, (validateSignVerifyData lib info r st).2.any fun key =>
      lib.verifyDigest info.verifyData.signAlg key info.signed info.verifyData.signature) := by
  unfold configSignatureVerify
  rcases validateSignVerifyData lib info r st with ⟨s, _ | key⟩
  · rfl
  · rfl

theorem configs_checkCrlCertCtlList (img : Option ImgInfo) (mem : Nat) :
    (checkCrlCertCtlList img mem st).configs = st.configs := by
  unfold checkCrlCertCtlList
  split
  · rfl
  · split
    · rfl
    · rfl

theorem configs_configSignatureVerify :
    (configSignatureVerify lib info r st).1.configs = st.configs := by
  rw [configSignatureVerify_eq]
  unfold validateSignVerifyData
  split
  · rfl
  split
  · rw [checkConfigCertValidation_eq]
    unfold verifyConfigCert checkOhCertValidation
    dsimp only
    split_ifs
    · rfl
    · rfl
    · rfl
    · rfl
    · rfl
    · exact configs_checkCrlCertCtlList _ _
  · rfl

theorem configs_taCertInfoVerify : (taCertInfoVerify lib info r st).1.configs = st.configs := by
  unfold taCertInfoVerify taCertVerifyV5 taCertVerify
  dsimp only
  generalize ownCaKey lib r.sysVerifyTa _ = caKey
  split_ifs
  · exact configs_checkCrlCertCtlList _ _
  · rfl
  · exact configs_checkCrlCertCtlList _ _

theorem teeExtSetConfig_eq : teeExtSetConfig lib r st =
    if r.conf.length = 0 ∨ r.serviceName.length = 0 ∨
        r.serviceName.length > taCertMaxServiceNameLen then (st, false)
    else match getConfigInfo r.conf with
      | none => (st, false)
      | some info =>
        let sig := configSignatureVerify lib info r st
        let ta := taCertInfoVerify lib info r sig.1
        if sig.2 then
          if ta.2 && lib.parseConfigBody r.uuid info.tlvConfig then
            ({ ta.1 with configs := ta.1.configs ++ [(r.uuid, info.tlvConfig)] }, true)
          else (ta.1, false)
        else (sig.1, false) := by
  unfold teeExtSetConfig
  split
  · rfl
  cases getConfigInfo r.conf with
  | none => rfl
  | some info =>
    dsimp only
    rcases configSignatureVerify lib info r st with ⟨st, _ | _⟩
    · rfl
    dsimp only
    rcases taCertInfoVerify lib info r st with ⟨st, _ | _⟩
    · rfl
    · rfl

end Parts

end TeeOs.PermSrv
