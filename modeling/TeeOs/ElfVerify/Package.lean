import TeeOs.ElfVerify.Manifest
import TeeOs.Lib.TwoRuns

/-!
# The configuration package of an image

The state is what outlives a request of `secure_elf_verify`: the header and layers of the
image (`tee_v3_elf_verify.c`, `tee_elf_verify.c`), the class of the last configuration
certificate and its CA (`perm_srv_set_config.c`), the revocation list, the installed
configurations, and drvmgr. `teeExtSetConfig` verifies the package and installs it.

Cryptography, certificates and drvmgr's answers are functions of `Env`. Allocations
succeed, and addresses in the reply are offsets into the image.
-/

namespace TeeOs.ElfVerify

open TeeOs.Conf (Uuid maxImageLen)
open TeeOs.Lib Act
open TeeOs.Lib.CText (Text)
open TeeOs.PermSrv

/-! ## The state -/

structure ImageHdr where
  contextLen : Nat := 0
  taKeyVersion : Nat := 0
  deriving DecidableEq

structure CipherHdr where
  keySize : Nat := 0
  ivSize : Nat := 0
  signatureAlg : Nat := 0
  deriving DecidableEq

structure CipherLayer where
  cipherHdr : CipherHdr := {}
  key : Option Bytes := none
  iv : Option Bytes := none
  deriving DecidableEq

structure PayloadHdr where
  formatVersion : Nat := 0
  maniInfoSize : Nat := 0
  maniExtSize : Nat := 0
  taElfSize : Nat := 0
  taConfSize : Nat := 0
  deriving DecidableEq

structure PayloadLayer where
  payloadHdr : PayloadHdr := {}
  taElf : Option Nat := none
  taConf : Bytes := []
  confRegisted : Bool := false
  deriving DecidableEq

structure LoadImgInfo where
  manifest : Manifest := {}
  imgSize : Nat := 0
  imgVersion : Nat := 0
  dynConfRegisted : Bool := false
  deriving DecidableEq

structure State (D : Type) where
  cipherLayerLen : Nat := 0
  isEncryptedSec : Bool := true
  imageHdr : ImageHdr := {}
  cipherLayer : CipherLayer := {}
  imgInfo : LoadImgInfo := {}
  payload : PayloadLayer := {}
  confCertType : ConfCert := .debug
  caType : CaType := .unset
  crl : RevokedConfig := {}
  configs : List ConfigEntry := []
  drv : D
  deriving DecidableEq

structure CertParam where
  sysVerifyTa : Bool := false
  certType : TaCert := .debug
  publicKey : Bytes := []
  deriving DecidableEq

structure SignConfig where
  keyLen : Nat
  sha512 : Bool
  pss : Bool
  release : Bool
  signTaAlg : Nat
  deriving DecidableEq

structure Env (D : Type) where
  certs : CertLib
  dynImportCert : Bool
  subjects : Bytes → Option CertSubjects
  /-- `conf_cert_cn_check`. -/
  confCn : Bytes → Bool
  parserPythonTlv : Bytes → Nat → ConfigInfo → Option ConfigInfo
  register : Registration → D → D × Bool
  decryptCipherLayer : Bytes → Except Nat Bytes
  decryptPayload : CipherLayer → Bytes → Option Bytes
  hash : Bool → Bytes → Except Nat Bytes
  /-- `get_ta_verify_pubkey`. -/
  verifyPubkey : Nat → Bool → Except Nat Bytes
  verifyImage : SignConfig → Bytes → Bytes → Bytes → Bool
  /-- `get_ta_signature_ctrl` and `ta_local_sign_check`. -/
  signatureOff : Bool
  localSign : Bool

/-- `elf_verify_req` and the file it names, if that can be mapped. The memory is for the
loads of the revocation list. -/
structure ElfVerifyReq where
  version : Nat
  tmpFile : Bytes
  img : Bytes
  mapped : Bool
  configMem : Nat
  taMem : Nat

variable {D : Type}

/-- A step of a verification. -/
abbrev Verify (D : Type) := Act (State D) VerifyError

/-! ## The manifest and the dynamic configuration -/

def setManifest (f : Manifest → Manifest) (s : State D) : State D :=
  { s with imgInfo := { s.imgInfo with manifest := f s.imgInfo.manifest } }

def setCipherLayer (f : CipherLayer → CipherLayer) (s : State D) : State D :=
  { s with cipherLayer := f s.cipherLayer }

def setPayload (f : PayloadLayer → PayloadLayer) (s : State D) : State D :=
  { s with payload := f s.payload }

/-- The name of the service is freed when the manifest is refused. -/
def freeServiceName (s : State D) : State D :=
  setManifest (fun m => { m with serviceName := none }) s

def refuseManifest {α : Type} (e : VerifyError) : Verify D α := do
  change freeServiceName
  fail e

variable (env : Env D)

/-- `register_conf` for what the manifest or a package brings. -/
def registerConf (reg : Registration) : Verify D Bool := do
  let ok ← reads fun s => (env.register reg s.drv).2
  change fun s => { s with drv := (env.register reg s.drv).1 }
  pure ok

/-- `tee_secure_img_parse_manifest_v3`: the size of the extension without the dynamic
configuration. A package brings the target type it expects. -/
def teeSecureImgParseManifestV3 (text : Bytes) (expected : Option Nat) : Verify D Nat := do
  let m ← reads fun s => s.imgInfo.manifest
  failIf (expected.any fun t => t ≠ m.ext.targetType) .badParameters
  let e := teeSecureImgManifestExtentionProcess text m.ext
  change (setManifest fun m => { m with ext := e.ext })
  if e.ext.apiLevel > apiLevel12 then refuseManifest .badParameters
  else match e.ret, e.dynConf with
    | some ret, _ => refuseManifest ret
    | none, none => pure text.length
    | none, some conf =>
      match dynConfRegistration { m with ext := e.ext } text.length conf with
      | none => refuseManifest .generic
      | some reg =>
        let ok ← registerConf env reg
        if ok then
          change fun s => { s with imgInfo := { s.imgInfo with dynConfRegisted := true } }
          pure (text.length - conf.length)
        else refuseManifest .generic

/-! ## The configuration package -/

/-- `TEE_UUID` from the numbers in it. -/
def toTeeUuid (u : Uuid) : TeeUuid :=
  { timeLow := .ofNat u.timeLow
    timeMid := .ofNat u.timeMid
    timeHiAndVersion := .ofNat u.timeHiAndVersion
    clockSeqAndNode := Vector.ofFn fun i => .ofNat (u.clockSeqAndNode.getD i 0) }

/-- Whether the organisational units are looked at. -/
def Env.checksOu (env : Env D) (sysVerifyTa : Bool) : Bool := !(env.dynImportCert && !sysVerifyTa)

variable (conf : ConfCert) (cert : Bytes) (sysVerifyTa : Bool) (uuid : Uuid) (pc : PermConfig)
  (info : TaConfigInfo) (r : SetConfigReq)

/-- `config_cert_cn_ou_check`: whether the certificate is accepted. -/
def configCertCnOuCheck : Bool :=
  match env.subjects cert with
  | none => false
  | some s => env.confCn s.cn && (!env.checksOu sysVerifyTa || (confCertOuCheck s).isSome)

/-- The class that `config_cert_cn_ou_check` leaves in `g_conf_cert_type`. -/
def classAfterCert (conf : ConfCert) : ConfCert :=
  match env.subjects cert with
  | none => conf
  | some s =>
    if env.confCn s.cn && env.checksOu sysVerifyTa then (confCertOuCheck s).getD conf else conf

def taCertType (serviceName : Bytes) : Option TaCert :=
  (env.subjects cert).bind
    (taCertCnOuCheck env.dynImportCert conf sysVerifyTa (toTeeUuid uuid) serviceName)

/-- The certificate functions, with the class that a TA certificate has to be of. -/
def Env.forClass (env : Env D) (conf : ConfCert) : CertLib :=
  { env.certs with
    configSubjects := configCertCnOuCheck env
    taSubjects := fun cert sysVerifyTa uuid name =>
      (taCertType env conf cert sysVerifyTa uuid name).isSome }

/-- The class after `config_signature_verify`: only a configuration certificate that was
found valid has one. -/
def classAfter (st : PermState)
    (conf : ConfCert) : ConfCert :=
  if info.verifyData.type = typeCert ∧
      (verifyConfigCert (env.forClass conf) info info.verifyData.cert r st).2 then
    classAfterCert env info.verifyData.cert r.sysVerifyTa conf
  else conf

/-- The part of the state that `PermSrv.configSignatureVerify` works on. -/
def State.perm (s : State D) : PermState := { crl := s.crl, caType := s.caType }

def State.setPerm (s : State D) (st : PermState) : State D :=
  { s with crl := st.crl, caType := st.caType }

def configSignatureVerifyStep : Verify D Unit :=
  fun s =>
    let res := configSignatureVerify (env.forClass s.confCertType) info r s.perm
    let s' := { s.setPerm res.1 with
      confCertType := classAfter env info r s.perm s.confCertType }
    (if res.2 then .ok () else .error .generic, s')

/-- `ta_cert_info_verify`: the type of the TA certificate. -/
def taCertInfoVerifyStep : Verify D TaCert :=
  fun s =>
    let res := taCertInfoVerify (env.forClass s.confCertType) info r s.perm
    let type := taCertType env s.confCertType info.taCert r.sysVerifyTa r.uuid r.serviceName
    (match res.2, type with
      | true, some type => .ok type
      | _, _ => .error .generic,
    s.setPerm res.1)

/-- The package from its configuration on, behind the header and the TA certificate. -/
def tlvBuf (conf : Bytes) : Bytes := conf.drop (configHeaderSize + u32At conf 12)

/-- What `perm_srv_parse_config_body` finds before the dynamic section. -/
def checkedConfig : Option ConfigInfo :=
  if parseConfigBodyCheck pc then none
  else match bodyConfig ⟨env.parserPythonTlv, fun _ _ _ => false⟩ pc with
    | none => none
    | some config =>
      if pc.certType = .release ∧ checkCnValidation pc.cn config = false then none
      else
        let config :=
          if pc.certType = .release then
            { config with controlInfo := { config.controlInfo with validDevice := true } }
          else config
        some { config with version := pc.policyVersion }

def parseDyntlvBufStep (config : ConfigInfo) : Verify D Unit := do
  let dynconfLen := checkContainDynconf pc
  if dynconfLen = 0 then pure ()
  else
    failIf (toTeeUuid uuid ≠ config.uuid) .generic
    let text := (pc.tlvBuf.drop (pc.tlvLen - dynconfLen)).take (dynconfLen + 1)
    let _ ← teeSecureImgParseManifestV3 env text (some config.manifestInfo.targetType)
    pure ()

def permSrvParseConfigBodyStep : Verify D Unit := do
  let config ← get? (checkedConfig env pc) .generic
  parseDyntlvBufStep env uuid pc config
  change fun s => { s with configs := permSrvUpdateConfigBySameUuid s.configs config }

def teeExtSetConfig : Verify D CertParam := do
  failIf (r.conf.length = 0 ∨ r.serviceName.length = 0 ∨
    r.serviceName.length > taCertMaxServiceNameLen) .badParameters
  let info ← get? (getConfigInfo r.conf) .generic
  configSignatureVerifyStep env info r
  let certType ← taCertInfoVerifyStep env info r
  let publicKey ← get? (env.certs.publicKey info.taCert) .generic
  let subjects ← get? (env.subjects info.taCert) .generic
  permSrvParseConfigBodyStep env r.uuid
    ⟨tlvBuf r.conf, info.tlvConfig.length, info.policyVersion, subjects.cn, certType⟩
  pure { sysVerifyTa := r.sysVerifyTa, certType, publicKey }

/-! ## The permission service -/

/-- What the body of a package leaves alone. -/
structure SameCerts (s t : State D) : Prop where
  crl : t.crl = s.crl
  caType : t.caType = s.caType
  confCertType : t.confCertType = s.confCertType

variable {s t : State D}

theorem SameCerts.manifest (h : SameCerts s t) (text : Bytes) (expected : Option Nat) :
    Ends (teeSecureImgParseManifestV3 env text expected) (fun _ => SameCerts s)
      (fun _ => SameCerts s) t := by
  unfold teeSecureImgParseManifestV3 refuseManifest registerConf
  simp only [ends_steps]
  refine ⟨fun _ => h, fun _ => ⟨fun _ => { h with }, fun _ => ?_⟩⟩
  split
  · exact { h with }
  · exact { h with }
  · split
    · exact { h with }
    · simp only [ends_steps]
      exact ⟨fun _ => { h with }, fun _ => { h with }⟩

theorem SameCerts.body (h : SameCerts s t) : Ends (permSrvParseConfigBodyStep env uuid pc)
    (fun _ => SameCerts s) (fun _ => SameCerts s) t := by
  unfold permSrvParseConfigBodyStep parseDyntlvBufStep
  simp only [ends_steps]
  refine ⟨fun _ => h, fun config _ => ⟨fun _ => { h with }, fun _ => ⟨fun _ => h, fun _ => ?_⟩⟩⟩
  exact (h.manifest env _ _).imp (fun _ _ h => { h with }) fun _ _ h => h

/-- The library of the permission service, for certificates of the class `conf` and a body
that is answered with `ok`. -/
def Env.answering (conf : ConfCert) (ok : Bool) : CertLib :=
  { env.forClass conf with parseConfigBody := fun _ _ => ok }

/-- The permission service answers `ok` and leaves the list and the CA of `t`. -/
def PermAnswers (s : State D) (ok : Bool) (t : State D) : Prop :=
  ∃ configs, PermSrv.teeExtSetConfig (env.answering t.confCertType ok) r s.perm =
    ({ t.perm with configs := configs }, ok)

section Answers

variable {env : Env D} {r : SetConfigReq} {info : TaConfigInfo} {st st' : PermState} {valid : Bool}
  (hreq : ¬ (r.conf.length = 0 ∨ r.serviceName.length = 0 ∨
    r.serviceName.length > taCertMaxServiceNameLen))
  (hinfo : getConfigInfo r.conf = some info)

include hreq hinfo

theorem PermAnswers.of_signature
    (hsig : configSignatureVerify (env.forClass s.confCertType) info r s.perm = (st, false))
    (ht : t.crl = st.crl ∧ t.caType = st.caType) : PermAnswers env r s false t := by
  have hsig' : configSignatureVerify (env.answering t.confCertType false) info r s.perm =
    (st, false) := hsig
  refine ⟨st.configs, ?_⟩
  simp only [PermSrv.teeExtSetConfig_eq, if_neg hreq, hinfo, hsig', Bool.false_eq_true, if_false]
  simp only [State.perm, ht]

/-- After both certificates only the body is left to be answered. -/
theorem PermAnswers.of_taCert
    (hsig : configSignatureVerify (env.forClass s.confCertType) info r s.perm = (st, true))
    (hta : taCertInfoVerify (env.forClass t.confCertType) info r st = (st', valid))
    (ht : t.crl = st'.crl ∧ t.caType = st'.caType) {ok : Bool} (hok : ok = true → valid = true) :
    PermAnswers env r s ok t := by
  have hsig' : configSignatureVerify (env.answering t.confCertType ok) info r s.perm = (st, true) :=
    hsig
  have hta' : taCertInfoVerify (env.answering t.confCertType ok) info r st = (st', valid) := hta
  have hbody : (env.answering t.confCertType ok).parseConfigBody r.uuid info.tlvConfig = ok := rfl
  unfold PermAnswers
  simp only [PermSrv.teeExtSetConfig_eq, if_neg hreq, hinfo, hsig', hta', hbody, if_true]
  simp only [State.perm, ht]
  cases ok with
  | false => exact ⟨st'.configs, by rw [Bool.and_false]; rfl⟩
  | true =>
    rw [hok rfl]
    exact ⟨_, rfl⟩

end Answers

/-- `PermSrv.teeExtSetConfig` is this function with the body of the package left to its
library: the run has its answer, its list and its CA. -/
theorem teeExtSetConfig_permAnswers (s : State D) :
    Ends (teeExtSetConfig env r) (fun _ => PermAnswers env r s true)
      (fun _ => PermAnswers env r s false) s := by
  unfold teeExtSetConfig
  simp only [ends_steps]
  refine ⟨fun hreq => ⟨_, if_pos hreq⟩, fun hreq => ⟨fun hinfo => ⟨[], ?_⟩, fun info hinfo => ?_⟩⟩
  · rw [PermSrv.teeExtSetConfig, if_neg hreq, hinfo]
    rfl
  have hconfigs :
      (configSignatureVerify (env.forClass s.confCertType) info r s.perm).1.configs = [] :=
    configs_configSignatureVerify
  rw [Ends, configSignatureVerifyStep]
  rcases hsig : configSignatureVerify (env.forClass s.confCertType) info r s.perm with ⟨st, _ | _⟩
  · exact .of_signature hreq hinfo hsig ⟨rfl, rfl⟩
  rw [hsig] at hconfigs
  obtain ⟨crl, caType, configs⟩ := st
  obtain rfl : configs = [] := hconfigs
  dsimp only
  rw [if_pos rfl]
  generalize hs₁ : ({ s.setPerm _ with confCertType := _ } : State D) = s₁
  have hperm : s₁.perm = ⟨crl, caType, []⟩ := by
    rw [← hs₁]
    rfl
  show Ends (taCertInfoVerifyStep env info r) _ _ s₁
  rw [Ends, taCertInfoVerifyStep, hperm]
  rcases hta : taCertInfoVerify (env.forClass s₁.confCertType) info r ⟨crl, caType, []⟩
    with ⟨st', valid⟩
  have hjudged : ∀ {t ok}, SameCerts (s₁.setPerm st') t → (ok = true → valid = true) →
      PermAnswers env r s ok t := by
    intro t ok ht hok
    refine .of_taCert hreq hinfo hsig ?_ ⟨ht.crl, ht.caType⟩ hok
    rw [ht.confCertType]
    exact hta
  have hnone : ∀ {t}, SameCerts (s₁.setPerm st') t → PermAnswers env r s false t :=
    fun ht => hjudged ht fun h => absurd h Bool.false_ne_true
  have hrefused : PermAnswers env r s false (s₁.setPerm st') := hnone ⟨rfl, rfl, rfl⟩
  cases valid with
  | false => exact hrefused
  | true =>
    cases taCertType env s₁.confCertType info.taCert r.sysVerifyTa r.uuid r.serviceName with
    | none => exact hrefused
    | some type =>
      refine ⟨fun _ => hrefused, fun key _ => ⟨fun _ => hrefused, fun subjects _ => ?_⟩⟩
      exact (SameCerts.body env _ _ ⟨rfl, rfl, rfl⟩).imp (fun _ _ ht => hjudged ht fun _ => rfl)
        fun _ _ ht => hnone ht

end TeeOs.ElfVerify
