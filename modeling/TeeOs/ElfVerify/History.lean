import TeeOs.ElfVerify.OwnClass
import TeeOs.PermSrv.OwnConfig

/-!
# The verdict on an image and the images before it

The variables of the image are clear whenever a request starts. What is left of the images
before are the revocation list, drvmgr and the class of the last configuration certificate, to
which a package that is signed with the built-in key has its TA certificate held.
-/

namespace TeeOs.ElfVerify

open TeeOs.Lib List
open TeeOs.Lib.Runs
open TeeOs.Lib.Tlv (le32)
open TeeOs.PermSrv

variable {D : Type} {env : Env D} {b : Base} {req : ElfVerifyReq} {s t : State D} {version : Nat}

/-! ## One image in two states -/

/-- The states at the entry: as `Agree`, but the version is still that of another image. -/
structure Start (env : Env D) (s t : State D) : Prop where
  manifest : s.imgInfo.manifest = t.imgInfo.manifest
  dynConfRegisted : s.imgInfo.dynConfRegisted = t.imgInfo.dynConfRegisted
  cipherLayer : s.cipherLayer = t.cipherLayer
  payload : s.payload = t.payload
  crl : listSeen s.crl = listSeen t.crl
  drv : SameAnswers env s.drv t.drv

/-- The package in the state is held to a class of its own, or the classes are the same. -/
def KeepsClass (env : Env D) (b : Base) (s : State D) : Prop :=
  ∀ info, getConfigInfo s.payload.taConf = some info → info.verifyData.type = typePubKey →
    env.checksOu s.imgInfo.manifest.ext.sysVerifyTa = true → b.class₁ = b.class₂

theorem Ended.setPayload {l l' : List ConfigEntry} {f : PayloadLayer → PayloadLayer}
    (h : Ended version l l' s t) : Ended version l l' (setPayload f s) (setPayload f t) :=
  { h with payload := congrArg f h.payload }

theorem getConfigCertParam_alike :
    Alike (fun s t => Headed env b s t ∧ KeepsClass env b s) (getConfigCertParam env req)
      (fun _ => b.Ended) b.Ended := by
  apply Alike.readsEq (fun _ _ h => h.1.payload)
  intro payload
  apply Alike.readsEq (fun _ _ h => h.1.1.manifest)
  intro m
  apply Alike.ite
  · exact .pure fun _ _ h => h.1.1.1.ended
  apply Alike.get? (fun _ _ h => h.1.1.1.ended)
  intro serviceName _
  rintro s t ⟨⟨⟨hst, hkeep⟩, rfl⟩, rfl⟩
  refine Alike.bind (teeExtSetConfig_alike ?_) (fun param => ?_) s t hst
  · exact hkeep
  · exact .change (fun _ _ h => h.setPayload) (.pure fun _ _ h => h)

theorem teeSecureImgSignatureVerify_alike (u : Unpacked) :
    Alike (fun s t => Headed env b s t ∧ KeepsClass env b s) (teeSecureImgSignatureVerify env req u)
      (fun _ => b.Ended) b.Ended := by
  apply Alike.reads (fun _ _ h => congrArg (fun c => c.cipherHdr.signatureAlg) h.1.cipherLayer)
  intro alg
  apply Alike.reads (fun _ _ h => h.1.isEncryptedSec)
  intro encrypted
  apply Alike.failIf (fun _ _ h => h.1.ended)
  intro _
  apply Alike.reads (fun _ _ h => congrArg PayloadLayer.payloadHdr h.1.payload)
  intro hdr
  apply Alike.failIf (fun _ _ h => h.1.ended)
  intro _
  split
  · exact .fail fun _ _ h => h.1.ended
  refine .bind getConfigCertParam_alike fun param => ?_
  apply Alike.ite
  · exact .pure fun _ _ h => h
  split
  · exact .fail fun _ _ h => h
  apply Alike.failIf (fun _ _ h => h)
  intro _
  exact .pure fun _ _ h => h

/-- What the two runs start from. -/
def baseOf (req : ElfVerifyReq) (s t : State D) : Base :=
  ⟨req.version, s.confCertType, t.confCertType, s.configs, t.configs⟩

theorem secureImgLoadUnpack_alike (s₀ t₀ : State D) :
    Alike (fun s t => Start env s t ∧ s = s₀ ∧ t = t₀) (secureImgLoadUnpack env req)
      (fun _ => Headed env (baseOf req s₀ t₀))
      (Ended req.version s₀.configs t₀.configs) := by
  refine .bind (R := fun _ => Agree env (baseOf req s₀ t₀)) ?_ fun _ => ?_
  · refine .change (R := Agree env (baseOf req s₀ t₀)) ?_ ?_
    · rintro s t ⟨h, rfl, rfl⟩
      exact { h with
        version₁ := rfl, version₂ := rfl, class₁ := rfl, class₂ := rfl
        configs₁ := rfl, configs₂ := rfl }
    apply Alike.failIf (fun _ _ h => h.ended)
    intro _
    exact .ite (.fail fun _ _ h => h.ended) (.pure fun _ _ h => h)
  apply Alike.failIf (fun _ _ h => h.ended)
  intro _
  refine .change (R := Agree env (baseOf req s₀ t₀)) (fun _ _ h => { h with }) ?_
  exact .bind (processHeader_alike req.img) fun _ => teeSecureImgUnpackV3_alike req.img

/-- The image brings a package that is signed with the built-in key, and the units of its
certificates are looked at. -/
def builtInSigned (env : Env D) (req : ElfVerifyReq) (s : State D) : Bool :=
  match secureImgLoadUnpack env req s with
  | (.error _, _) => false
  | (.ok _, s) =>
    match getConfigInfo s.payload.taConf with
    | none => false
    | some info =>
      decide (info.verifyData.type = typePubKey) &&
        env.checksOu s.imgInfo.manifest.ext.sysVerifyTa

theorem verifyImage_sameEnd (h : Start env s t)
    (hclass : builtInSigned env req s = true → s.confCertType = t.confCertType) :
    SameEnd (fun _ => Ended req.version s.configs t.configs) (Ended req.version s.configs t.configs)
      (verifyImage env req s) (verifyImage env req t) := by
  have hunpack : Alike (fun x y => Start env x y ∧ x = s ∧ y = t) (secureImgLoadUnpack env req)
      (fun _ x y => Headed env (baseOf req s t) x y ∧ KeepsClass env (baseOf req s t) x)
      (Ended req.version s.configs t.configs) := by
    refine ((secureImgLoadUnpack_alike s t).tracked s).weaken (fun x y hxy => ⟨hxy, hxy.2.1⟩) ?_
    rintro u x y ⟨hhead, hrun⟩
    refine ⟨hhead, fun info hinfo hpub hou => hclass ?_⟩
    simp only [builtInSigned, hrun, hinfo, hpub, hou, decide_true, Bool.and_self]
  exact Alike.bind hunpack (fun u => teeSecureImgSignatureVerify_alike u) s t ⟨h, rfl, rfl⟩

/-! ## The verdict -/

/-- The configuration that is installed for a TA. -/
def installed (s : State D) (u : TeeUuid) : Option ConfigInfo :=
  (getConfigEntry s.configs u).map ConfigEntry.config

theorem verdict_congr {l l' : List ConfigEntry} (h : Ended version l l' s t)
    (ret : Except VerifyError CertParam) :
    verdict ret s.imgInfo s.payload = verdict ret t.imgInfo t.payload := by
  have hcopy : secureImgCopyRsp s.imgInfo s.payload = secureImgCopyRsp t.imgInfo t.payload := by
    unfold secureImgCopyRsp
    rw [h.version₁, h.version₂, h.manifest, h.payload, h.dynConfRegisted]
  unfold verdict
  rw [hcopy, h.dynConfRegisted, h.payload]

theorem getConfigEntry_update_of_ne {l : List ConfigEntry} {config : ConfigInfo} {u : TeeUuid}
    (hu : u ≠ config.uuid) :
    getConfigEntry (permSrvUpdateConfigBySameUuid l config) u = getConfigEntry l u := by
  have hfilter : ∀ m : List ConfigEntry,
      getConfigEntry m u = getConfigEntry (m.filter fun e => e.uuid ≠ config.uuid) u := by
    intro m
    unfold getConfigEntry
    rw [← filter_reverse, find?_filter]
    apply find?_congr
    intro e _
    by_cases he : e.uuid = u
    · simp [he, hu]
    · simp [he]
  rw [hfilter, filter_permSrvUpdateConfigBySameUuid, ← hfilter]

/-- Each TA has the same configuration in both states, or the one it had before in both. -/
theorem SameChange.installed_eq {l l' m m' : List ConfigEntry} (h : SameChange l l' m m')
    (u : TeeUuid) :
    (getConfigEntry m u).map ConfigEntry.config = (getConfigEntry m' u).map ConfigEntry.config ∨
      getConfigEntry m u = getConfigEntry l u ∧ getConfigEntry m' u = getConfigEntry l' u := by
  cases h with
  | none => exact .inr ⟨rfl, rfl⟩
  | installed config =>
    by_cases hu : u = config.uuid
    · subst hu
      have hnew : ∀ m : List ConfigEntry, (getConfigEntry (permSrvUpdateConfigBySameUuid m config)
          config.uuid).map ConfigEntry.config = some config := by
        intro m
        obtain ⟨tasks, hentry⟩ : ∃ tasks, getConfigEntry (permSrvUpdateConfigBySameUuid m config)
            config.uuid = some ⟨config, tasks⟩ := getConfigEntry_permSrvUpdateConfigBySameUuid
        rw [hentry]
        rfl
      exact .inl ((hnew l).trans (hnew l').symm)
    · exact .inr ⟨getConfigEntry_update_of_ne hu, getConfigEntry_update_of_ne hu⟩

theorem freeVerify_configs : (freeVerify s).2.configs = s.configs := by
  unfold freeVerify
  split <;> rfl

/-- One image in two states that agree at the entry. -/
theorem secureElfVerify_same (h : Start env s t)
    (hclass : builtInSigned env req s = true → s.confCertType = t.confCertType) :
    (secureElfVerify env req s).1 = (secureElfVerify env req t).1 ∧
      ∀ u, installed (secureElfVerify env req s).2 u = installed (secureElfVerify env req t).2 u ∨
        installed (secureElfVerify env req s).2 u = installed s u ∧
          installed (secureElfVerify env req t).2 u = installed t u := by
  have hend := verifyImage_sameEnd h hclass
  obtain ⟨hret, hended⟩ : (verifyImage env req s).1 = (verifyImage env req t).1 ∧
      Ended req.version s.configs t.configs (verifyImage env req s).2 (verifyImage env req t).2 := by
    generalize verifyImage env req s = x at hend ⊢
    generalize verifyImage env req t = y at hend ⊢
    cases hend with
    | ok h | error h => exact ⟨rfl, h⟩
  constructor
  · show verdict _ _ _ = verdict _ _ _
    rw [hret]
    exact verdict_congr hended _
  · intro u
    simp only [installed, secureElfVerify, freeVerify_configs]
    rcases hended.configs.installed_eq u with heq | ⟨hs, ht⟩
    · exact .inl heq
    · exact .inr ⟨congrArg _ hs, congrArg _ ht⟩

/-! ## Histories -/

/-- A verification, or whatever else changes the revocation list, the configurations and
drvmgr between two of them. -/
inductive Event (D : Type)
  | elfVerify (req : ElfVerifyReq)
  | other (crl : RevokedConfig) (configs : List ConfigEntry) (drv : D)

def step (env : Env D) (s : State D) : Event D → State D
  | .elfVerify req => (secureElfVerify env req s).2
  | .other crl configs drv => { s with crl, configs, drv }

def after (env : Env D) (drv : D) (history : List (Event D)) : State D :=
  runs (step env) { drv } history

/-- Nothing of an image is left. -/
structure Clear (s : State D) : Prop where
  manifest : s.imgInfo.manifest = {}
  dynConfRegisted : s.imgInfo.dynConfRegisted = false
  cipherLayer : s.cipherLayer = {}
  payload : s.payload = {}

/-- An image of another version is refused before anything of it is kept. -/
theorem verifyImage_unsupported (h : req.version ≠ cipherLayerVersion) :
    ∃ e n, verifyImage env req s = (.error e,
      { s with imgInfo := { s.imgInfo with imgVersion := req.version, imgSize := n } }) := by
  simp only [verifyImage, secureImgLoadUnpack, unpackCopyCheckParams, processHeader, Act.bind_apply,
    Act.failIf_apply, Act.change, Act.reads]
  by_cases hsize : mappedSize req.img.length < req.img.length
  · exact ⟨.badParameters, s.imgInfo.imgSize, by simp only [hsize, if_true]⟩
  by_cases hname : req.tmpFile.length = 0 ∨ req.tmpFile.length ≥ maxTafsNameLen
  · exact ⟨.badParameters, s.imgInfo.imgSize, by simp only [hsize, hname, if_true, if_false]⟩
  by_cases hmap : req.mapped = false
  · exact ⟨.badParameters, s.imgInfo.imgSize, by
      simp only [hsize, hname, hmap, if_true, if_false]⟩
  · exact ⟨.notSupported, req.img.length, by
      simp only [hsize, hname, hmap, h, if_false, ne_eq, not_false_eq_true, if_true, reduceCtorEq]⟩

theorem verifyImage_version : (verifyImage env req s).2.imgInfo.imgVersion = req.version := by
  have hself : Start env s s := ⟨rfl, rfl, rfl, rfl, rfl, fun _ => rfl⟩
  have hend : SameEnd (fun _ => Ended req.version s.configs s.configs)
      (Ended req.version s.configs s.configs) (verifyImage env req s) (verifyImage env req s) :=
    verifyImage_sameEnd hself fun _ => rfl
  generalize verifyImage env req s = x at hend ⊢
  cases hend with
  | ok h | error h => exact h.version₁

theorem clear_secureElfVerify (h : Clear s) : Clear (secureElfVerify env req s).2 := by
  show Clear (freeVerify _).2
  unfold freeVerify
  rw [verifyImage_version]
  by_cases hversion : req.version = cipherLayerVersion
  · rw [if_pos hversion]
    exact ⟨rfl, rfl, rfl, rfl⟩
  · rw [if_neg hversion]
    obtain ⟨e, n, hrun⟩ : ∃ e n, verifyImage env req s = (.error e,
        { s with imgInfo := { s.imgInfo with imgVersion := req.version, imgSize := n } }) :=
      verifyImage_unsupported hversion
    rw [hrun]
    exact { h with }

theorem clear_after (drv : D) (history : List (Event D)) : Clear (after env drv history) := by
  apply invariant_runs
  · intro s e h
    cases e with
    | elfVerify req => exact clear_secureElfVerify h
    | other crl configs drv => exact { h with }
  · exact ⟨rfl, rfl, rfl, rfl⟩

/-- Two histories that leave the same revocation list, and a drvmgr that answers alike, give
every image the same verdict with the same certificate type, and install the same
configuration. Only an image with a package that is signed with the built-in key needs the
class that the last configuration certificate left to be the same. -/
theorem verdict_independent_of_history (env : Env D) (drv : D) (h₁ h₂ : List (Event D))
    (req : ElfVerifyReq)
    (hcrl : listSeen (after env drv h₁).crl = listSeen (after env drv h₂).crl)
    (hdrv : SameAnswers env (after env drv h₁).drv (after env drv h₂).drv)
    (hclass : builtInSigned env req (after env drv h₁) = true →
      (after env drv h₁).confCertType = (after env drv h₂).confCertType) :
    (secureElfVerify env req (after env drv h₁)).1 = (secureElfVerify env req (after env drv h₂)).1 ∧
      ∀ u, installed (secureElfVerify env req (after env drv h₁)).2 u =
          installed (secureElfVerify env req (after env drv h₂)).2 u ∨
        installed (secureElfVerify env req (after env drv h₁)).2 u = installed (after env drv h₁) u ∧
          installed (secureElfVerify env req (after env drv h₂)).2 u =
            installed (after env drv h₂) u := by
  have c₁ : Clear (after env drv h₁) := clear_after drv h₁
  have c₂ : Clear (after env drv h₂) := clear_after drv h₂
  exact secureElfVerify_same
    { manifest := c₁.manifest.trans c₂.manifest.symm
      dynConfRegisted := c₁.dynConfRegisted.trans c₂.dynConfRegisted.symm
      cipherLayer := c₁.cipherLayer.trans c₂.cipherLayer.symm
      payload := c₁.payload.trans c₂.payload.symm
      crl := hcrl
      drv := hdrv } hclass

/-- Whatever images came before, and at whichever step this one fails, nothing of it is kept. -/
theorem verification_leaves_nothing (env : Env D) (drv : D) (history : List (Event D))
    (req : ElfVerifyReq) : Clear (secureElfVerify env req (after env drv history)).2 :=
  clear_secureElfVerify (clear_after drv history)

/-! ## Samples -/

def sampleUuid : Conf.Uuid := ⟨0, 0, 0, replicate 8 0⟩

/-- A certificate is a byte for its unit, 1 for production and 2 for development, and the
common name; everything is signed. -/
def sampleEnv : Env Unit :=
  { certs :=
      { validate := fun _ _ => true
        unexpired := fun _ => true
        issuer := fun _ => some [1]
        serial := fun _ => some [1]
        configSubjects := fun _ _ => true
        taSubjects := fun _ _ _ _ => true
        publicKey := fun cert => some cert
        verifyDigest := fun _ _ _ _ => true
        caPubkey := [1]
        pubCaKey := fun _ => [1]
        privCaKey := fun _ => [1]
        importedKey := none
        configPubKey := some [1]
        parseConfigBody := fun _ _ => true }
    dynImportCert := false
    subjects := fun cert => some ⟨cert.drop 1, cert.head? = some 1, cert.head? = some 2⟩
    confCn := fun _ => true
    parserPythonTlv := fun _ _ _ => none
    register := fun _ d => (d, true)
    decryptCipherLayer := .ok
    decryptPayload := fun _ => some
    hash := fun _ => .ok
    verifyPubkey := fun _ _ => .ok [1]
    verifyImage := fun _ _ _ _ => true
    signatureOff := false
    localSign := false }

/-- A package of version 2 for the TA, signed as `verifyData` says. -/
def samplePkg (taUnit : UInt8) (verifyData : Bytes) : Bytes :=
  let cert := le32 0 ++ (taUnit :: cnOf (toTeeUuid sampleUuid) [0x61])
  let body := jarBody (toTeeUuid sampleUuid) [0x61]
  -- the header version and the policy version are two bytes each
  le32 taConfigSegmentMagic ++ le32 (configHeaderV2 + 2^16) ++ le32 0 ++ le32 cert.length ++
    le32 body.length ++ le32 verifyData.length ++ replicate 20 0 ++ cert ++ body ++ verifyData

/-- Signed with the built-in key, or with a configuration certificate of a unit. -/
def signedBuiltIn : Bytes := le32 typePubKey ++ le32 signTypeRsaSha256Pss ++ le32 0 ++ [1]

def signedBy (confUnit : UInt8) : Bytes :=
  le32 typeCert ++ le32 signTypeRsaSha256Pss ++ le32 1 ++ [confUnit, 1]

/-- An image of the TA that is not encrypted, with the package. -/
def sampleImage (pkg : Bytes) : ElfVerifyReq :=
  let mani := replicate 16 0 ++ [0x61] ++ (le32 1 ++ replicate 20 0)
  let payload := le32 3 ++ le32 mani.length ++ le32 0 ++ le32 0 ++ le32 pkg.length ++ mani ++ pkg
  let layer := le32 0 ++ le32 0 ++ le32 0x256
  { version := cipherLayerVersion
    tmpFile := [0x66]
    img := replicate 8 0 ++ le32 (layer.length + 72 + payload.length) ++ le32 keyVerNotEncrypt ++
      layer ++ replicate 72 0 ++ payload
    mapped := true
    configMem := 0
    taMem := 0 }

def prodImage : ElfVerifyReq := sampleImage (samplePkg 1 (signedBy 1))
def devImage : ElfVerifyReq := sampleImage (samplePkg 2 (signedBy 2))
def builtInImage : ElfVerifyReq := sampleImage (samplePkg 1 signedBuiltIn)

example : (secureElfVerify sampleEnv prodImage (after sampleEnv () [])).1.ret =
    .ok { certType := .release, publicKey := 1 :: cnOf (toTeeUuid sampleUuid) [0x61] } := by
  decide +kernel

theorem sameAnswers_sampleEnv (d d' : Unit) : SameAnswers sampleEnv d d' := fun _ => rfl

theorem verdict_independent_of_history_sample :
    (secureElfVerify sampleEnv prodImage (after sampleEnv () [.elfVerify devImage])).1 =
      (secureElfVerify sampleEnv prodImage (after sampleEnv () [])).1 :=
  (verdict_independent_of_history sampleEnv () [.elfVerify devImage] [] prodImage
    (by decide +kernel) (sameAnswers_sampleEnv _ _) (fun h => absurd h (by decide +kernel))).1

/-- An image whose package is signed with the built-in key is accepted after an image with a
production package and refused after one with a development package. -/
theorem built_in_signed_follows_last_class :
    (after sampleEnv () [.elfVerify prodImage]).crl = (after sampleEnv () [.elfVerify devImage]).crl ∧
      SameAnswers sampleEnv (after sampleEnv () [.elfVerify prodImage]).drv
        (after sampleEnv () [.elfVerify devImage]).drv ∧
      (secureElfVerify sampleEnv builtInImage (after sampleEnv () [.elfVerify prodImage])).1.ret =
        .ok { certType := .release, publicKey := 1 :: cnOf (toTeeUuid sampleUuid) [0x61] } ∧
      (secureElfVerify sampleEnv builtInImage (after sampleEnv () [.elfVerify devImage])).1.ret =
        .error .generic :=
  ⟨by decide +kernel, sameAnswers_sampleEnv _ _, by decide +kernel, by decide +kernel⟩

end TeeOs.ElfVerify
