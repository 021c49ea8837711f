import TeeOs.PermSrv.Revocation
import TeeOs.PermSrv.SetConfig

/-!
# Revocation is enforced

A package is refused for a certificate that the list its check looks into revokes. That
list is the one in memory. The check loads the stored one only if there is none, and for the
configuration certificate of an OpenHarmony package not even then, so right after a restart
a revoked certificate is accepted.
-/

namespace TeeOs.PermSrv

open TeeOs.Conf

/-- The certificate has an issuer and a serial number that the list revokes. -/
def recorded (lib : CertLib) (l : List CrlIssuer) (cert : Bytes) : Bool :=
  match lib.issuer cert, lib.serial cert with
  | some i, some s => revokedIn l i s
  | _, _ => false

/-- The list in memory once a check has loaded it: the stored one only if there was none. -/
def known (c : RevokedConfig) (stored : List CrlIssuer) : List CrlIssuer :=
  if isCrlIssuerListEmpty c then stored else c.crlIssuerList

/-- The list that the check of a configuration certificate looks into. -/
def knownToConfig (c : RevokedConfig) (stored : List CrlIssuer) (info : TaConfigInfo) :
    List CrlIssuer :=
  if info.isOh then c.crlIssuerList else known c stored

/-- Whether the list that is looked into has the certificate of the signature. -/
def configListed (lib : CertLib) (c : RevokedConfig) (stored : List CrlIssuer)
    (info : TaConfigInfo) : Bool :=
  info.verifyData.type != typePubKey &&
    recorded lib (knownToConfig c stored info) info.verifyData.cert

/-- The same service where nothing is revoked. -/
def PermState.unrevoked (st : PermState) : PermState := { st with crl := {} }

variable {lib : CertLib} {c : RevokedConfig} {stored l : List CrlIssuer} {cert key : Bytes}
  {mem mem' : Nat} {st st' : PermState} {r : SetConfigReq} {info : TaConfigInfo}

theorem notRevoked_eq : notRevoked lib c cert =
    (notRevoked lib {} cert && !recorded lib c.crlIssuerList cert) := by
  unfold notRevoked recorded
  rcases lib.issuer cert with - | i
  · rfl
  rcases lib.serial cert with - | s
  · rfl
  dsimp only
  unfold checkCertRevoked
  split
  · rfl
  · change decide (some (revokedIn c.crlIssuerList i s) = some false) =
      (true && !revokedIn c.crlIssuerList i s)
    cases revokedIn c.crlIssuerList i s
    · rfl
    · rfl

theorem certValidationCheck_eq : certValidationCheck lib c cert key =
    (certValidationCheck lib {} cert key && !recorded lib c.crlIssuerList cert) := by
  rw [certValidationCheck, notRevoked_eq, certValidationCheck, ← Bool.and_assoc]

theorem recorded_nil : recorded lib [] cert = false := by
  unfold recorded
  split
  · rfl
  · rfl

/-! ## Loading before a check -/

theorem foldl_absorb (h : ((l ++ stored).map CrlIssuer.issuer).Nodup) :
    stored.foldl absorb l = l ++ stored := by
  induction stored generalizing l with
  | nil => rw [List.append_nil, List.foldl_nil]
  | cons e stored ih =>
    have habsorb : absorb l e = l ++ [e] := by
      rw [absorb, Lib.Keyed.delete_of_forall_ne]
      intro e' he' hi
      rw [List.map_append] at h
      exact (List.nodup_append.mp h).2.2 _ (List.mem_map_of_mem he') _
        (List.mem_map_of_mem List.mem_cons_self) hi
    rw [List.foldl_cons, habsorb, ih (by rwa [List.append_assoc]), List.append_assoc]
    rfl

theorem crlIssuerList_of_empty (h : isCrlIssuerListEmpty c = true) : c.crlIssuerList = [] := by
  rw [isCrlIssuerListEmpty] at h
  split at h
  · exact List.isEmpty_iff.mp h
  · cases h

theorem load_of_nonempty (h : isCrlIssuerListEmpty c = false) :
    globalTaCrlListLoading true c mem = (c, true) := by
  unfold globalTaCrlListLoading
  rw [h]
  rfl

/-- A load with success leaves the known list. -/
theorem list_load (hs : StoredList c stored)
    (hok : (globalTaCrlListLoading true c mem).2 = true) :
    (globalTaCrlListLoading true c mem).1.crlIssuerList = known c stored := by
  rcases globalTaCrlListLoading_cases true c mem with
    ⟨hskip, hres⟩ | hres | ⟨hnil, hres⟩ | ⟨hread, hfile, hsize, k, -, hres⟩
  · rw [Bool.true_and, Bool.not_eq_true'] at hskip
    rw [hres, known, hskip, if_neg Bool.false_ne_true]
  · rw [hres] at hok
    cases hok
  · rw [hres, hs.eq_nil hnil, known]
    split
    · next hempty =>
      have hnone : c.crlIssuerList = [] := crlIssuerList_of_empty hempty
      exact hnone
    · rfl
  · rw [Bool.true_and, Bool.not_eq_false'] at hread
    have hload : Loaded stored c (crlIssuerBuffToList c k c.listFile) := hs.loaded hfile hsize
    rw [hres] at hok ⊢
    rw [hload.all hok, crlIssuerList_of_empty hread, known, hread, if_pos rfl]
    exact foldl_absorb (by rw [List.nil_append]; exact hs.nodup)

/-- Where nothing is stored a load changes no list. -/
theorem list_load_nil (hs : StoredList c []) :
    (globalTaCrlListLoading true c mem).1.crlIssuerList = c.crlIssuerList := by
  rcases globalTaCrlListLoading_cases true c mem with
    ⟨-, hres⟩ | hres | ⟨-, hres⟩ | ⟨-, hfile, hsize, k, -, hres⟩
  · rw [hres]
  · rw [hres]
  · rw [hres]
  · have hbytes := hs.eq_fileBytes hfile
    rw [hres, hbytes]
    rfl

theorem storedList_load (hs : StoredList c stored) :
    StoredList (globalTaCrlListLoading true c mem).1 stored := by
  rcases globalTaCrlListLoading_cases true c mem with
    ⟨-, hres⟩ | hres | ⟨-, hres⟩ | ⟨-, hfile, hsize, k, -, hres⟩
  · rwa [hres]
  · rwa [hres]
  · rw [hres]
    exact ⟨hs.file, hs.nodup⟩
  · rw [hres]
    have hload : Loaded stored c (crlIssuerBuffToList c k c.listFile) := hs.loaded hfile hsize
    refine ⟨?_, hs.nodup⟩
    rw [hload.listFile]
    exact hs.file

/-- A second load finds the list of the first. -/
theorem list_load_load (hs : StoredList c stored)
    (hok : (globalTaCrlListLoading true c mem).2 = true) :
    (globalTaCrlListLoading true (globalTaCrlListLoading true c mem).1 mem').1.crlIssuerList =
      known c stored := by
  have hlist := list_load hs hok
  have hs' : StoredList (globalTaCrlListLoading true c mem).1 stored := storedList_load hs
  cases hempty : isCrlIssuerListEmpty (globalTaCrlListLoading true c mem).1 with
  | false =>
    rw [load_of_nonempty hempty]
    exact hlist
  | true =>
    -- the list is still empty after a load, so nothing is stored
    have hnil : stored = [] := by
      rw [crlIssuerList_of_empty hempty, known] at hlist
      split at hlist
      · exact hlist.symm
      · next hne =>
        rw [load_of_nonempty (Bool.eq_false_iff.mpr hne)] at hempty
        exact absurd hempty hne
    subst hnil
    rw [list_load_nil hs', hlist]

/-- The image is known and is no driver of the crypto engine. -/
def SetConfigReq.NeedsCrl (r : SetConfigReq) : Prop :=
  ∃ i, r.img = some i ∧ (i.drvTargetType && i.hardwareEngineCrypto) = false

theorem checkCrlCertCtlList_eq (h : r.NeedsCrl) : checkCrlCertCtlList r.img mem st =
      { st with crl := (globalTaCrlListLoading true st.crl mem).1 } := by
  obtain ⟨i, hi, hkind⟩ := h
  rw [hi]
  exact if_neg (by rw [hkind]; exact Bool.false_ne_true)

/-! ## Two runs -/

/-- A state, and one in which the same happened and nothing is revoked. -/
structure Unrevoked (st st' : PermState) : Prop where
  caType : st'.caType = st.caType
  list : st'.crl.crlIssuerList = []
  file : StoredList st'.crl []

theorem Unrevoked.load (hneeds : r.NeedsCrl) (h : Unrevoked st st') :
    Unrevoked (checkCrlCertCtlList r.img mem st) (checkCrlCertCtlList r.img mem st') := by
  rw [checkCrlCertCtlList_eq hneeds, checkCrlCertCtlList_eq hneeds]
  exact ⟨h.caType, (list_load_nil h.file).trans h.list, storedList_load h.file⟩

theorem Unrevoked.notRevoked (h : Unrevoked st st') :
    notRevoked lib st'.crl cert = notRevoked lib {} cert := by
  rw [notRevoked_eq, h.list, recorded_nil, Bool.not_false, Bool.and_true]

theorem Unrevoked.certValidationCheck (h : Unrevoked st st') :
    certValidationCheck lib st'.crl cert key = certValidationCheck lib {} cert key := by
  rw [certValidationCheck_eq, h.list, recorded_nil, Bool.not_false, Bool.and_true]

/-- What a check answers and leaves, against one where nothing is revoked: it fails if the
certificate is listed, and else both go the same way. -/
structure Parallel {α : Type} (listed : Bool) (fail : α) (res res' : PermState × α) : Prop where
  refused : listed = true → res.2 = fail
  same : listed = false → res.2 = res'.2 ∧ Unrevoked res.1 res'.1

theorem Parallel.map {α β : Type} {listed : Bool} {fail : α} {res res' : PermState × α}
    (g : α → β) (h : Parallel listed fail res res') :
    Parallel listed (g fail) (res.1, g res.2) (res'.1, g res'.2) where
  refused := fun hl => congrArg g (h.refused hl)
  same := fun hl => ⟨congrArg g (h.same hl).1, (h.same hl).2⟩

/-! ## The configuration certificate -/

theorem checkOhCertValidation_parallel (h : Unrevoked st st') :
    Parallel (recorded lib st.crl.crlIssuerList cert) false
      (checkOhCertValidation lib info cert st) (checkOhCertValidation lib info cert st') := by
  unfold checkOhCertValidation
  simp only [certValidationCheck_eq (c := st.crl), h.certValidationCheck]
  cases recorded lib st.crl.crlIssuerList cert with
  | true =>
    refine ⟨fun _ => ?_, nofun⟩
    simp only [Bool.not_true, Bool.and_false, Bool.false_eq_true, if_false]
    split
    · rfl
    · rfl
  | false =>
    refine ⟨nofun, fun _ => ?_⟩
    simp only [Bool.not_false, Bool.and_true]
    split
    · exact ⟨rfl, h⟩
    split
    · exact ⟨rfl, rfl, h.list, h.file⟩
    split
    · exact ⟨rfl, rfl, h.list, h.file⟩
    · exact ⟨rfl, h⟩

section

variable (hneeds : r.NeedsCrl) (hs : StoredList st.crl stored)
  (hok : (globalTaCrlListLoading true st.crl r.configMem).2 = true) (h : Unrevoked st st')
include hneeds hs hok h

theorem verifyConfigCert_parallel :
    Parallel (recorded lib (knownToConfig st.crl stored info) cert) false
      (verifyConfigCert lib info cert r st) (verifyConfigCert lib info cert r st') := by
  unfold verifyConfigCert knownToConfig
  cases info.isOh with
  | true =>
    rw [if_pos rfl, if_pos rfl, if_pos rfl]
    exact checkOhCertValidation_parallel h
  | false =>
    rw [if_neg Bool.false_ne_true, if_neg Bool.false_ne_true, if_neg Bool.false_ne_true]
    dsimp only
    split
    · exact ⟨fun _ => rfl, fun _ => ⟨rfl, h⟩⟩
    · have hload : Unrevoked (checkCrlCertCtlList r.img r.configMem st)
          (checkCrlCertCtlList r.img r.configMem st') := h.load hneeds
      have hlist : (checkCrlCertCtlList r.img r.configMem st).crl.crlIssuerList =
          known st.crl stored := by
        rw [checkCrlCertCtlList_eq hneeds]
        exact list_load hs hok
      rw [hload.certValidationCheck, certValidationCheck_eq, hlist]
      refine ⟨fun hl => ?_, fun hl => ⟨?_, hload⟩⟩
      · rw [hl, Bool.not_true, Bool.and_false]
      · rw [hl, Bool.not_false, Bool.and_true]

theorem configSignatureVerify_parallel :
    Parallel (configListed lib st.crl stored info) false
      (configSignatureVerify lib info r st) (configSignatureVerify lib info r st') := by
  have hdata : Parallel (configListed lib st.crl stored info) none
      (validateSignVerifyData lib info r st) (validateSignVerifyData lib info r st') := by
    unfold validateSignVerifyData configListed
    split
    · next hpub =>
      rw [hpub]
      exact ⟨nofun, fun _ => ⟨rfl, h⟩⟩
    next hpub =>
    rw [bne_iff_ne.mpr hpub, Bool.true_and]
    split
    · rw [checkConfigCertValidation_eq, checkConfigCertValidation_eq]
      exact (verifyConfigCert_parallel hneeds hs hok h).map fun ok =>
        if ok && lib.configSubjects info.verifyData.cert r.sysVerifyTa then
          lib.publicKey info.verifyData.cert
        else none
    · exact ⟨fun _ => rfl, fun _ => ⟨rfl, h⟩⟩
  rw [configSignatureVerify_eq, configSignatureVerify_eq]
  exact hdata.map fun key => key.any fun key =>
    lib.verifyDigest info.verifyData.signAlg key info.signed info.verifyData.signature

end

theorem configSignatureVerify_crl (hneeds : r.NeedsCrl) :
    (configSignatureVerify lib info r st).1.crl = st.crl ∨
      (configSignatureVerify lib info r st).1.crl =
        (globalTaCrlListLoading true st.crl r.configMem).1 := by
  have hcert : ∀ cert, (verifyConfigCert lib info cert r st).1.crl = st.crl ∨
      (verifyConfigCert lib info cert r st).1.crl =
        (globalTaCrlListLoading true st.crl r.configMem).1 := by
    intro cert
    unfold verifyConfigCert checkOhCertValidation
    dsimp only
    split_ifs
    · exact .inl rfl
    · exact .inl rfl
    · exact .inl rfl
    · exact .inl rfl
    · exact .inl rfl
    · rw [checkCrlCertCtlList_eq hneeds]
      exact .inr rfl
  rw [configSignatureVerify_eq]
  unfold validateSignVerifyData
  split
  · exact .inl rfl
  split
  · rw [checkConfigCertValidation_eq]
    exact hcert _
  · exact .inl rfl

/-! ## The certificate of the TA -/

theorem taCertInfoVerify_parallel (hneeds : r.NeedsCrl) {l : List CrlIssuer}
    (hl : (globalTaCrlListLoading true st.crl r.taMem).1.crlIssuerList = l)
    (h : Unrevoked st st') :
    Parallel (recorded lib l info.taCert) false
      (taCertInfoVerify lib info r st) (taCertInfoVerify lib info r st') := by
  have hload : Unrevoked (checkCrlCertCtlList r.img r.taMem st)
      (checkCrlCertCtlList r.img r.taMem st') := h.load hneeds
  have hlist : (checkCrlCertCtlList r.img r.taMem st).crl.crlIssuerList = l := by
    rw [checkCrlCertCtlList_eq hneeds]
    exact hl
  unfold taCertInfoVerify
  split
  · unfold taCertVerifyV5
    dsimp only
    rw [hload.notRevoked, notRevoked_eq, hlist]
    refine ⟨fun hrec => ?_, fun hrec => ⟨?_, hload⟩⟩
    · simp only [hrec, Bool.not_true, Bool.and_false]
    · simp only [hrec, Bool.not_false, Bool.and_true]
  · unfold taCertVerify
    rw [h.caType]
    dsimp only
    generalize ownCaKey lib r.sysVerifyTa _ = caKey
    split
    · exact ⟨fun _ => rfl, fun _ => ⟨rfl, h⟩⟩
    rw [hload.certValidationCheck, certValidationCheck_eq, hlist]
    refine ⟨fun hrec => ?_, fun hrec => ⟨?_, hload⟩⟩
    · simp only [hrec, Bool.not_true, Bool.and_false, Bool.false_and]
    · simp only [hrec, Bool.not_false, Bool.and_true]

/-! ## The whole package -/

theorem configs_of_refused (h : (teeExtSetConfig lib r st).2 = false) :
    (teeExtSetConfig lib r st).1.configs = st.configs := by
  revert h
  rw [teeExtSetConfig_eq]
  split
  · exact fun _ => rfl
  cases getConfigInfo r.conf with
  | none => exact fun _ => rfl
  | some info =>
    dsimp only
    split
    · split
      · exact nofun
      · exact fun _ => configs_taCertInfoVerify.trans configs_configSignatureVerify
    · exact fun _ => configs_configSignatureVerify

theorem teeExtSetConfig_snd (hinfo : getConfigInfo r.conf = some info) :
    (teeExtSetConfig lib r st).2 =
      (!decide (r.conf.length = 0 ∨ r.serviceName.length = 0 ∨
          r.serviceName.length > taCertMaxServiceNameLen) &&
        (configSignatureVerify lib info r st).2 &&
        (taCertInfoVerify lib info r (configSignatureVerify lib info r st).1).2 &&
        lib.parseConfigBody r.uuid info.tlvConfig) := by
  rw [teeExtSetConfig_eq, hinfo]
  split
  · next hsizes => rw [decide_eq_true hsizes]; rfl
  next hsizes =>
  rw [decide_eq_false hsizes]
  dsimp only
  rcases configSignatureVerify lib info r st with ⟨s, _ | _⟩
  · rfl
  cases (taCertInfoVerify lib info r s).2 <;> cases lib.parseConfigBody r.uuid info.tlvConfig <;> rfl

/-- The package is accepted exactly if it would be with nothing revoked, and neither of the
lists that are looked into has its certificate. -/
theorem teeExtSetConfig_answer (hs : StoredList st.crl stored) (hneeds : r.NeedsCrl)
    (hconf : (globalTaCrlListLoading true st.crl r.configMem).2 = true)
    (hta : (globalTaCrlListLoading true st.crl r.taMem).2 = true)
    (hinfo : getConfigInfo r.conf = some info) :
    (teeExtSetConfig lib r st).2 = ((teeExtSetConfig lib r st.unrevoked).2 &&
      !(configListed lib st.crl stored info || recorded lib (known st.crl stored) info.taCert)) := by
  have hstart : Unrevoked st st.unrevoked := ⟨rfl, rfl, .inr ⟨rfl, rfl⟩, List.nodup_nil⟩
  have hsig : Parallel (configListed lib st.crl stored info) false
      (configSignatureVerify lib info r st) (configSignatureVerify lib info r st.unrevoked) :=
    configSignatureVerify_parallel hneeds hs hconf hstart
  rw [teeExtSetConfig_snd hinfo, teeExtSetConfig_snd hinfo]
  cases hlisted : configListed lib st.crl stored info with
  | true =>
    rw [hsig.refused hlisted, Bool.true_or, Bool.not_true, Bool.and_false, Bool.and_false]
    rfl
  | false =>
    obtain ⟨hanswer, hstates⟩ := hsig.same hlisted
    have hlist : (globalTaCrlListLoading true (configSignatureVerify lib info r st).1.crl
        r.taMem).1.crlIssuerList = known st.crl stored := by
      rcases configSignatureVerify_crl hneeds with hsame | hloaded
      · rw [hsame]
        exact list_load hs hta
      · rw [hloaded]
        exact list_load_load hs hconf
    have hcert : Parallel (recorded lib (known st.crl stored) info.taCert) false _ _ :=
      taCertInfoVerify_parallel hneeds hlist hstates
    rw [hanswer, Bool.false_or]
    cases hrec : recorded lib (known st.crl stored) info.taCert with
    | true =>
      rw [hcert.refused hrec, Bool.and_false, Bool.not_true, Bool.and_false]
      rfl
    | false =>
      rw [(hcert.same hrec).1, Bool.not_false, Bool.and_true]

/-- A package is refused and installs nothing exactly if it would be refused with nothing
revoked, or the list that the check of one of its certificates looks into has it. -/
theorem revoked_package_refused (lib : CertLib) (st : PermState) (stored : List CrlIssuer)
    (r : SetConfigReq) (info : TaConfigInfo) (hs : StoredList st.crl stored)
    (hneeds : r.NeedsCrl)
    (hconf : (globalTaCrlListLoading true st.crl r.configMem).2 = true)
    (hta : (globalTaCrlListLoading true st.crl r.taMem).2 = true)
    (hinfo : getConfigInfo r.conf = some info) :
    ((teeExtSetConfig lib r st).2 = false ∧
        (teeExtSetConfig lib r st).1.configs = st.configs) ↔
      (teeExtSetConfig lib r st.unrevoked).2 = false ∨
        configListed lib st.crl stored info = true ∨
        recorded lib (known st.crl stored) info.taCert = true := by
  have hanswer : (teeExtSetConfig lib r st).2 = false ↔
      (teeExtSetConfig lib r st.unrevoked).2 = false ∨
        configListed lib st.crl stored info = true ∨
        recorded lib (known st.crl stored) info.taCert = true := by
    rw [teeExtSetConfig_answer hs hneeds hconf hta hinfo, Bool.and_eq_false_iff,
      Bool.not_eq_false', Bool.or_eq_true]
  exact ⟨fun h => hanswer.mp h.1, fun h => ⟨hanswer.mpr h, configs_of_refused (hanswer.mpr h)⟩⟩

/-! ## Samples -/

/-- A library that finds every certificate valid and takes it for its serial number. -/
def sampleLib : CertLib where
  validate _ _ := true
  unexpired _ := true
  issuer _ := some [1]
  serial cert := some cert
  configSubjects _ _ := true
  taSubjects _ _ _ _ := true
  publicKey _ := some [0]
  verifyDigest _ _ _ _ := true
  caPubkey := [0]
  pubCaKey _ := [0]
  privCaKey _ := [0]
  importedKey := none
  configPubKey := none
  parseConfigBody _ _ := true

/-- A package of version 1 with the TA certificate 8 and the configuration certificate 9. -/
def samplePackage (policyVersion : UInt8) : Bytes :=
  [0xCD, 0xAB, 0xCD, 0xAB, 1, 0, policyVersion, 0, 0, 0, 0, 0, 1, 0, 0, 0, 1, 0, 0, 0,
   1, 0, 0, 0x40, 1, 0, 0, 0] ++ List.replicate 16 0 ++ [8, 0, 0, 9]

def sampleReq (policyVersion : UInt8) : SetConfigReq where
  conf := samplePackage policyVersion
  uuid := ⟨1, 0, 0, []⟩
  serviceName := [0x73]
  sysVerifyTa := true
  img := some ⟨false, false⟩
  configMem := 10
  taMem := 10

theorem one_le_certLargeLen : 1 ≤ certLargeLen := by decide

/-- The certificate 9 is revoked, and the service has just started. -/
def sampleStored : List CrlIssuer := [⟨[1], one_le_certLargeLen, [sampleNode 9]⟩]

def sampleState : PermState where
  crl := { listFile := fileBytes sampleStored }

def sampleInfo : TaConfigInfo where
  version := configHeaderV1
  policyVersion := 1
  signSecAlg := 1
  taCert := [8]
  tlvConfig := [0]
  verifyData := ⟨typeCert, signTypeRsaSha256Pkcs1, [9], [0]⟩
  signed := (samplePackage 1).take 46

theorem sample_stored : StoredList sampleState.crl sampleStored := ⟨.inl rfl, by decide⟩

theorem sample_recorded : recorded sampleLib sampleStored [9] = true := by decide

theorem revoked_package_refused_sample :
    (teeExtSetConfig sampleLib (sampleReq 1) sampleState).2 = false ∧
      (teeExtSetConfig sampleLib (sampleReq 1) sampleState).1.configs = sampleState.configs :=
  (revoked_package_refused sampleLib sampleState sampleStored (sampleReq 1) sampleInfo
    sample_stored ⟨_, rfl, rfl⟩ (by decide +kernel) (by decide +kernel) rfl).mpr
    (.inr (.inl (by decide)))

/-- The same package of the OpenHarmony product is accepted and its configuration is
installed, although its configuration certificate is revoked. -/
theorem revoked_package_installed :
    StoredList sampleState.crl sampleStored ∧ (sampleReq 5).NeedsCrl ∧
      (globalTaCrlListLoading true sampleState.crl (sampleReq 5).configMem).2 = true ∧
      (globalTaCrlListLoading true sampleState.crl (sampleReq 5).taMem).2 = true ∧
      (getConfigInfo (sampleReq 5).conf).map (·.verifyData.cert) = some [9] ∧
      recorded sampleLib sampleStored [9] = true ∧
      (teeExtSetConfig sampleLib (sampleReq 5) sampleState).2 = true ∧
      (teeExtSetConfig sampleLib (sampleReq 5) sampleState).1.configs = [(⟨1, 0, 0, []⟩, [0])] :=
  ⟨sample_stored, ⟨_, rfl, rfl⟩, by decide +kernel, by decide +kernel, by decide +kernel,
    sample_recorded, by decide +kernel, by decide +kernel⟩

end TeeOs.PermSrv
