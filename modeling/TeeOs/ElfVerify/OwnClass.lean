import TeeOs.ElfVerify.Agreement

/-!
# The class and the CA that a package is held to

A package with a configuration certificate sets the class and, for the OpenHarmony product,
the CA itself before its TA certificate is looked at. A package that is signed with the
built-in key sets neither: there the class has to be the same in both states.
-/

namespace TeeOs.ElfVerify

open TeeOs.Lib Option
open TeeOs.PermSrv

variable {D : Type} {env : Env D} {info : TaConfigInfo} {r : SetConfigReq} {st st' : PermState}

/-! ## The CA -/

/-- The same answer and the same revocation list, and once it is accepted the same CA. -/
structure SameAnswer {α : Type} (info : TaConfigInfo) (accepted : α → Bool)
    (x y : PermState × α) : Prop where
  answer : x.2 = y.2
  crl : listSeen x.1.crl = listSeen y.1.crl
  caType : info.isOh = true → accepted x.2 = true → x.1.caType = y.1.caType

theorem SameAnswer.exists_eq {α : Type} {accepted : α → Bool} {p q : PermState × α}
    (h : SameAnswer info accepted p q) :
    ∃ x y a, p = (x, a) ∧ q = (y, a) ∧ SameAnswer info accepted (x, a) (y, a) := by
  obtain ⟨x, a⟩ := p
  obtain ⟨y, a'⟩ := q
  obtain rfl : a = a' := h.answer
  exact ⟨x, y, a, rfl, rfl, h⟩

variable {c c' : RevokedConfig} {pkg cert : Bytes} {k k' : ConfCert} {sysVerifyTa : Bool}

/-- Without a file a load changes nothing that is seen. -/
theorem listSeen_loading_of_no_file (hfile : c.listFile = []) (mem : Nat) :
    listSeen (globalTaCrlListLoading true c mem).1 = listSeen c := by
  unfold globalTaCrlListLoading
  split
  · rfl
  rw [if_neg (by simp [hfile]), if_pos (by simp [hfile])]
  simp [listSeen, hfile]

section

variable (h : listSeen c = listSeen c')
include h

theorem notRevoked_same (lib : CertLib) (cert : Bytes) :
    notRevoked lib c cert = notRevoked lib c' cert := by
  have hlist : (listSeen c).crlIssuerList = (listSeen c').crlIssuerList := by rw [h]
  change c.crlIssuerList = c'.crlIssuerList at hlist
  unfold notRevoked checkCertRevoked
  rw [hlist]

theorem certValidationCheck_same (lib : CertLib) (cert key : Bytes) :
    certValidationCheck lib c cert key = certValidationCheck lib c' cert key := by
  unfold certValidationCheck
  rw [notRevoked_same h lib]

theorem listSeen_loading (mem : Nat) :
    listSeen (globalTaCrlListLoading true c mem).1 = listSeen (globalTaCrlListLoading true c' mem).1 := by
  have hfile : (listSeen c).listFile = (listSeen c').listFile := by rw [h]
  change c.listFile = c'.listFile at hfile
  by_cases hempty : c.listFile = []
  · rw [listSeen_loading_of_no_file hempty, listSeen_loading_of_no_file (hfile ▸ hempty), h]
  have heq : c = c' := by
    have hflag : (listSeen c).existFlag = (listSeen c').existFlag := by rw [h]
    have hnot : c.listFile.isEmpty = false := List.isEmpty_eq_false_iff.mpr hempty
    simp only [listSeen, ← hfile, hnot, Bool.not_false, Bool.and_true] at hflag
    cases c
    cases c'
    simp only [listSeen, RevokedConfig.mk.injEq] at h
    simp only [RevokedConfig.mk.injEq]
    exact ⟨h.1, h.2.1, h.2.2.1, hflag, hfile⟩
  rw [heq]

end

/-- Only a package of version 1 is one of the OpenHarmony product, and it has a
certificate. -/
theorem typeCert_of_isOh (h : getConfigInfo pkg = some info) (hoh : info.isOh = true) :
    info.verifyData.type = typeCert := by
  unfold getConfigInfo at h
  split at h
  · cases h
  split at h
  · cases h
  split at h
  · simp only [getConfigInfoV1, bind_eq_bind, bind_eq_some_iff, pure_def, some.injEq] at h
    obtain ⟨_, _, _, _, _, _, _, _, _, _, rfl⟩ := h
    rfl
  split at h
  · simp only [getConfigInfoV2, bind_eq_bind, bind_eq_some_iff, pure_def, some.injEq] at h
    obtain ⟨_, _, _, _, _, _, _, _, _, _, _, _, rfl⟩ := h
    cases hoh
  · cases h

section

variable (h : listSeen st.crl = listSeen st'.crl)
include h

theorem checkCrlCertCtlList_crl (img : Option PermSrv.ImgInfo) (mem : Nat) :
    listSeen (checkCrlCertCtlList img mem st).crl = listSeen (checkCrlCertCtlList img mem st').crl := by
  unfold checkCrlCertCtlList
  cases img with
  | none => exact h
  | some i =>
    dsimp only
    split
    · exact h
    · exact listSeen_loading h mem

theorem checkOhCertValidation_same (lib : CertLib) (cert : Bytes) :
    SameAnswer info id (checkOhCertValidation lib info cert st)
      (checkOhCertValidation lib info cert st') := by
  unfold checkOhCertValidation
  rw [certValidationCheck_same h lib, certValidationCheck_same h lib]
  split
  · exact ⟨rfl, h, nofun⟩
  split
  · exact ⟨rfl, h, fun _ _ => rfl⟩
  split
  · exact ⟨rfl, h, fun _ _ => rfl⟩
  · exact ⟨rfl, h, nofun⟩

variable (info r) in
theorem verifyConfigCert_same (lib : CertLib) (cert : Bytes) :
    SameAnswer info id (verifyConfigCert lib info cert r st)
      (verifyConfigCert lib info cert r st') := by
  unfold verifyConfigCert
  by_cases hoh : info.isOh = true
  · rw [if_pos hoh, if_pos hoh]
    exact checkOhCertValidation_same h lib cert
  · rw [if_neg hoh, if_neg hoh]
    dsimp only
    split
    · exact ⟨rfl, h, nofun⟩
    · have hcrl := checkCrlCertCtlList_crl h r.img r.configMem
      exact ⟨certValidationCheck_same hcrl lib cert _, hcrl, fun h => absurd h hoh⟩

theorem checkConfigCertValidation_same (lib : CertLib) (cert : Bytes) :
    SameAnswer info isSome (checkConfigCertValidation lib info cert r st)
      (checkConfigCertValidation lib info cert r st') := by
  obtain ⟨x, y, ok, hx, hy, hv⟩ := (verifyConfigCert_same info r h lib cert).exists_eq
  unfold checkConfigCertValidation
  rw [hx, hy]
  cases ok with
  | false => exact ⟨rfl, hv.crl, nofun⟩
  | true =>
    dsimp only
    split
    · exact ⟨rfl, hv.crl, fun hoh _ => hv.caType hoh rfl⟩
    · exact ⟨rfl, hv.crl, nofun⟩

theorem configSignatureVerify_same (lib : CertLib) (hinfo : getConfigInfo pkg = some info) :
    SameAnswer info id (configSignatureVerify lib info r st)
      (configSignatureVerify lib info r st') := by
  have hv : SameAnswer info isSome (validateSignVerifyData lib info r st)
      (validateSignVerifyData lib info r st') := by
    unfold validateSignVerifyData
    split
    next hpub =>
      refine ⟨rfl, h, fun hoh => ?_⟩
      rw [typeCert_of_isOh hinfo hoh] at hpub
      cases hpub
    split
    · exact checkConfigCertValidation_same h lib _
    · exact ⟨rfl, h, nofun⟩
  obtain ⟨x, y, key, hx, hy, hv⟩ := hv.exists_eq
  unfold configSignatureVerify
  rw [hx, hy]
  cases key with
  | none => exact ⟨rfl, hv.crl, nofun⟩
  | some key => exact ⟨rfl, hv.crl, fun hoh _ => hv.caType hoh rfl⟩

end

/-! ## The class -/

/-- An accepted configuration certificate has a class if its unit is looked at. -/
theorem classAfterCert_own (h : configCertCnOuCheck env cert sysVerifyTa = true)
    (hou : env.checksOu sysVerifyTa = true) (k k' : ConfCert) :
    classAfterCert env cert sysVerifyTa k = classAfterCert env cert sysVerifyTa k' := by
  unfold configCertCnOuCheck at h
  unfold classAfterCert
  cases hs : env.subjects cert with
  | none => rw [hs] at h; cases h
  | some s =>
    rw [hs] at h
    simp only [hou, Bool.not_true, Bool.false_or, Bool.and_eq_true] at h
    obtain ⟨hcn, hclass⟩ := h
    obtain ⟨c, hc⟩ := isSome_iff_exists.mp hclass
    simp only [hcn, hou, hc, getD_some]
    rfl

/-- The certificate of an accepted package was accepted. -/
theorem configCert_of_accepted {lib : CertLib} (htype : info.verifyData.type = typeCert)
    (h : (configSignatureVerify lib info r st).2 = true) :
    (verifyConfigCert lib info info.verifyData.cert r st).2 = true ∧
      lib.configSubjects info.verifyData.cert r.sysVerifyTa = true := by
  have hpub : info.verifyData.type ≠ typePubKey := by rw [htype]; decide
  unfold configSignatureVerify validateSignVerifyData at h
  rw [if_neg hpub, if_pos htype] at h
  unfold checkConfigCertValidation at h
  rcases hv : verifyConfigCert lib info info.verifyData.cert r st with ⟨x, ok⟩
  rw [hv] at h
  cases ok with
  | false => cases h
  | true =>
    refine ⟨rfl, ?_⟩
    by_contra hsub
    simp only [hsub] at h
    cases h

/-- The classes after an accepted signature are the same, unless nothing sets them. -/
theorem classAfter_same (h : listSeen st.crl = listSeen st'.crl) (k k' : ConfCert)
    (hok : (configSignatureVerify (env.forClass k) info r st).2 = true)
    (hou : env.checksOu r.sysVerifyTa = true)
    (hkeep : info.verifyData.type = typePubKey → k = k') :
    classAfter env info r st k = classAfter env info r st' k' := by
  by_cases htype : info.verifyData.type = typeCert
  · obtain ⟨hcert, hsub⟩ := configCert_of_accepted htype hok
    have hcert' : (verifyConfigCert (env.forClass k') info info.verifyData.cert r st').2 = true := by
      have hsame := verifyConfigCert_same info r h (env.forClass k) info.verifyData.cert
      exact hsame.answer ▸ hcert
    rw [classAfter, if_pos ⟨htype, hcert⟩, classAfter, if_pos ⟨htype, hcert'⟩]
    exact classAfterCert_own hsub hou k k'
  · have hpub : info.verifyData.type = typePubKey := by
      by_contra hpub
      unfold configSignatureVerify validateSignVerifyData at hok
      rw [if_neg hpub, if_neg htype] at hok
      cases hok
    rw [classAfter, if_neg (fun hc => htype hc.1), classAfter, if_neg (fun hc => htype hc.1)]
    exact hkeep hpub

theorem taCertType_same (cert : Bytes) (uuid : Conf.Uuid) (name : Bytes)
    (hk : env.checksOu sysVerifyTa = true → k = k') :
    taCertType env k cert sysVerifyTa uuid name = taCertType env k' cert sysVerifyTa uuid name := by
  by_cases hou : env.checksOu sysVerifyTa = true
  · rw [hk hou]
  · have hskip : (env.dynImportCert && !sysVerifyTa) = true := by
      simpa only [Env.checksOu, Bool.not_eq_true', Bool.not_eq_false] using hou
    unfold taCertType taCertCnOuCheck
    simp only [hskip, if_true]

/-- The key that a TA certificate is verified with. -/
def taCaKey (lib : CertLib) (info : TaConfigInfo) (r : SetConfigReq) (st : PermState) : Bytes :=
  ownCaKey lib r.sysVerifyTa
    (if info.isOh = true then
      if st.caType = .pub then lib.pubCaKey info.signSecAlg else lib.privCaKey info.signSecAlg
    else lib.caPubkey)

theorem taCertVerify_eq (lib : CertLib) : taCertVerify lib info r st =
      if (taCaKey lib info r st).isEmpty = true then (st, false)
      else
        (checkCrlCertCtlList r.img r.taMem st,
          certValidationCheck lib (checkCrlCertCtlList r.img r.taMem st).crl info.taCert
            (taCaKey lib info r st) &&
          lib.taSubjects info.taCert r.sysVerifyTa r.uuid r.serviceName &&
          (lib.publicKey info.taCert).isSome) := rfl

/-- The verification of the TA certificate, for one class and one CA. -/
theorem taCertInfoVerify_same (h : listSeen st.crl = listSeen st'.crl)
    (hca : info.isOh = true → st.caType = st'.caType)
    (hk : env.checksOu r.sysVerifyTa = true → k = k') :
    (taCertInfoVerify (env.forClass k) info r st).2 =
        (taCertInfoVerify (env.forClass k') info r st').2 ∧
      listSeen (taCertInfoVerify (env.forClass k) info r st).1.crl =
        listSeen (taCertInfoVerify (env.forClass k') info r st').1.crl := by
  have hsub : (env.forClass k).taSubjects info.taCert r.sysVerifyTa r.uuid r.serviceName =
      (env.forClass k').taSubjects info.taCert r.sysVerifyTa r.uuid r.serviceName :=
    congrArg isSome (taCertType_same _ _ _ hk)
  have hcrl := checkCrlCertCtlList_crl h r.img r.taMem
  unfold taCertInfoVerify
  split
  · refine ⟨?_, hcrl⟩
    show (_ && _ && _) = (_ && _ && _)
    rw [hsub, notRevoked_same hcrl _]
    rfl
  · have hkey : taCaKey (env.forClass k) info r st = taCaKey (env.forClass k) info r st' := by
      unfold taCaKey
      by_cases hoh : info.isOh = true
      · rw [if_pos hoh, if_pos hoh, hca hoh]
      · rw [if_neg hoh, if_neg hoh]
    have hkey' : taCaKey (env.forClass k) info r st' = taCaKey (env.forClass k') info r st' := rfl
    rw [taCertVerify_eq, taCertVerify_eq, hkey, hkey']
    split
    · exact ⟨rfl, h⟩
    · refine ⟨?_, hcrl⟩
      rw [hsub, certValidationCheck_same hcrl _]
      rfl

/-! ## The package -/

variable {b : Base}

theorem configSignatureVerifyStep_alike (hinfo : getConfigInfo pkg = some info)
    (hkeep : info.verifyData.type = typePubKey → env.checksOu r.sysVerifyTa = true →
      b.class₁ = b.class₂) :
    Alike (Headed env b) (configSignatureVerifyStep env info r)
      (fun _ s t => ∃ k k', Headed env { b with class₁ := k, class₂ := k' } s t ∧
        (env.checksOu r.sysVerifyTa = true → k = k') ∧ (info.isOh = true → s.caType = t.caType))
      b.Ended := by
  intro s t h
  have hcrl := h.crl
  have hsame : SameAnswer info id
      (configSignatureVerify (env.forClass s.confCertType) info r s.perm)
      (configSignatureVerify (env.forClass t.confCertType) info r t.perm) :=
    configSignatureVerify_same hcrl (env.forClass s.confCertType) hinfo
  have hclass : env.checksOu r.sysVerifyTa = true →
      (configSignatureVerify (env.forClass s.confCertType) info r s.perm).2 = true →
      classAfter env info r s.perm s.confCertType = classAfter env info r t.perm t.confCertType := by
    intro hou hok
    apply classAfter_same hcrl _ _ hok hou
    intro hpub
    rw [h.class₁, h.class₂, hkeep hpub hou]
  unfold configSignatureVerifyStep
  obtain ⟨x, y, ok, hx, hy, hsame⟩ := hsame.exists_eq
  rw [hx] at hclass
  rw [hx, hy]
  have hhead : Headed env { b with
        class₁ := classAfter env info r s.perm s.confCertType
        class₂ := classAfter env info r t.perm t.confCertType }
      { s.setPerm x with confCertType := classAfter env info r s.perm s.confCertType }
      { t.setPerm y with confCertType := classAfter env info r t.perm t.confCertType } :=
    { h with crl := hsame.crl, class₁ := rfl, class₂ := rfl }
  cases ok with
  | false => exact .error { hhead.ended with }
  | true =>
    exact .ok ⟨_, _, hhead, fun hou => hclass hou rfl, fun hoh => hsame.caType hoh rfl⟩

theorem taCertInfoVerifyStep_alike :
    Alike (fun s t => Headed env { b with class₁ := k, class₂ := k' } s t ∧
        (env.checksOu r.sysVerifyTa = true → k = k') ∧ (info.isOh = true → s.caType = t.caType))
      (taCertInfoVerifyStep env info r)
      (fun _ => Headed env { b with class₁ := k, class₂ := k' })
      b.Ended := by
  rintro s t ⟨h, hk, hca⟩
  have hcrl : listSeen s.perm.crl = listSeen t.perm.crl := h.crl
  have hk' : env.checksOu r.sysVerifyTa = true → s.confCertType = t.confCertType := by
    intro hou
    rw [h.class₁, h.class₂]
    exact hk hou
  obtain ⟨hans, hcrl'⟩ := taCertInfoVerify_same hcrl hca hk'
  have hhead : Headed env { b with class₁ := k, class₂ := k' }
      (s.setPerm (taCertInfoVerify (env.forClass s.confCertType) info r s.perm).1)
      (t.setPerm (taCertInfoVerify (env.forClass t.confCertType) info r t.perm).1) :=
    { h with crl := hcrl' }
  unfold taCertInfoVerifyStep
  dsimp only
  rw [hans, taCertType_same _ _ _ hk']
  split
  · exact .ok hhead
  · exact .error { hhead.ended with }

theorem permSrvParseConfigBodyStep_alike (uuid : Conf.Uuid) (pc : PermConfig) :
    Alike (Headed env b) (permSrvParseConfigBodyStep env uuid pc) (fun _ => b.Ended) b.Ended := by
  apply Alike.get? (fun _ _ h => h.ended)
  intro config _
  refine .bind (R := fun _ => Headed env b) ?_ fun _ => ?_
  · apply Alike.ite
    · exact .pure fun _ _ h => h
    · refine Headed.guard fun _ => ?_
      exact Alike.bind (teeSecureImgParseManifestV3_alike _ _) fun _ => Alike.pure fun _ _ h => h
  · intro s t h
    refine .ok { h.ended with configs := ?_ }
    show SameChange _ _ (permSrvUpdateConfigBySameUuid s.configs config)
      (permSrvUpdateConfigBySameUuid t.configs config)
    rw [h.configs₁, h.configs₂]
    exact .installed config

theorem teeExtSetConfig_alike
    (hkeep : ∀ info, getConfigInfo r.conf = some info → info.verifyData.type = typePubKey →
      env.checksOu r.sysVerifyTa = true → b.class₁ = b.class₂) :
    Alike (Headed env b) (teeExtSetConfig env r) (fun _ => b.Ended) b.Ended := by
  refine Headed.guard fun _ => ?_
  apply Alike.get? (fun _ _ h => h.ended)
  intro info hinfo
  refine .bind (configSignatureVerifyStep_alike hinfo (hkeep info hinfo)) fun _ => ?_
  rintro s t ⟨k, k', hst⟩
  revert s t
  refine Alike.bind taCertInfoVerifyStep_alike fun certType => ?_
  apply Alike.get? (fun _ _ h => h.ended)
  intro publicKey _
  apply Alike.get? (fun _ _ h => h.ended)
  intro subjects _
  exact .bind (permSrvParseConfigBodyStep_alike _ _) fun _ => .pure fun _ _ h => h

end TeeOs.ElfVerify
