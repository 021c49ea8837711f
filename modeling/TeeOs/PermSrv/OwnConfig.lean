import TeeOs.PermSrv.TaConfig

/-!
# A package speaks for its own TA

The certificate of a package carries the uuid and the service name of the manifest, and
a production certificate is compared with the body too, so the entry that is replaced is
that of the manifest. A development certificate is not: its body may name any TA, and
the entry of that TA is replaced.
-/

namespace TeeOs.PermSrv

open List

/-! ## The text of a uuid determines it -/

theorem hexByte_inj {d d' : Nat} (hd : d < 16) (hd' : d' < 16) (h : hexByte d = hexByte d') :
    d = d' := by
  have hval : ∀ k < 16, (hexByte k).toNat = if k < 10 then 0x30 + k else 0x57 + k := by decide
  have heq := congrArg UInt8.toNat h
  rw [hval d hd, hval d' hd'] at heq
  split at heq <;> split at heq <;> omega

theorem length_hexPad (width : Nat) : ∀ n : Nat, (hexPad width n).length = width := by
  induction width with
  | zero => exact fun _ => rfl
  | succ width ih =>
    intro n
    rw [hexPad, length_append, ih, length_singleton]

theorem hexPad_inj (width : Nat) :
    ∀ {n m : Nat}, n < 16^width → m < 16^width → hexPad width n = hexPad width m → n = m := by
  induction width with
  | zero =>
    intro n m hn hm _
    omega
  | succ width ih =>
    intro n m hn hm h
    obtain ⟨hhigh, hlow⟩ := append_inj h (by rw [length_hexPad, length_hexPad])
    have hn' : n / 16 < 16^width := by rw [pow_succ] at hn; omega
    have hm' : m / 16 < 16^width := by rw [pow_succ] at hm; omega
    have hdiv := ih hn' hm' hhigh
    have hmod := hexByte_inj (Nat.mod_lt n (by decide)) (Nat.mod_lt m (by decide))
      (List.cons.inj hlow).1
    omega

theorem length_hexPairs (l : List UInt8) : (hexPairs l).length = 2 * l.length := by
  induction l with
  | nil => rfl
  | cons b l ih =>
    rw [hexPairs, flatMap_cons, length_append, length_hexPad, ← hexPairs, ih, length_cons]
    omega

theorem hexPairs_inj : ∀ {l m : List UInt8}, hexPairs l = hexPairs m → l = m := by
  intro l
  induction l with
  | nil =>
    intro m h
    have hlen := congrArg List.length h
    rw [length_hexPairs, length_hexPairs, length_nil] at hlen
    exact (length_eq_zero_iff.mp (by omega)).symm
  | cons b l ih =>
    intro m h
    cases m with
    | nil =>
      have hlen := congrArg List.length h
      rw [length_hexPairs, length_hexPairs, length_cons, length_nil] at hlen
      omega
    | cons b' m =>
      obtain ⟨hbyte, hrest⟩ := append_inj h (by rw [length_hexPad, length_hexPad])
      have hb := UInt8.toNat_inj.mp (hexPad_inj 2 b.toNat_lt b'.toNat_lt hbyte)
      rw [hb, ih hrest]

/-- Texts of equal length before a common character. -/
theorem append_cons_inj {l l' m m' : Bytes} {x : UInt8} (hlen : l.length = l'.length)
    (h : l ++ x :: m = l' ++ x :: m') : l = l' ∧ m = m' := by
  obtain ⟨hl, hm⟩ := append_inj h hlen
  exact ⟨hl, (List.cons.inj hm).2⟩

theorem permSrvConvertUuidToStr_inj {u v : TeeUuid}
    (h : permSrvConvertUuidToStr u = permSrvConvertUuidToStr v) : u = v := by
  obtain ⟨ulow, umid, uhigh, useq⟩ := u
  obtain ⟨vlow, vmid, vhigh, vseq⟩ := v
  obtain ⟨hlow, h⟩ := append_cons_inj (by rw [length_hexPad, length_hexPad]) h
  obtain ⟨hmid, h⟩ := append_cons_inj (by rw [length_hexPad, length_hexPad]) h
  obtain ⟨hhigh, h⟩ := append_cons_inj (by rw [length_hexPad, length_hexPad]) h
  obtain ⟨htwo, hsix⟩ := append_cons_inj (by simp [length_hexPairs]) h
  have hseq : useq.toList = vseq.toList := by
    rw [← take_append_drop 2 useq.toList, hexPairs_inj htwo, hexPairs_inj hsix, take_append_drop]
  rw [UInt32.toNat_inj.mp (hexPad_inj 8 ulow.toNat_lt vlow.toNat_lt hlow),
    UInt16.toNat_inj.mp (hexPad_inj 4 umid.toNat_lt vmid.toNat_lt hmid),
    UInt16.toNat_inj.mp (hexPad_inj 4 uhigh.toNat_lt vhigh.toNat_lt hhigh),
    Vector.toList_inj.mp hseq]

theorem length_permSrvConvertUuidToStr (u : TeeUuid) :
    (permSrvConvertUuidToStr u).length = uuidStrLen := by
  simp [permSrvConvertUuidToStr, length_hexPad, length_hexPairs, uuidStrLen]

theorem cnOf_inj {u v : TeeUuid} {n m : Bytes} (h : cnOf u n = cnOf v m) : u = v ∧ n = m := by
  obtain ⟨huuid, hname⟩ := append_cons_inj
    (by rw [length_permSrvConvertUuidToStr, length_permSrvConvertUuidToStr]) h
  exact ⟨permSrvConvertUuidToStr_inj huuid, hname⟩

theorem cnCheck_eq {cn : Bytes} {u : TeeUuid} {n : Bytes} (h : cnCheck cn u n = true) :
    cnOf u n = cn := by
  rw [cnCheck, Bool.and_eq_true] at h
  exact of_decide_eq_true h.2

theorem taCertCnOuCheck_cn {dynImportCert sysVerifyTa : Bool} {conf : ConfCert} {u : TeeUuid}
    {n : Bytes} {s : CertSubjects} {certType : TaCert}
    (h : taCertCnOuCheck dynImportCert conf sysVerifyTa u n s = some certType) : cnOf u n = s.cn := by
  rw [taCertCnOuCheck] at h
  split at h
  · cases h
  · rename_i hcn
    exact cnCheck_eq ((Bool.not_eq_false _).mp hcn)

/-! ## The list -/

variable {l : List ConfigEntry} {new : ConfigInfo} {u v : TeeUuid}

theorem filter_eraseP_reverse (l : List ConfigEntry) (v : TeeUuid) :
    ((l.reverse.eraseP fun e => e.uuid = v).reverse.filter fun e => e.uuid ≠ v) =
      l.filter fun e => e.uuid ≠ v := by
  have herase : ∀ m : List ConfigEntry, ((m.eraseP fun e => e.uuid = v).filter fun e => e.uuid ≠ v) =
      m.filter fun e => e.uuid ≠ v := by
    intro m
    induction m with
    | nil => rfl
    | cons e m ih =>
      by_cases he : e.uuid = v
      · rw [eraseP_cons_of_pos (by simp [he]), filter_cons_of_neg (by simp [he])]
      · rw [eraseP_cons_of_neg (by simp [he]), filter_cons_of_pos (by simp [he]),
          filter_cons_of_pos (by simp [he]), ih]
  rw [filter_reverse, herase, filter_reverse, reverse_reverse]

theorem getConfigEntry_append {e : ConfigEntry} (he : e.uuid = u) :
    getConfigEntry (l ++ [e]) u = some e := by
  rw [getConfigEntry, reverse_append, reverse_singleton, singleton_append]
  exact find?_cons_of_pos (decide_eq_true he)

/-- The entry of a uuid is found among the entries of all others than another one. -/
theorem getConfigEntry_filter (hv : v ≠ u) :
    getConfigEntry (l.filter fun e => e.uuid ≠ u) v = getConfigEntry l v := by
  rw [getConfigEntry, getConfigEntry, ← filter_reverse, find?_filter]
  congr 1
  funext e
  by_cases he : e.uuid = v
  · simp [he, hv]
  · simp [he]

/-- What the installation leaves, as an old list and the new entry. -/
theorem permSrvUpdateConfigBySameUuid_eq (l : List ConfigEntry) (new : ConfigInfo) :
    ∃ kept tasks, permSrvUpdateConfigBySameUuid l new = kept ++ [⟨new, tasks⟩] ∧
      (kept.filter fun e => e.uuid ≠ new.uuid) = l.filter fun e => e.uuid ≠ new.uuid := by
  unfold permSrvUpdateConfigBySameUuid
  split
  · exact ⟨_, _, rfl, filter_eraseP_reverse l new.uuid⟩
  · exact ⟨l, [], rfl, rfl⟩

/-- Installing a configuration changes the entry of its own uuid only. -/
theorem filter_permSrvUpdateConfigBySameUuid :
    ((permSrvUpdateConfigBySameUuid l new).filter fun e => e.uuid ≠ new.uuid) =
      l.filter fun e => e.uuid ≠ new.uuid := by
  obtain ⟨kept, tasks, hupdate, hkept⟩ := permSrvUpdateConfigBySameUuid_eq l new
  have hlast : [(⟨new, tasks⟩ : ConfigEntry)].filter (fun e => e.uuid ≠ new.uuid) = [] :=
    filter_cons_of_neg (by simp [ConfigEntry.uuid])
  rw [hupdate, filter_append, hlast, append_nil, hkept]

theorem getConfigEntry_permSrvUpdateConfigBySameUuid :
    ∃ tasks, getConfigEntry (permSrvUpdateConfigBySameUuid l new) new.uuid = some ⟨new, tasks⟩ := by
  obtain ⟨kept, tasks, hupdate, -⟩ := permSrvUpdateConfigBySameUuid_eq l new
  exact ⟨tasks, hupdate ▸ getConfigEntry_append rfl⟩

theorem getConfigEntry_permSrvUpdateConfigBySameUuid_ne (hu : new.uuid ≠ u) :
    getConfigEntry (permSrvUpdateConfigBySameUuid l new) u = getConfigEntry l u := by
  rw [← getConfigEntry_filter (Ne.symm hu), filter_permSrvUpdateConfigBySameUuid,
    getConfigEntry_filter (Ne.symm hu)]

/-- Installing the configuration of another TA leaves the entries of all others as they were
exactly if the last one of them is the entry of that configuration. -/
theorem filter_permSrvUpdateConfigBySameUuid_iff (hu : new.uuid ≠ u) :
    ((permSrvUpdateConfigBySameUuid l new).filter fun e => e.uuid ≠ u) =
        (l.filter fun e => e.uuid ≠ u) ↔
      ((l.filter fun e => e.uuid ≠ u).getLast?).map ConfigEntry.config = some new := by
  have hnew : ∀ tasks, [(⟨new, tasks⟩ : ConfigEntry)].filter (fun e => e.uuid ≠ u) =
      [⟨new, tasks⟩] := fun tasks => filter_cons_of_pos (decide_eq_true hu)
  constructor
  · intro h
    obtain ⟨kept, tasks, hupdate, -⟩ := permSrvUpdateConfigBySameUuid_eq l new
    rw [← h, hupdate, filter_append, hnew, getLast?_concat]
    rfl
  · intro h
    obtain ⟨e, hlast, he⟩ := Option.map_eq_some_iff.mp h
    obtain ⟨init, hinit⟩ := getLast?_eq_some_iff.mp hlast
    have heq : e.uuid = new.uuid := congrArg ConfigInfo.uuid he
    have hfound : getConfigEntry l new.uuid = some e := by
      rw [← getConfigEntry_filter hu, hinit]
      exact getConfigEntry_append heq
    have herase : ((l.reverse.eraseP fun e => e.uuid = new.uuid).reverse.filter
        fun e => e.uuid ≠ u) = init := by
      have hboth : (fun e : ConfigEntry => decide (e.uuid = new.uuid) && decide (e.uuid ≠ u)) =
          fun e => decide (e.uuid = new.uuid) := by
        funext e
        by_cases he : e.uuid = new.uuid
        · simp [he, hu]
        · simp [he]
      rw [filter_reverse, ← hboth, ← eraseP_filter, filter_reverse, hinit, reverse_append,
        reverse_singleton, singleton_append, eraseP_cons_of_pos (by simp [heq]),
        reverse_reverse]
    rw [permSrvUpdateConfigBySameUuid, hfound]
    dsimp only
    rw [filter_append, herase, hnew, hinit, ← he]

/-! ## The body of a package -/

/-- What a package leaves of the list: the entries of other TAs are as they were, and if
it is accepted the entry of the TA is of its uuid and name. -/
structure OwnEntryOnly (u : TeeUuid) (n : Bytes) (l : List ConfigEntry)
    (res : List ConfigEntry × Bool) : Prop where
  others : (res.1.filter fun e => e.uuid ≠ u) = l.filter fun e => e.uuid ≠ u
  own : res.2 = true → ∃ e, getConfigEntry res.1 u = some e ∧ e.uuid = u ∧ e.config.serviceName = n

theorem ownEntryOnly_refused {n : Bytes} : OwnEntryOnly u n l (l, false) := ⟨rfl, nofun⟩

/-- The list has what a package of another TA installs: its entry stands behind those of all
other TAs, and the TA of the manifest has its own. -/
structure AlreadyThere (u : TeeUuid) (n : Bytes) (l : List ConfigEntry) (new : ConfigInfo) :
    Prop where
  last : ((l.filter fun e => e.uuid ≠ u).getLast?).map ConfigEntry.config = some new
  own : ∃ e, getConfigEntry l u = some e ∧ e.config.serviceName = n

theorem uuid_of_getConfigEntry {e : ConfigEntry} (h : getConfigEntry l u = some e) : e.uuid = u := by
  rw [getConfigEntry] at h
  simpa using find?_some h

theorem ownEntryOnly_installed_iff (l : List ConfigEntry) (new : ConfigInfo) (u : TeeUuid)
    (n : Bytes) : OwnEntryOnly u n l (permSrvUpdateConfigBySameUuid l new, true) ↔
      new.uuid = u ∧ new.serviceName = n ∨ new.uuid ≠ u ∧ AlreadyThere u n l new := by
  by_cases hu : new.uuid = u
  · subst hu
    obtain ⟨tasks, hentry⟩ := @getConfigEntry_permSrvUpdateConfigBySameUuid l new
    constructor
    · intro h
      obtain ⟨e, he, -, hn⟩ := h.own rfl
      obtain rfl := Option.some.inj (hentry.symm.trans he)
      exact .inl ⟨rfl, hn⟩
    · rintro (⟨-, hn⟩ | ⟨hne, -⟩)
      · exact ⟨filter_permSrvUpdateConfigBySameUuid, fun _ => ⟨_, hentry, rfl, hn⟩⟩
      · exact absurd rfl hne
  · have hsame := @getConfigEntry_permSrvUpdateConfigBySameUuid_ne l new u hu
    constructor
    · intro h
      obtain ⟨e, he, -, hn⟩ := h.own rfl
      exact .inr ⟨hu, (filter_permSrvUpdateConfigBySameUuid_iff hu).mp h.others,
        e, hsame.symm.trans he, hn⟩
    · rintro (⟨heq, -⟩ | ⟨-, hthere⟩)
      · exact absurd heq hu
      · obtain ⟨e, he, hn⟩ := hthere.own
        exact ⟨(filter_permSrvUpdateConfigBySameUuid_iff hu).mpr hthere.last,
          fun _ => ⟨e, hsame.trans he, uuid_of_getConfigEntry he, hn⟩⟩

/-- The configuration as it is installed. -/
def installed (certType : TaCert) (policyVersion : Nat) (c : ConfigInfo) : ConfigInfo :=
  { (if certType = .release then
      { c with controlInfo := { c.controlInfo with validDevice := true } }
    else c) with version := policyVersion }

theorem uuid_installed (certType : TaCert) (policyVersion : Nat) (c : ConfigInfo) :
    (installed certType policyVersion c).uuid = c.uuid := by
  cases certType <;> rfl

theorem serviceName_installed (certType : TaCert) (policyVersion : Nat) (c : ConfigInfo) :
    (installed certType policyVersion c).serviceName = c.serviceName := by
  cases certType <;> rfl

/-- A package is refused and changes nothing, or its configuration is installed. -/
theorem taConfigPackageProcess_cases (tools : ConfigTools) (dynImportCert : Bool)
    (conf : ConfCert) (u : TeeUuid) (n : Bytes) (pkg : ConfigPackage) (l : List ConfigEntry) :
    taConfigPackageProcess tools dynImportCert conf u n pkg l = (l, false) ∨
      ∃ certType c, taCertCnOuCheck dynImportCert conf pkg.sysVerifyTa u n pkg.subjects =
          some certType ∧ bodyConfig tools (pkg.permConfig .debug) = some c ∧
        (certType = .release → checkCnValidation pkg.subjects.cn c = true) ∧
        taConfigPackageProcess tools dynImportCert conf u n pkg l =
          (permSrvUpdateConfigBySameUuid l (installed certType pkg.policyVersion c), true) := by
  unfold taConfigPackageProcess
  cases hcert : taCertCnOuCheck dynImportCert conf pkg.sysVerifyTa u n pkg.subjects with
  | none => exact .inl rfl
  | some certType =>
    dsimp only
    unfold permSrvParseConfigBody
    split
    · exact .inl rfl
    have hbody' : bodyConfig tools (pkg.permConfig certType) =
      bodyConfig tools (pkg.permConfig .debug) := rfl
    rw [hbody']
    cases hbody : bodyConfig tools (pkg.permConfig .debug) with
    | none => exact .inl rfl
    | some c =>
      dsimp only
      split
      · exact .inl rfl
      next hcheck =>
      by_cases hdyn : parseDyntlvBuf tools u (pkg.permConfig certType)
          (installed certType pkg.policyVersion c)
          (pkg.tlvLen - checkContainDynconf (pkg.permConfig certType))
          (checkContainDynconf (pkg.permConfig certType)) = true
      · refine .inr ⟨certType, c, rfl, rfl, fun hrelease => ?_, if_pos hdyn⟩
        rw [← Bool.not_eq_false]
        exact fun hfalse => hcheck ⟨hrelease, hfalse⟩
      · exact .inl (if_neg hdyn)

/-- An element as the jar tool writes it, with a tag of two bytes. -/
def jarElement (tag : Nat) (value : Bytes) : Bytes :=
  let len := value.length + 4
  [16, UInt8.ofNat (len / 2^8), UInt8.ofNat len, 2, 2, UInt8.ofNat (tag / 2^8), UInt8.ofNat tag] ++ value

/-- A body that names a TA and its service. -/
def jarBody (u : TeeUuid) (n : Bytes) : Bytes :=
  jarElement 0 (jarElement tlvTagTaBasicInfo
    (jarElement tlvTagUuid (permSrvConvertUuidToStr u) ++ jarElement tlvTagServiceName n))

def namingPackage (certOf bodyOf : TeeUuid) (prod : Bool) : ConfigPackage :=
  { subjects := ⟨cnOf certOf [0x61], prod, !prod⟩
    sysVerifyTa := true
    tlvBuf := jarBody bodyOf [0x61]
    tlvLen := (jarBody bodyOf [0x61]).length
    policyVersion := 1 }

def noTools : ConfigTools := ⟨fun _ _ _ => none, fun _ _ _ => false⟩

example : (taConfigPackageProcess noTools false .release { timeLow := 7 } [0x61]
    (namingPackage { timeLow := 7 } { timeLow := 7 } true) []).2 = true := by
  decide +kernel

end TeeOs.PermSrv
