import TeeOs.PermSrv.CrlCodec

/-!
# Revocation is permanent

A history is a sequence of CRLs, loads of the list and restarts of the service. The
certificates of a CRL processed with success are in the file and stay there as long as
every later store finds them in memory. That fails when a CRL is processed after a
restart and before the list is loaded, and when a load drops the issuers in memory at
the limit of the counter, which every load makes grow.
-/

namespace TeeOs.PermSrv

open TeeOs.Lib.Keyed List
open TeeOs.Lib.Runs

/-- Whether a list revokes a serial number of an issuer. -/
def revokedIn (l : List CrlIssuer) (issuer sn : Bytes) : Bool :=
  l.any fun e => e.issuer = issuer && e.nodes.any fun n => n.sn = sn

/-- Whether a list revokes what another one revokes. -/
def covers (l stored : List CrlIssuer) : Bool :=
  stored.all fun e => e.nodes.all fun n => revokedIn l e.issuer n.sn

variable {l l' stored : List CrlIssuer} {e e' : CrlIssuer} {i s : Bytes} {c : RevokedConfig}

theorem revokedIn_iff : revokedIn l i s = true ↔ ∃ e ∈ l, e.issuer = i ∧ ∃ n ∈ e.nodes, n.sn = s := by
  simp only [revokedIn, any_eq_true, Bool.and_eq_true, decide_eq_true_eq]

theorem covers_iff : covers l stored = true ↔
    ∀ i s, revokedIn stored i s = true → revokedIn l i s = true := by
  constructor
  · intro h i s hs
    obtain ⟨e, he, rfl, n, hn, rfl⟩ := revokedIn_iff.mp hs
    exact all_eq_true.mp (all_eq_true.mp h e he) n hn
  · intro h
    apply all_eq_true.mpr
    intro e he
    apply all_eq_true.mpr
    intro n hn
    exact h e.issuer n.sn (revokedIn_iff.mpr ⟨e, he, rfl, n, hn, rfl⟩)

theorem checkCertRevoked_eq (hs : 0 < s.length) (hs' : s.length ≤ certUniversalLen)
    (hi : 0 < i.length) (hi' : i.length ≤ certLargeLen) :
    checkCertRevoked c s i = some (revokedIn c.crlIssuerList i s) := by
  rw [checkCertRevoked, if_neg (by omega), revokedIn]

/-! ## Taking issuers over from the file -/

theorem revokedIn_absorb_self : revokedIn (absorb l e) e.issuer s = e.nodes.any fun n => n.sn = s := by
  rw [Bool.eq_iff_iff, revokedIn_iff, any_eq_true]
  constructor
  · rintro ⟨e', he', hi, n, hn, hs⟩
    rcases mem_append.mp he' with hd | hlast
    · exact absurd hi (mem_delete.mp hd).2
    · rw [mem_singleton.mp hlast] at hn
      exact ⟨n, hn, decide_eq_true hs⟩
  · rintro ⟨n, hn, hs⟩
    exact ⟨e, mem_append_right _ (mem_singleton.mpr rfl), rfl, n, hn, of_decide_eq_true hs⟩

theorem revokedIn_absorb_ne (hi : e.issuer ≠ i) : revokedIn (absorb l e) i s = revokedIn l i s := by
  rw [Bool.eq_iff_iff, revokedIn_iff, revokedIn_iff]
  constructor
  · rintro ⟨e', he', hi', hn⟩
    rcases mem_append.mp he' with hd | hlast
    · exact ⟨e', (mem_delete.mp hd).1, hi', hn⟩
    · rw [mem_singleton.mp hlast] at hi'
      exact absurd hi' hi
  · rintro ⟨e', he', hi', hn⟩
    refine ⟨e', mem_append_left _ (mem_delete.mpr ⟨he', ?_⟩), hi', hn⟩
    rw [hi']
    exact Ne.symm hi

variable {taken : List CrlIssuer} {issuer : Bytes} {h : CrlHistory} {k : Nat} {n : RevokedNode}

theorem revokedIn_foldl_of_not_mem (h : ∀ e ∈ taken, e.issuer ≠ i) :
    revokedIn (taken.foldl absorb l) i s = revokedIn l i s := by
  induction taken generalizing l with
  | nil => rfl
  | cons e taken ih =>
    rw [foldl_cons, ih fun e' he' => h e' (mem_cons_of_mem e he'),
      revokedIn_absorb_ne (h e mem_cons_self)]

theorem revokedIn_foldl_of_mem (hn : (taken.map CrlIssuer.issuer).Nodup) (he : e ∈ taken) :
    revokedIn (taken.foldl absorb l) e.issuer s = e.nodes.any fun n => n.sn = s := by
  obtain ⟨before, behind, rfl, -, hbehind⟩ := split_of_mem hn he
  rw [foldl_append, foldl_cons, revokedIn_foldl_of_not_mem hbehind, revokedIn_absorb_self]

/-- Taking over the first issuers of the file keeps what the file revokes. -/
theorem covers_foldl (hn : (stored.map CrlIssuer.issuer).Nodup)
    (hp : taken <+: stored) (h : covers l stored = true ∨ taken = stored) :
    covers (taken.foldl absorb l) stored = true := by
  apply covers_iff.mpr
  intro i s hs
  obtain ⟨e, he, rfl, n, hnode, rfl⟩ := revokedIn_iff.mp hs
  have hany : e.nodes.any (fun m => m.sn = n.sn) = true :=
    any_eq_true.mpr ⟨n, hnode, decide_eq_true rfl⟩
  have htaken : (taken.map CrlIssuer.issuer).Nodup := hn.sublist (hp.sublist.map _)
  by_cases hmem : e ∈ taken
  · rw [revokedIn_foldl_of_mem htaken hmem]
    exact hany
  · have hne : ∀ e' ∈ taken, e'.issuer ≠ e.issuer := fun e' he' hi => by
      rw [inj_on_of_nodup_map hn (hp.subset he') he hi] at he'
      exact hmem he'
    rw [revokedIn_foldl_of_not_mem hne]
    rcases h with hcov | rfl
    · exact covers_iff.mp hcov _ _ hs
    · exact absurd he hmem

/-! ## Adding a revocation list -/

/-- The list in memory only gains certificates. -/
structure Grown (c c' : RevokedConfig) : Prop where
  listFile : c'.listFile = c.listFile
  existFlag : c'.existFlag = c.existFlag
  nodup : (c.crlIssuerList.map CrlIssuer.issuer).Nodup →
    (c'.crlIssuerList.map CrlIssuer.issuer).Nodup
  keeps : ∀ i s, revokedIn c.crlIssuerList i s = true → revokedIn c'.crlIssuerList i s = true

open Grown

theorem Grown.refl (c : RevokedConfig) : Grown c c := ⟨rfl, rfl, id, fun _ _ => id⟩

theorem Grown.trans {c c' c'' : RevokedConfig} (h : Grown c c') (h' : Grown c' c'') : Grown c c'' where
  listFile := h'.listFile.trans h.listFile
  existFlag := h'.existFlag.trans h.existFlag
  nodup := fun hn => h'.nodup (h.nodup hn)
  keeps := fun i s hs => h'.keeps i s (h.keeps i s hs)

theorem grown_newIssuer (hnew : ∀ e ∈ c.crlIssuerList, e.issuer ≠ issuer) (he : e.issuer = issuer) :
    Grown c { c with issuerCount := k, crlIssuerList := c.crlIssuerList ++ [e] } where
  listFile := rfl
  existFlag := rfl
  nodup := fun hn => by
    rw [map_append, map_singleton, ← concat_eq_append]
    apply List.Nodup.concat
    · intro hmem
      obtain ⟨e', he', hi⟩ := mem_map.mp hmem
      exact hnew e' he' (hi.trans he)
    · exact hn
  keeps := fun i s hs => by
    obtain ⟨e', he', h⟩ := revokedIn_iff.mp hs
    exact revokedIn_iff.mpr ⟨e', mem_append_left _ he', h⟩

theorem grown_addNode :
    Grown c { c with revokedCount := k
                     crlIssuerList := edit CrlIssuer.issuer issuer
                       (fun e => { e with nodes := e.nodes ++ [n] }) c.crlIssuerList } where
  listFile := rfl
  existFlag := rfl
  nodup := fun hn => by
    rw [map_edit]
    · exact hn
    · exact fun _ _ _ => rfl
  keeps := fun i s hs => by
    obtain ⟨e, he, rfl, m, hm, rfl⟩ := revokedIn_iff.mp hs
    refine revokedIn_iff.mpr ⟨_, mem_edit.mpr ⟨e, he, rfl⟩, ?_⟩
    by_cases hi : e.issuer = issuer
    · rw [if_pos hi]
      exact ⟨rfl, m, mem_append_left _ hm, rfl⟩
    · rw [if_neg hi]
      exact ⟨rfl, m, hm, rfl⟩

theorem revokedIn_addNode (he : e ∈ l) :
    revokedIn (edit CrlIssuer.issuer e.issuer (fun e => { e with nodes := e.nodes ++ [n] }) l)
      e.issuer n.sn = true := by
  refine revokedIn_iff.mpr ⟨_, mem_edit.mpr ⟨e, he, rfl⟩, ?_⟩
  rw [if_pos rfl]
  exact ⟨rfl, n, mem_append_right _ (mem_singleton.mpr rfl), rfl⟩

/-- What the addition of one certificate does, and of a whole list: the list in memory
grows, and revokes `p` if it succeeds. -/
structure Adds (c : RevokedConfig) (p : List CrlIssuer → Prop) (res : RevokedConfig × Nat × Bool) :
    Prop where
  grown : Grown c res.1
  added : res.2.2 = true → p res.1.crlIssuerList

theorem addRevokedNodeToCrlIssuerEntry_adds (c : RevokedConfig) (mem : Nat) (n : RevokedNode)
    (h : issuer.length ≤ certLargeLen) :
    Adds c (fun l => revokedIn l issuer n.sn = true)
      (addRevokedNodeToCrlIssuerEntry c mem n issuer h) := by
  unfold addRevokedNodeToCrlIssuerEntry
  dsimp only
  split
  · rename_i hany
    obtain ⟨e, he, hi⟩ := any_eq_true.mp hany
    obtain rfl := of_decide_eq_true hi
    split
    · exact ⟨refl c, by simp⟩
    · exact ⟨grown_addNode, fun _ => revokedIn_addNode he⟩
  · rename_i hnone
    have hnew : ∀ e ∈ c.crlIssuerList, e.issuer ≠ issuer := fun e he hi =>
      hnone (any_eq_true.mpr ⟨e, he, decide_eq_true hi⟩)
    cases mem with
    | zero => exact ⟨refl c, by simp⟩
    | succ mem =>
      dsimp only
      split
      · exact ⟨refl c, by simp⟩
      · split
        · exact ⟨grown_newIssuer hnew rfl, by simp⟩
        · refine ⟨(grown_newIssuer hnew rfl).trans grown_addNode, fun _ => ?_⟩
          exact revokedIn_addNode (e := ⟨issuer, h, []⟩)
            (mem_append_right _ (mem_singleton.mpr rfl))

/-- Serial number and issuer are of sizes that a certificate can have. -/
structure ValidPair (i s : Bytes) : Prop where
  sn_pos : 0 < s.length
  sn_le : s.length ≤ certUniversalLen
  issuer_pos : 0 < i.length
  issuer_le : i.length ≤ certLargeLen

theorem checkCertRevoked_some {b : Bool} (h : checkCertRevoked c s i = some b) :
    ValidPair i s ∧ b = revokedIn c.crlIssuerList i s := by
  rw [checkCertRevoked] at h
  split at h
  · cases h
  · exact ⟨⟨by omega, by omega, by omega, by omega⟩, (Option.some.inj h).symm⟩

theorem crlEntriesToList_adds (h : issuer.length ≤ certLargeLen)
    (entries : List CertListEntry) : ∀ {c : RevokedConfig} {mem : Nat},
    Adds c (fun l => ∀ n ∈ entries, ValidPair issuer n.sn ∧ revokedIn l issuer n.sn = true)
      (crlEntriesToList issuer h c mem entries) := by
  induction entries with
  | nil =>
    intro c mem
    exact ⟨refl c, fun _ n hn => absurd hn not_mem_nil⟩
  | cons entry rest ih =>
    intro c mem
    unfold crlEntriesToList
    cases hcheck : checkCertRevoked c entry.sn issuer with
    | none => exact ⟨refl c, nofun⟩
    | some present =>
      obtain ⟨hvalid, hpresent⟩ := checkCertRevoked_some hcheck
      cases present with
      | true =>
        refine ⟨ih.grown, fun hok n hn => ?_⟩
        rcases mem_cons.mp hn with rfl | hn
        · exact ⟨hvalid, ih.grown.keeps _ _ hpresent.symm⟩
        · exact ih.added hok n hn
      | false =>
        cases mem with
        | zero => exact ⟨refl c, nofun⟩
        | succ mem =>
          have hadd := addRevokedNodeToCrlIssuerEntry_adds c mem entry h
          dsimp only
          rcases hres : addRevokedNodeToCrlIssuerEntry c mem entry issuer h with ⟨c', mem', ok⟩
          rw [hres] at hadd
          cases ok with
          | false => exact ⟨hadd.grown, nofun⟩
          | true =>
            refine ⟨hadd.grown.trans ih.grown, fun hok n hn => ?_⟩
            rcases mem_cons.mp hn with rfl | hn
            · exact ⟨hvalid, ih.grown.keeps _ _ (hadd.added rfl)⟩
            · exact ih.added hok n hn

theorem crlCertToList_adds (c : RevokedConfig) (mem : Nat) (entries : List CertListEntry)
    (issuer : Bytes) :
    Adds c (fun l => ∀ n ∈ entries, ValidPair issuer n.sn ∧ revokedIn l issuer n.sn = true)
      (crlCertToList c mem entries issuer) := by
  rw [crlCertToList]
  split
  · exact ⟨refl c, nofun⟩
  · exact crlEntriesToList_adds _ entries

/-! ## Histories -/

/-- The configuration of the service, and what happened: the certificates of the CRLs
processed with success, whether the list was loaded since the last restart, and the
list stored last. -/
structure CrlHistory where
  config : RevokedConfig := {}
  revoked : List (Bytes × Bytes) := []
  loaded : Bool := false
  stored : List CrlIssuer := []

open CrlHistory

inductive CrlEvent
  | crl (mem : Nat) (cert : CrlCert)
  | load (checkEmpty : Bool) (mem : Nat)
  | restart

/-- The certificates that a CRL revokes, by issuer and serial number. -/
def CrlCert.pairs (cert : CrlCert) : List (Bytes × Bytes) :=
  match cert.issuer, cert.revoked with
  | some issuer, some entries => entries.map fun n => (issuer, n.sn)
  | _, _ => []

def CrlHistory.step (h : CrlHistory) : CrlEvent → CrlHistory
  | .crl mem cert =>
    match taCrlCertProcess h.config mem cert with
    | (c, true) =>
      { h with config := c, revoked := cert.pairs ++ h.revoked, stored := c.crlIssuerList }
    | (c, false) => { h with config := c }
  | .load checkEmpty mem =>
    match globalTaCrlListLoading checkEmpty h.config mem with
    | (c, ok) => { h with config := c, loaded := h.loaded || ok }
  | .restart => { h with config := { listFile := h.config.listFile }, loaded := false }

/-- The file of the service holds the list. -/
structure StoredList (c : RevokedConfig) (stored : List CrlIssuer) : Prop where
  file : c.listFile = fileBytes stored ∨ c.listFile = [] ∧ stored = []
  nodup : (stored.map CrlIssuer.issuer).Nodup

/-- What holds along every history: the file holds the stored list, and issuers are
listed once. -/
structure Kept (h : CrlHistory) : Prop where
  stored : StoredList h.config h.stored
  nodup : (h.config.crlIssuerList.map CrlIssuer.issuer).Nodup

/-- What holds along a history in which no certificate is lost. -/
structure Lasting (h : CrlHistory) : Prop extends Kept h where
  sizes : ∀ p ∈ h.revoked, ValidPair p.1 p.2
  revoked : ∀ p ∈ h.revoked, revokedIn h.stored p.1 p.2 = true
  loaded : h.loaded = true → covers h.config.crlIssuerList h.stored = true

/-- A CRL is processed, and a load is skipped, only while the list in memory revokes
what the stored one does; and a load then finds room for the issuers of the file. -/
def CrlEvent.safe (h : CrlHistory) : CrlEvent → Bool
  | .crl _ _ => covers h.config.crlIssuerList h.stored
  | .load checkEmpty _ =>
    if checkEmpty && !isCrlIssuerListEmpty h.config then
      covers h.config.crlIssuerList h.stored
    else !covers h.config.crlIssuerList h.stored ||
      decide (h.config.issuerCount + h.stored.length ≤ issuerMaxCount)
  | .restart => true

/-- What a CRL does to the configuration: it fails and memory may have grown, or the
grown list is stored. -/
theorem taCrlCertProcess_cases (c : RevokedConfig) (mem : Nat) (cert : CrlCert) :
    (∃ c', Grown c c' ∧ taCrlCertProcess c mem cert = (c', false)) ∨
      ∃ c', Grown c c' ∧ (∀ p ∈ cert.pairs, ValidPair p.1 p.2 ∧
          revokedIn c'.crlIssuerList p.1 p.2 = true) ∧
        taCrlCertProcess c mem cert =
          ({ c' with listFile := fileBytes c'.crlIssuerList, existFlag := true }, true) := by
  unfold taCrlCertProcess
  split
  · rename_i issuer mem entries _ hissuer hentries
    have hadds := crlCertToList_adds c mem entries issuer
    rcases hres : crlCertToList c mem entries issuer with ⟨c', mem', ok⟩
    rw [hres] at hadds
    cases ok with
    | false => exact .inl ⟨c', hadds.grown, rfl⟩
    | true =>
      rcases globalTaCrlListStoring_cases c' mem' with hfail | hstored
      · exact .inl ⟨c', hadds.grown, hfail⟩
      · refine .inr ⟨c', hadds.grown, fun p hp => ?_, hstored⟩
        rw [CrlCert.pairs, hissuer, hentries] at hp
        obtain ⟨n, hn, rfl⟩ := mem_map.mp hp
        exact hadds.added rfl n hn
  · exact .inl ⟨c, refl c, rfl⟩

theorem Kept.crl (hk : Kept h) (mem : Nat) (cert : CrlCert) : Kept (h.step (.crl mem cert)) := by
  rw [step]
  rcases taCrlCertProcess_cases h.config mem cert with ⟨c', hg, hres⟩ | ⟨c', hg, -, hres⟩
  · rw [hres]
    refine ⟨⟨?_, hk.stored.nodup⟩, hg.nodup hk.nodup⟩
    rw [hg.listFile]
    exact hk.stored.file
  · rw [hres]
    have hnodup := hg.nodup hk.nodup
    exact ⟨⟨.inl rfl, hnodup⟩, hnodup⟩

theorem Lasting.crl (hl : Lasting h) (mem : Nat) (cert : CrlCert)
    (hcov : covers h.config.crlIssuerList h.stored = true) : Lasting (h.step (.crl mem cert)) := by
  have hkept := hl.toKept.crl mem cert
  rw [step] at hkept ⊢
  rcases taCrlCertProcess_cases h.config mem cert with ⟨c', hg, hres⟩ | ⟨c', hg, hpairs, hres⟩
  · rw [hres] at hkept ⊢
    refine ⟨hkept, hl.sizes, hl.revoked, fun _ => ?_⟩
    apply covers_iff.mpr
    intro i s hs
    exact hg.keeps i s (covers_iff.mp hcov i s hs)
  · rw [hres] at hkept ⊢
    refine ⟨hkept, fun p hp => ?_, fun p hp => ?_, fun _ => ?_⟩
    · rcases mem_append.mp hp with hp | hp
      · exact (hpairs p hp).1
      · exact hl.sizes p hp
    · rcases mem_append.mp hp with hp | hp
      · exact (hpairs p hp).2
      · exact hg.keeps _ _ (covers_iff.mp hcov _ _ (hl.revoked p hp))
    · exact covers_iff.mpr fun _ _ hs => hs

/-- The ways a load goes: it is skipped, it fails before it reads, there is no file, or
the file is read. -/
theorem globalTaCrlListLoading_cases (checkEmpty : Bool) (c : RevokedConfig) (mem : Nat) :
    ((checkEmpty && !isCrlIssuerListEmpty c) = true ∧
        globalTaCrlListLoading checkEmpty c mem = (c, true)) ∨
      globalTaCrlListLoading checkEmpty c mem = (c, false) ∨
      (c.listFile = [] ∧
        globalTaCrlListLoading checkEmpty c mem = ({ c with existFlag := false }, true)) ∨
      ((checkEmpty && !isCrlIssuerListEmpty c) = false ∧ c.listFile ≠ [] ∧
        c.listFile.length ≤ crlCertListMaxSize ∧ ∃ k, mem = k + 1 ∧
          globalTaCrlListLoading checkEmpty c mem = crlIssuerBuffToList c k c.listFile) := by
  unfold globalTaCrlListLoading
  cases hskip : checkEmpty && !isCrlIssuerListEmpty c with
  | true => exact .inl ⟨rfl, rfl⟩
  | false =>
    rw [if_neg Bool.false_ne_true]
    split
    · exact .inr (.inl rfl)
    rename_i hsize
    split
    · rename_i hzero
      exact .inr (.inr (.inl ⟨length_eq_zero_iff.mp hzero, rfl⟩))
    rename_i hpos
    cases mem with
    | zero => exact .inr (.inl rfl)
    | succ mem =>
      refine .inr (.inr (.inr ⟨rfl, ?_, Nat.not_lt.mp hsize, mem, rfl, rfl⟩))
      intro hnil
      exact hpos (by rw [hnil]; rfl)

theorem StoredList.eq_fileBytes (hs : StoredList c stored) (hfile : c.listFile ≠ []) :
    c.listFile = fileBytes stored := by
  rcases hs.file with hbytes | ⟨hnil, -⟩
  · exact hbytes
  · exact absurd hnil hfile

theorem StoredList.loaded (hs : StoredList c stored) (hfile : c.listFile ≠ [])
    (hsize : c.listFile.length ≤ crlCertListMaxSize) :
    Loaded stored c (crlIssuerBuffToList c k c.listFile) := by
  rw [hs.eq_fileBytes hfile] at hsize ⊢
  simp only [crlCertListMaxSize] at hsize
  obtain ⟨fuel, hfuel, hmax, heq⟩ := crlIssuerBuffToList_eq c k (l := stored) (by omega)
  rw [heq]
  exact crlIssuerListLoad_issuersBytes stored hfuel hmax

theorem StoredList.eq_nil (hs : StoredList c stored) (hnil : c.listFile = []) : stored = [] := by
  rcases hs.file with hbytes | ⟨-, hstored⟩
  · rw [hnil] at hbytes
    cases hbytes
  · exact hstored

theorem Kept.load (hk : Kept h) (checkEmpty : Bool) (mem : Nat) :
    Kept (h.step (.load checkEmpty mem)) := by
  rw [step]
  rcases globalTaCrlListLoading_cases checkEmpty h.config mem with
    ⟨-, hres⟩ | hres | ⟨-, hres⟩ | ⟨-, hfile, hsize, k, -, hres⟩
  · rw [hres]
    exact ⟨hk.stored, hk.nodup⟩
  · rw [hres]
    exact ⟨hk.stored, hk.nodup⟩
  · rw [hres]
    exact ⟨⟨hk.stored.file, hk.stored.nodup⟩, hk.nodup⟩
  · have hload : Loaded h.stored h.config (crlIssuerBuffToList h.config k h.config.listFile) :=
      hk.stored.loaded hfile hsize
    rw [hres]
    refine ⟨⟨?_, hk.stored.nodup⟩, hload.nodup hk.nodup⟩
    rw [hload.listFile]
    exact hk.stored.file

theorem Lasting.load (hl : Lasting h) (checkEmpty : Bool) (mem : Nat)
    (hsafe : (CrlEvent.load checkEmpty mem).safe h = true) :
    Lasting (h.step (.load checkEmpty mem)) := by
  refine ⟨hl.toKept.load checkEmpty mem, hl.sizes, hl.revoked, fun hloaded => ?_⟩
  rw [step] at hloaded ⊢
  rw [CrlEvent.safe] at hsafe
  rcases globalTaCrlListLoading_cases checkEmpty h.config mem with
    ⟨hskip, hres⟩ | hres | ⟨hnil, hres⟩ | ⟨hread, hfile, hsize, k, -, hres⟩
  · rw [if_pos hskip] at hsafe
    rw [hres]
    exact hsafe
  · rw [hres] at hloaded ⊢
    exact hl.loaded ((Bool.or_false _).symm.trans hloaded)
  · rw [hl.stored.eq_nil hnil]
    rfl
  · have hload : Loaded h.stored h.config (crlIssuerBuffToList h.config k h.config.listFile) :=
      hl.stored.loaded hfile hsize
    rw [if_neg (by rw [hread]; exact Bool.false_ne_true), Bool.or_eq_true, Bool.not_eq_true',
      decide_eq_true_eq] at hsafe
    rw [hres] at hloaded ⊢
    -- the whole file was read, or memory held all of it before
    rcases Bool.or_eq_true_iff.mp hloaded with hbefore | hok
    · have hcov := hl.loaded hbefore
      have hroom := hsafe.resolve_left (by rw [hcov]; decide)
      obtain ⟨taken, hprefix, hlist⟩ := hload.some hroom
      rw [hlist]
      exact covers_foldl hl.stored.nodup hprefix (.inl hcov)
    · rw [hload.all hok]
      exact covers_foldl hl.stored.nodup (prefix_refl _) (.inr rfl)

theorem Kept.step (hk : Kept h) (e : CrlEvent) : Kept (h.step e) := by
  cases e with
  | crl mem cert => exact hk.crl mem cert
  | load checkEmpty mem => exact hk.load checkEmpty mem
  | restart => exact ⟨⟨hk.stored.file, hk.stored.nodup⟩, nodup_nil⟩

theorem Lasting.step (hl : Lasting h) (e : CrlEvent) (hsafe : e.safe h = true) :
    Lasting (h.step e) := by
  cases e with
  | crl mem cert => exact hl.crl mem cert hsafe
  | load checkEmpty mem => exact hl.load checkEmpty mem hsafe
  | restart => exact ⟨hl.toKept.step .restart, hl.sizes, hl.revoked, nofun⟩

theorem kept_init : Kept {} := ⟨⟨.inr ⟨rfl, rfl⟩, nodup_nil⟩, nodup_nil⟩

theorem lasting_init : Lasting {} where
  toKept := kept_init
  sizes := nofun
  revoked := nofun
  loaded := fun _ => rfl

/-- After every history in which CRLs are processed only while memory holds the stored
list, and loads find room for it, all revoked certificates are found revoked as soon as
the list is loaded. -/
theorem revocation_permanent (es : List CrlEvent)
    (h : Along step (fun h e => e.safe h = true) {} es)
    (hloaded : (runs step {} es).loaded = true) :
    ∀ p ∈ (runs step {} es).revoked,
      checkCertRevoked (runs step {} es).config p.2 p.1 = some true := by
  have hl : Lasting (runs step {} es) :=
    invariant_run (fun _ e hi hsafe => Lasting.step hi e hsafe) lasting_init h
  intro p hp
  have hvalid := hl.sizes p hp
  have hin := covers_iff.mp (hl.loaded hloaded) _ _ (hl.revoked p hp)
  rw [checkCertRevoked_eq hvalid.sn_pos hvalid.sn_le hvalid.issuer_pos hvalid.issuer_le, hin]

/-- Whatever is processed, loaded and restarted, and wherever memory runs out, the stored file is
the whole encoding of a list that names each issuer once. -/
theorem crl_file_whole (es : List CrlEvent) : Kept (runs step {} es) :=
  invariant_runs (fun _ e hk => hk.step e) kept_init es

/-! ## Samples -/

def sampleNode (sn : UInt8) : RevokedNode :=
  ⟨[sn], List.replicate asn1FormatTimeSize 0x30, (by decide : 1 ≤ certUniversalLen), by decide⟩

def sampleCrl (issuer sn : UInt8) : CrlCert := ⟨true, some [issuer], some [sampleNode sn]⟩

theorem revocation_permanent_sample :
    (runs step {} [.crl 10 (sampleCrl 1 7), .restart, .load true 10,
        .crl 10 (sampleCrl 2 8), .load false 10]).loaded = true ∧
    ∀ p ∈ (runs step {} [.crl 10 (sampleCrl 1 7), .restart, .load true 10,
        .crl 10 (sampleCrl 2 8), .load false 10]).revoked,
      checkCertRevoked (runs step {} [.crl 10 (sampleCrl 1 7), .restart, .load true 10,
        .crl 10 (sampleCrl 2 8), .load false 10]).config p.2 p.1 = some true :=
  ⟨by decide +kernel, revocation_permanent _ (by decide +kernel) (by decide +kernel)⟩

/-- A CRL that is processed after a restart and before the list is loaded: the first
certificate is revoked no more. -/
theorem revocation_lost : ([1], [7]) ∈ (runs step {} [.crl 10 (sampleCrl 1 7), .restart,
        .crl 10 (sampleCrl 2 8), .load false 10]).revoked ∧
      (runs step {} [.crl 10 (sampleCrl 1 7), .restart,
        .crl 10 (sampleCrl 2 8), .load false 10]).loaded = true ∧
      checkCertRevoked (runs step {} [.crl 10 (sampleCrl 1 7), .restart,
        .crl 10 (sampleCrl 2 8), .load false 10]).config [7] [1] = some false := by
  decide +kernel

-- the load that finds the counter at its limit drops the only issuer
example : checkCertRevoked (runs step {}
    (.crl 10 (sampleCrl 1 7) :: List.replicate 255 (.load false 10))).config [7] [1] =
    some false := by
  decide +kernel

end TeeOs.PermSrv
