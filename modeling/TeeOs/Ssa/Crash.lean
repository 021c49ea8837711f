import TeeOs.Ssa.Invariant

/-!
# Crash atomicity of an edit session

A session opens an object for writing, edits it, each edit followed by its MAC,
and closes it. `Safe` says that each of the two files is broken or holds one of
the given versions, and that one of them does; every agent call of a session
keeps it, as long as no edit leaves the object empty, and an open recovers a
version from every safe storage.
-/

namespace TeeOs.Ssa

open Lib.Calls Lib.Bytes List Proc Function TeeOs.Ssa.Crypto Option

variable {D : Type}

inductive Edit where
  | write (content : List UInt8)
  | truncate (len : Nat)

open Edit

def Edit.Valid : Edit → Prop
  | .write content => content.length ≤ int32Max
  | .truncate len => len < 4294967296

/-- What an edit makes of a content and a position. -/
def Edit.apply : Edit → List UInt8 × Nat → List UInt8 × Nat
  | .write content, (c, p) => (overlay c p content, p + content.length)
  | .truncate len, (c, p) => (if len = c.length then c else cutTo c len p, p)

/-- The contents before and after each edit. -/
def versions : List Edit → List UInt8 × Nat → List (List UInt8)
  | [], x => [x.1]
  | e :: es, x => x.1 :: versions es (e.apply x)

/-- The two names of an object. -/
def MetaData.names (metaData : MetaData) (name : String) : Prop :=
  name = metaData.curEncryptedFileId ∨ name = metaData.curBackupFileId

structure Safe (K : Crypto D) (metaData : MetaData) (vs : List (List UInt8))
    (files : String → Option (RawFile D)) : Prop where
  holds : ∀ name, metaData.names name → ∀ f m, GoodFile K metaData.fileId files name f m →
    ∃ c, c ∈ vs ∧ Holds K metaData.fileId c f m
  some_good : ∃ name, metaData.names name ∧ ∃ f m, GoodFile K metaData.fileId files name f m

/-- A file that fails the integrity check. -/
def Broken (K : Crypto D) (fileId : String) (f : RawFile D) : Prop := ¬ ∃ m, Intact K fileId f m

variable {K : Crypto D} {X : View D} {c c' : List UInt8} {p : Nat} {sfd sfd' : Sfd D} {s : Fs D}
  {f g f' : RawFile D} {m : MetaStorage D} {metaData : MetaData} {vs : List (List UInt8)}
  {files : Files D}

section Safety

/-- What an original file may be when the backup holds a version. -/
def Harmless (K : Crypto D) (fileId : String) (vs : List (List UInt8)) (f : RawFile D) : Prop :=
  ∀ m, Intact K fileId f m → ∃ c, c ∈ vs ∧ Holds K fileId c f m

variable {fileId : String}

theorem Broken.harmless (h : Broken K fileId f) : Harmless K fileId vs f :=
  fun m hi => (h ⟨m, hi⟩).elim

theorem Holds.harmless (h : Holds K fileId c f m) (hc : c ∈ vs) : Harmless K fileId vs f := by
  intro n hi
  have hn : n = m := mem_unique hi.header_eq h.header_eq
  subst hn
  exact ⟨c, hc, h⟩

theorem safe_of_harmless (ho : files metaData.curEncryptedFileId = some f)
    (hb : files metaData.curBackupFileId = some g) (hf : Harmless K metaData.fileId vs f)
    (hg : Harmless K metaData.fileId vs g)
    (hi : (∃ m, Intact K metaData.fileId f m) ∨ ∃ m, Intact K metaData.fileId g m) :
    Safe K metaData vs files := by
  constructor
  · rintro name (rfl | rfl) f' m' ⟨hf', hi'⟩
    · rw [ho, some.injEq] at hf'
      subst hf'
      exact hf m' hi'
    · rw [hb, some.injEq] at hf'
      subst hf'
      exact hg m' hi'
  · rcases hi with ⟨m, hi⟩ | ⟨m, hi⟩
    · exact ⟨_, .inl rfl, f, m, ho, hi⟩
    · exact ⟨_, .inr rfl, g, m, hb, hi⟩

/-- Without a data HMAC no check passes. -/
theorem broken_clearMac (fileId : String) (f : RawFile D) (data : List UInt8) :
    Broken K fileId (f.unsealed data) := by
  rintro ⟨m, hi⟩
  have hh := hi.header_eq
  obtain ⟨m', -, hm⟩ := map_eq_some_iff.mp hh
  have hnone : m.dataHmac = none := by rw [← hm]
  rw [hi.hmac_eq] at hnone
  cases hnone

/-- Other data under the same metadata does not pass a check. -/
theorem Holds.harmless_data (C : CollisionFree K) (h : Holds K fileId c f m)
    (hc : c ∈ vs) (data : List UInt8) : Harmless K fileId vs { f with data := data } := by
  intro n hi
  have hn : n = m := mem_unique hi.header_eq h.header_eq
  subst hn
  have hdata : data = f.data := hi.data_eq C h.toIntact rfl
  subst hdata
  exact ⟨c, hc, h⟩

/-- Between the two metadata writes of `ssa_write_mac` the header still names the old data HMAC. -/
theorem Updated.harmless_mac (C : CollisionFree K) (hu : Updated K X c' sfd f sfd' f')
    (h : Holds K fileId c f m) (hc : c ∈ vs) :
    Harmless K fileId vs (macFile K sfd'.firstBlock f') := by
  intro n hi
  have hn : n = { m with dataHmac := some (masterHmac K sfd'.firstBlock) } := by
    have hh := hi.header_eq
    unfold macFile at hh
    rcases hu.header_eq with he | he
    · rw [he, h.header_eq] at hh
      exact (some.inj hh).symm
    · unfold clearMac at he
      rw [he, h.header_eq] at hh
      exact (some.inj hh).symm
  have hname : n.hdr = m.hdr := by rw [hn]
  have hmac : n.dataHmac = m.dataHmac := by
    have h1 := hi.sealed.name_eq (by rw [hname]; exact h.version_eq)
    rw [hname, h.sealed.name_eq h.version_eq] at h1
    exact (C.hashName_inj _ _ _ _ h1).symm
  have hnm : n = m := by
    rw [hn] at hmac ⊢
    dsimp only at hmac
    rw [hmac]
  subst hnm
  have hfile : macFile K sfd'.firstBlock f' = f := by
    have hdata := hi.data_eq C h.toIntact rfl
    have hheader := hi.header_eq.trans h.header_eq.symm
    cases f
    cases hm : macFile K sfd'.firstBlock f'
    rw [hm] at hdata hheader
    dsimp only at hdata hheader
    rw [hdata, hheader]
  rw [hfile]
  exact ⟨c, hc, h⟩

end Safety

/-- An object between two edits of a session that started from `v`. -/
structure Session (K : Crypto D) (metaData : MetaData) (X : View D) (v c : List UInt8) (p : Nat)
    (sfd : Sfd D) (f : RawFile D) : Prop where
  kept : Kept K X c sfd f
  inside : p ≤ c.length
  holds : ∃ m, Holds K metaData.fileId c f m
  meta_eq : sfd.metaData = metaData
  no_need : sfd.needUpdateHmac = false
  backup : ∃ g m, X.fs.files metaData.curBackupFileId = some g ∧ Holds K metaData.fileId v g m

section Edits

variable {v : List UInt8}

theorem Session.safe (h : Session K metaData X v c p sfd f) (hv : v ∈ vs)
    (hg : Harmless K metaData.fileId vs g) : Safe K metaData vs (X.files g) := by
  obtain ⟨b, n, hb, hn⟩ := h.backup
  have hname : X.name = metaData.curEncryptedFileId := by
    rw [← h.meta_eq]
    exact h.kept.name_eq.symm
  have hne : metaData.curBackupFileId ≠ X.name := by
    rw [hname]
    exact metaData.names_ne.symm
  refine safe_of_harmless ?_ ?_ hg (hn.harmless hv) (.inr ⟨n, hn.toIntact⟩)
  · rw [← hname]
    exact X.files_name g
  · rw [X.files_of_ne hne]
    exact hb

theorem Session.caches (h : Session K metaData X v c p sfd f) (sid pos n : Nat) :
    Session K metaData X v c p (sfd.standing sid pos n) f :=
  { h with kept := h.kept.caches _ _ _ _ _ }

variable {bad : RawFile D → Prop} {Q : Post D Unit}

/-- An update that leaves a content is sealed, and every file on the way is harmless. -/
theorem Session.wp_seal (C : CollisionFree K) (h : Session K metaData X v c p sfd f) (hv : v ∈ vs)
    (hc : c ∈ vs) {q : Nat} (hu : Updated K X c' sfd f sfd' f') (hne : c' ≠ []) (hc' : c' ∈ vs)
    (hq : q ≤ c'.length)
    (hQ : ∀ sfd'' f'', Session K metaData X v c' q sfd'' f'' → Q (.ok (), sfd'') (X.seek f'' q)) :
    wp (agent bad) (fun s => Safe K metaData vs s.files) (updateMac K sfd') Q (X.seek f' q) := by
  obtain ⟨m, hm⟩ := h.holds
  have hmeta := hu.meta_eq.trans h.meta_eq
  obtain ⟨m', hm'⟩ := hu.kept.holds hne
  rw [hmeta] at hm'
  have hold : Harmless K metaData.fileId vs f' := by
    rcases hu.header_eq with he | he
    · have hf' : f' = { f with data := f'.data } := by rw [← he]
      rw [hf']
      exact hm.harmless_data C hc _
    · have hf' : f' = { clearMac f with data := f'.data } := by
        dsimp only
        rw [← he]
      rw [hf']
      exact (broken_clearMac _ f _).harmless
  refine wp_updateMac hu.kept hu.need_hmac (h.safe hv hold) (h.safe hv (hu.harmless_mac C hm hc))
    (h.safe hv (hm'.harmless hc')) (hQ _ _ ?_)
  have hk := (hu.kept.seal true).caches sfd'.startBlockId sfd'.seekPosition sfd'.size true false
  exact ⟨hk, hq, ⟨m', hm'⟩, hmeta, rfl, h.backup⟩

variable [DecidableEq D]

/-- An edit with its MAC, as the message handlers do it. -/
def Edit.run (K : Crypto D) : Edit → SsaM D Unit
  | .write content => do
    let _ ← ssaWrite K content
    updateMac K
  | .truncate len => do
    ssaTruncate K len
    updateMac K

/-- A session up to its close; it ends early when an edit is refused. -/
def session (K : Crypto D) : List Edit → SsaM D Unit
  | [] => ssaClose
  | e :: es => do
    e.run K
    session K es

theorem versions_head (es : List Edit) (x : List UInt8 × Nat) : x.1 ∈ versions es x := by
  cases es with
  | nil => exact mem_singleton_self _
  | cons e es => exact mem_cons_self

variable (h : Session K metaData X v c p sfd f)
include h

theorem Session.wp_write (C : CollisionFree K) (hw : X.writable = true) (hv : v ∈ vs) (hc : c ∈ vs)
    {d : List UInt8} (hd : d.length ≤ int32Max) (hne : overlay c p d ≠ [])
    (hc' : overlay c p d ∈ vs) (hE : ∀ e sfd' t, Q (.error e, sfd') t)
    (hQ : ∀ sfd' f', Session K metaData X v (overlay c p d) (p + d.length) sfd' f' →
      Q (.ok (), sfd') (X.seek f' ((p + d.length)))) :
    wp (agent bad) (fun s => Safe K metaData vs s.files) ((write d).run K sfd) Q
      (X.seek f p) := by
  obtain ⟨m, hm⟩ := h.holds
  have hsafe := h.safe hv (hm.harmless hc)
  have hlen := h.kept.length_le
  have hin := h.inside
  unfold Edit.run
  rw [wp_seq]
  by_cases hnil : d = []
  · subst hnil
    refine wp_ssaWriteWith_nil ?_
    rw [overlay_nil c h.inside] at hQ
    exact wp_updateMac_skip h.no_need (hQ sfd f h)
  · rcases Nat.lt_or_ge (maxFileSize + sfd.attrSize) (p + d.length) with hbig | hfit
    · refine wp_ssaWriteWith_overflow h.kept.toRep hnil ?_ hbig hsafe (hE _ _ _)
      simp only [maxFileSize, int32Max] at *
      omega
    · refine wp_ssaWrite_kept h.kept hw h.inside hnil hfit hsafe
        (fun data => h.safe hv (broken_clearMac _ f data).harmless) ?_
      intro sfd' f' hu _ _
      exact h.wp_seal C hv hc hu hne hc' (by rw [length_overlay]; omega) hQ

theorem Session.wp_truncate (C : CollisionFree K) (hv : v ∈ vs) (hc : c ∈ vs) {len : Nat}
    (hlt : len < 4294967296) (hne : ((truncate len).apply (c, p)).1 ≠ [])
    (hc' : ((truncate len).apply (c, p)).1 ∈ vs) (hE : ∀ e sfd' t, Q (.error e, sfd') t)
    (hQ : ∀ sfd' f', Session K metaData X v ((truncate len).apply (c, p)).1 p sfd' f' →
      Q (.ok (), sfd') (X.seek f' p)) :
    wp (agent bad) (fun s => Safe K metaData vs s.files) ((truncate len).run K sfd) Q
      (X.seek f p) := by
  obtain ⟨m, hm⟩ := h.holds
  simp only [apply] at hne hc' hQ
  unfold Edit.run
  rw [wp_seq]
  refine wp_ssaTruncate_kept h.kept h.inside hlt (fun data => h.safe hv (hm.harmless_data C hc data))
    (fun data => h.safe hv (broken_clearMac _ f data).harmless) ?_ ?_ ?_
  · intro _ _ e sfd' g q _
    exact hE _ _ _
  · intro heq
    rw [if_pos heq] at hQ
    exact wp_updateMac_skip h.no_need (hQ _ _ (h.caches _ _ _))
  · intro hdiff _ sfd' f' hu _ _
    rw [if_neg hdiff] at hne hc' hQ
    exact h.wp_seal C hv hc hu hne hc' (by rw [length_cutTo]; omega) hQ

variable (hv : v ∈ vs) (hbad : ∀ g, bad g → Broken K metaData.fileId g)
include hv hbad

omit [DecidableEq D] in
theorem Session.wp_close (hc : c ∈ vs) {pos : Nat} :
    wp (agent bad) (fun s => Safe K metaData vs s.files) (ssaClose sfd) (fun _ _ => True)
      (X.state f pos) := by
  obtain ⟨m, hm⟩ := h.holds
  have hname : metaData.curEncryptedFileId = X.name := by
    rw [← h.meta_eq]
    exact h.kept.name_eq
  have horig : ∀ g : RawFile D, Function.update (X.files f) metaData.curBackupFileId (some g)
      metaData.curEncryptedFileId = some f := by
    intro g
    rw [update_of_ne metaData.names_ne, hname]
    exact X.files_name f
  refine wp_ssaClose h.kept.nfd_eq h.kept.name_eq (h.safe hv (hm.harmless hc)) ?_ ?_ trivial
  · intro _ g hg
    rw [h.meta_eq]
    exact safe_of_harmless (horig g) (update_self _ _ _) (hm.harmless hc)
      (hbad g hg).harmless (.inl ⟨m, hm.toIntact⟩)
  · intro _
    rw [h.meta_eq]
    exact safe_of_harmless (horig f) (update_self _ _ _) (hm.harmless hc)
      (hm.harmless hc) (.inl ⟨m, hm.toIntact⟩)

/-- Every storage on the way through a session is safe. -/
theorem Session.wp_session (C : CollisionFree K) (hw : X.writable = true) {es : List Edit}
    (hes : ∀ e ∈ es, e.Valid) (hvs : ∀ c' ∈ versions es (c, p), c' ∈ vs ∧ c' ≠ []) :
    wp (agent bad) (fun s => Safe K metaData vs s.files) (session K es sfd) (fun _ _ => True)
      (X.seek f p) := by
  induction es generalizing c p sfd f with
  | nil => exact h.wp_close hv hbad (hvs c (mem_singleton_self _)).1
  | cons e es ih =>
    have hc := (hvs c mem_cons_self).1
    have hnext : ∀ c' ∈ versions es (e.apply (c, p)), c' ∈ vs ∧ c' ≠ [] :=
      fun c' hc' => hvs c' (mem_cons_of_mem _ hc')
    have hafter := hnext _ (versions_head es _)
    have hrest := fun e' he' => hes e' (mem_cons_of_mem _ he')
    have hthis := hes e mem_cons_self
    unfold session
    rw [wp_seq]
    cases e with
    | write d =>
      exact h.wp_write C hw hv hc hthis hafter.2 hafter.1 (fun _ _ _ => trivial)
        fun sfd' f' h' => ih h' hrest hnext
    | truncate len =>
      exact h.wp_truncate C hv hc hthis hafter.2 hafter.1 (fun _ _ _ => trivial)
        fun sfd' f' h' => ih h' hrest hnext

end Edits

section Recovery

variable [DecidableEq D]

/-- Every later open of the object succeeds with one of the versions. -/
def Recovers (K : Crypto D) (metaData : MetaData) (vs : List (List UInt8))
    (files : String → Option (RawFile D)) : Prop :=
  ∀ flag serr, ¬ (flag.accessRead = false ∧ flag.accessWrite = false) →
    let r := serve (ssaOpenHandle K flag serr) (ssaOpenInit K metaData flag) ⟨files, []⟩
    r.1.1 = .ok () ∧ ∃ c, c ∈ vs ∧ contentOf K r.1.2 r.2 = some c

theorem Safe.recovers (h : Safe K metaData vs files) : Recovers K metaData vs files := by
  intro flag serr ha
  rcases open_spec K metaData serr ⟨files, []⟩ ha with
    ⟨hret, f, m, files', fd, ho⟩ | ⟨-, hno, hnb⟩
  · obtain ⟨name, hname, hgood⟩ := ho.chosen.good
    obtain ⟨c, hc, hh⟩ := h.holds name hname f m hgood
    exact ⟨hret, c, hc, (ho.inUse hh (Nat.zero_le _)).reached.contentOf_eq⟩
  · obtain ⟨name, hname, f, m, hgood⟩ := h.some_good
    rcases hname with rfl | rfl
    · exact (hno f m hgood).elim
    · exact (hnb f m hgood).elim

/-- Original and backup both hold `v`. -/
structure Stable (K : Crypto D) (metaData : MetaData) (v : List UInt8)
    (files : String → Option (RawFile D)) : Prop where
  original : ∃ f m, files metaData.curEncryptedFileId = some f ∧ Holds K metaData.fileId v f m
  backup : ∃ f m, files metaData.curBackupFileId = some f ∧ Holds K metaData.fileId v f m

variable {v : List UInt8} {flag : DataFlags} {serr : TeeResult} {attrSize : Nat}

/-- An open for writing of a stable object starts a session on it. -/
theorem Stable.open (h : Stable K metaData v s.files) (serr : TeeResult) (hw : flag.accessWrite = true)
    (hattr : attrSize ≤ maxFileSize) :
    let r := serve (ssaOpenHandle K flag serr) (ssaOpenInit K metaData flag) s
    r.1.1 = .ok () ∧ ∃ X f, X.writable = true ∧
      Session K metaData X v v 0 (r.1.2.withAttr attrSize) f ∧
      r.2 = X.seek f 0 := by
  obtain ⟨f, m, hf, hm⟩ := h.original
  obtain ⟨g, n, hg, hn⟩ := h.backup
  have ha : ¬ flag.NoAccess := fun hno => Bool.false_ne_true (hno.2.symm.trans hw)
  have hsize : storedSize g n = storedSize f m := hn.loadedSize_eq.trans hm.loadedSize_eq.symm
  rcases open_spec K metaData serr s ha with
    ⟨hret, f', m', files, fd, ho⟩ | ⟨-, hno, -⟩
  · obtain ⟨rfl, rfl, rfl⟩ : f' = f ∧ m' = m ∧ files = s.files := by
      cases ho.chosen with
      | original _ hb => exact (hb g n ⟨hg, hn.toIntact⟩).elim
      | backup hno _ => exact (hno f m ⟨hf, hm.toIntact⟩).elim
      | agree ho' _ _ =>
        obtain ⟨rfl, rfl⟩ := GoodFile.unique ⟨hf, hm.toIntact⟩ ho'
        exact ⟨rfl, rfl, rfl⟩
      | differ ho' hb' hs =>
        obtain ⟨rfl, rfl⟩ := GoodFile.unique ⟨hf, hm.toIntact⟩ ho'
        obtain ⟨rfl, rfl⟩ := GoodFile.unique ⟨hg, hn.toIntact⟩ hb'
        exact (hs hsize).elim
    refine ⟨hret, _, f', hw, ⟨ho.kept hm hattr, Nat.zero_le _, ⟨m', hm⟩, ?_, ?_, g, n, hg, hn⟩,
      ho.state_view⟩
    · rw [ho.sfd_eq]
      rfl
    · rw [ho.sfd_eq]
      rfl
  · exact (hno f m ⟨hf, hm.toIntact⟩).elim

theorem sample_stable {c : List UInt8} (hc : c ≠ []) (hlen : c.length ≤ 2*maxFileSize) :
    ∃ s : Fs Nat, Stable Crypto.numbering sampleMeta c s.files := by
  have hk : Kept numbering sampleView c (sampleSfd c) (sampleFile c) :=
    ⟨sample_rep hlen, sampleBlocks_length c⟩
  obtain ⟨m, hm⟩ := hk.holds hc
  exact ⟨⟨fun _ => some (sealFile numbering (sampleSfd c) (sampleFile c)), []⟩,
    ⟨_, m, rfl, hm⟩, ⟨_, m, rfl, hm⟩⟩

/-- A session that ends with an empty object leaves two empty files. -/
theorem Session.emptied {bad : RawFile D → Prop} (h : Session K metaData X v c 0 sfd f)
    (hw : X.writable = true) :
    wp (agent bad) anyFiles (session K [.truncate 0] sfd) (fun _ t =>
      NoGoodFile K metaData.fileId t.files metaData.curEncryptedFileId ∧
      NoGoodFile K metaData.fileId t.files metaData.curBackupFileId)
      (X.seek f 0) := by
  obtain ⟨m, hm⟩ := h.holds
  have hpos := length_pos_iff.mpr hm.content_ne_nil
  have hname : metaData.curEncryptedFileId = X.name := by
    rw [← h.meta_eq]
    exact h.kept.name_eq
  unfold session Edit.run
  rw [wp_seq, wp_seq]
  refine wp_ssaTruncate_kept h.kept (Nat.zero_le _) (by decide)
    (fun _ => trivial) (fun _ => trivial) ?_ ?_ ?_
  · rintro - (hno | hno | hno)
    · exact absurd (hno.1.symm.trans hw) Bool.false_ne_true
    · omega
    · omega
  · omega
  · intro _ _ sfd' f' hu _ _
    have hmeta := hu.meta_eq.trans h.meta_eq
    have hempty : (sealFile K sfd' f').data.length = 0 := by
      have hdata := hu.kept.legible.data_length
      unfold cutTo at hdata
      rw [length_resize] at hdata
      exact hdata
    have hno : ∀ m, ¬ Intact K metaData.fileId (sealFile K sfd' f') m :=
      fun m hi => hi.nonempty hempty
    refine wp_updateMac hu.kept hu.need_hmac trivial trivial trivial ?_
    have hk := (hu.kept.seal true).caches sfd'.startBlockId sfd'.seekPosition sfd'.size true false
    refine wp_ssaClose hk.nfd_eq hk.name_eq trivial (fun _ _ _ => trivial) (fun _ => trivial) ?_
    rw [if_pos rfl]
    dsimp only
    rw [hmeta]
    constructor
    · rintro g n ⟨hg, hi⟩
      rw [update_of_ne metaData.names_ne, hname, X.files_name, some.injEq] at hg
      exact hno n (hg ▸ hi)
    · rintro g n ⟨hg, hi⟩
      rw [update_self, some.injEq] at hg
      exact hno n (hg ▸ hi)

/-- After a session that empties the object the next open fails, so nothing is recovered. -/
theorem Stable.emptied_lost (h : Stable K metaData v s.files) (bad : RawFile D → Prop)
    (serr : TeeResult) (hw : flag.accessWrite = true) (hattr : attrSize ≤ maxFileSize) :
    let r := serve (ssaOpenHandle K flag serr) (ssaOpenInit K metaData flag) s
    ∃ t, Cut (agent bad) (session K [.truncate 0] (r.1.2.withAttr attrSize)) r.2 t ∧
      (serve (ssaOpenHandle K flag serr) (ssaOpenInit K metaData flag) ⟨t.files, []⟩).1.1 ≠ .ok () := by
  obtain ⟨-, X, f, hX, hs, hstate⟩ := h.open serr hw hattr
  have ha : ¬ flag.NoAccess := fun hno => Bool.false_ne_true (hno.2.symm.trans hw)
  have hend := run_of_wp (show wp (agent bad) _ _ _ _ from hs.emptied hX)
  refine ⟨_, cut_run _ _, ?_⟩
  rw [hstate]
  rcases open_spec K metaData serr ⟨_, []⟩ ha with
    ⟨-, f', m', files, fd, ho⟩ | ⟨hret, -, -⟩
  · obtain ⟨name, rfl | rfl, hgood⟩ := ho.chosen.good
    · exact (hend.1 _ _ hgood).elim
    · exact (hend.2 _ _ hgood).elim
  · exact hret

end Recovery

end TeeOs.Ssa
