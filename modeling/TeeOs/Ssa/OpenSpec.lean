import TeeOs.Ssa.Integrity

/-!
# What opening an object does

`Chosen` is the abstract rule of `ssa_open`: the intact one of the two files is
taken and copied over the other, and when both are intact but of different
size the backup wins. `ssa_open_handle` follows the rule, and fails only when
neither file is intact.
-/

namespace TeeOs.Ssa

open Lib.Calls Lib.Bytes Proc Function Fs Option

variable {D : Type}

/-- The file under a name, if it is intact. -/
def GoodFile (K : Crypto D) (fileId : String) (files : String → Option (RawFile D)) (name : String)
    (f : RawFile D) (m : MetaStorage D) : Prop :=
  files name = some f ∧ Intact K fileId f m

/-- Neither missing nor broken is told apart: no intact file has this name. -/
def NoGoodFile (K : Crypto D) (fileId : String) (files : String → Option (RawFile D))
    (name : String) : Prop :=
  ∀ f m, ¬ GoodFile K fileId files name f m

/-- The size that an open compares. -/
def storedSize (f : RawFile D) (m : MetaStorage D) : Nat :=
  loadedSize m.hdr.lastBlockRealsize f.data.length

/-- The file an open takes for the object, and the files it leaves behind. -/
inductive Chosen (K : Crypto D) (metaData : MetaData) (files : String → Option (RawFile D)) :
    RawFile D → MetaStorage D → (String → Option (RawFile D)) → Prop
  | original {f : RawFile D} {m : MetaStorage D}
      (ho : GoodFile K metaData.fileId files metaData.curEncryptedFileId f m)
      (hb : NoGoodFile K metaData.fileId files metaData.curBackupFileId) :
      Chosen K metaData files f m (update files metaData.curBackupFileId (some f))
  | backup {f : RawFile D} {m : MetaStorage D}
      (ho : NoGoodFile K metaData.fileId files metaData.curEncryptedFileId)
      (hb : GoodFile K metaData.fileId files metaData.curBackupFileId f m) :
      Chosen K metaData files f m (update files metaData.curEncryptedFileId (some f))
  | agree {f g : RawFile D} {m n : MetaStorage D}
      (ho : GoodFile K metaData.fileId files metaData.curEncryptedFileId f m)
      (hb : GoodFile K metaData.fileId files metaData.curBackupFileId g n)
      (hs : storedSize g n = storedSize f m) : Chosen K metaData files f m files
  | differ {f g : RawFile D} {m n : MetaStorage D}
      (ho : GoodFile K metaData.fileId files metaData.curEncryptedFileId f m)
      (hb : GoodFile K metaData.fileId files metaData.curBackupFileId g n)
      (hs : storedSize g n ≠ storedSize f m) :
      Chosen K metaData files g n (update files metaData.curEncryptedFileId (some g))

/-- The view of a descriptor `fd` opened on top of the storage. -/
def Fs.openAs (s : Fs D) (fd : Nat) (name : String) (writable : Bool) : View D where
  fs := { s with opened := (fd, ⟨name, 0, writable⟩) :: s.opened }
  name := name
  fd := fd
  writable := writable
  isOpen := by simp [lookupFd]

/-- The storage with one more descriptor, at `pos`. -/
def Fs.push (s : Fs D) (fd : Nat) (name : String) (writable : Bool) (pos : Nat) : Fs D :=
  { s with opened := (fd, ⟨name, pos, writable⟩) :: s.opened }

variable {bad : RawFile D → Prop} {J : Files D → Prop} {K : Crypto D} {sfd : Sfd D} {s : Fs D}
  {name fileId : String} {flag : DataFlags} {f g : RawFile D} {m n : MetaStorage D}
  {Q : Post D Unit} {fd q : Nat} {w : Bool}

section Descriptors

theorem lookupFd_of_fresh {l : List (Nat × OpenFile)} {d : Nat} (h : freshFd l ≤ d) :
    lookupFd d l = none := by
  induction l with
  | nil => rfl
  | cons e l ih =>
    obtain ⟨a, o⟩ := e
    simp only [freshFd, Nat.max_le] at h
    simp only [lookupFd, if_neg (show ¬ a = d by omega)]
    exact ih h.2

theorem Fs.openAs_state (s : Fs D) (fd : Nat) (w : Bool) (pos : Nat) (hf : s.files name = some f) :
    (s.openAs fd name w).state f pos = s.push fd name w pos := by
  simp only [openAs, push, View.state, View.files, replaceFd, if_true]
  rw [← hf, update_eq_self]

theorem Fs.push_isOpen (s : Fs D) (fd : Nat) (name : String) (w : Bool) (pos : Nat) :
    (lookupFd fd (s.push fd name w pos).opened).isSome := by
  simp only [push, lookupFd, if_true, isSome_some]

theorem Fs.freshFd_push (s : Fs D) (w : Bool) (pos : Nat) :
    freshFd s.opened < freshFd (s.push (freshFd s.opened) name w pos).opened := by
  simp only [push, freshFd]
  omega

theorem Fs.removeFd_push (s : Fs D) (fd : Nat) (w : Bool) (pos : Nat) :
    removeFd fd (s.push fd name w pos).opened = s.opened := by
  simp only [push, removeFd, if_true]

end Descriptors

section Calls

variable {failed : Errno → TeeResult}

theorem wp_ssaFsFclose (ho : (lookupFd fd s.opened).isSome) (hJ : J s.files)
    (hQ : Q (.ok (), sfd) { s with opened := removeFd fd s.opened }) :
    wp (agent bad) J (ssaFsFclose failed fd sfd) Q s := by
  obtain ⟨o, ho⟩ := isSome_iff_exists.mp ho
  refine wp_callOr_of_step rfl ?_ (by exact hJ) hQ
  change fclose s fd = _
  simp only [fclose, ho]
  rfl

/-- Closing a descriptor that is not open fails and changes nothing. -/
theorem wp_ssaFsFclose_stale (ho : lookupFd fd s.opened = none) (hJ : J s.files)
    (hQ : Q (.error (failed .ebadf), sfd) s) :
    wp (agent bad) J (ssaFsFclose failed fd sfd) Q s := by
  refine wp_callOr_error_of_step rfl ?_ hJ hQ
  change fclose s fd = _
  simp only [fclose, ho]
  rfl

/-- A call that a cut may tear. -/
theorem wp_callOr_torn {c : Call D} {g : Errno → TeeResult} {s' : Fs D} {v : c.Ret}
    {Q : Post D c.Ret}
    (ht : ∀ t, (agent bad).torn c s t → J t.files) (hs : step c s = (.ok v, s'))
    (hJ : J s'.files) (hQ : Q (.ok v, sfd) s') :
    wp (agent bad) J (callOr c g sfd) Q s := by
  have h1 : ((agent bad).step c s).1 = .ok v := congrArg Prod.fst hs
  have h2 : ((agent bad).step c s).2 = s' := congrArg Prod.snd hs
  unfold callOr
  rw [wp_ask_bind, h1, h2]
  exact ⟨ht, hJ, hQ⟩

theorem wp_ssaFsFcopy {fromPath toPath : String} (hf : s.files fromPath = some f)
    (ht : ∀ g, bad g → J (update s.files toPath (some g)))
    (hJ : J (update s.files toPath (some f)))
    (hQ : Q (.ok (), sfd) (s.writeFile toPath f)) :
    wp (agent bad) J (ssaFsFcopy failed fromPath toPath sfd) Q s := by
  refine wp_callOr_torn ?_ ?_ hJ hQ
  · rintro t ⟨g, hg, rfl⟩
    exact ht g hg
  · change fcopy s fromPath toPath = _
    simp only [fcopy, hf]
    rfl

variable {Q : Post D Nat}

theorem wp_ssaFsFopen_new (ha : ¬ flag.NoAccess) (hf : s.files name = some f) (hJ : J s.files)
    (hQ : Q (.ok (freshFd s.opened), sfd) (s.push (freshFd s.opened) name flag.accessWrite 0)) :
    wp (agent bad) J (ssaFsFopen failed name flag sfd) Q s := by
  refine wp_callOr_of_step rfl ?_ (by exact hJ) hQ
  change fopen s name flag = _
  unfold fopen
  rw [if_neg ha, if_neg (by simp [hf])]
  rfl

theorem wp_ssaFsFopen_missing (ha : ¬ flag.NoAccess) (hf : s.files name = none)
    (hJ : J s.files) (hQ : Q (.error (failed .enoent), sfd) s) :
    wp (agent bad) J (ssaFsFopen failed name flag sfd) Q s := by
  refine wp_callOr_error_of_step rfl ?_ hJ hQ
  change fopen s name flag = _
  unfold fopen
  rw [if_neg ha, if_pos (by simp [hf])]
  rfl

theorem wp_ssaFsFcreate (ha : ¬ flag.NoAccess)
    (hJ : J (update s.files name (some ⟨none, []⟩)))
    (hQ : Q (.ok (freshFd s.opened), sfd)
      ((s.writeFile name ⟨none, []⟩).push (freshFd s.opened) name true 0)) :
    wp (agent bad) J (ssaFsFcreate failed name flag sfd) Q s := by
  refine wp_callOr_of_step rfl ?_ hJ hQ
  change fcreate s name flag = _
  unfold fcreate
  rw [if_neg ha]
  rfl

theorem wp_ssaFsFcreate_refused
    (ha : flag.accessRead = false ∧ flag.accessWrite = false) (hJ : J s.files)
    (hQ : Q (.error (failed .einval), sfd) s) :
    wp (agent bad) J (ssaFsFcreate failed name flag sfd) Q s := by
  refine wp_callOr_error_of_step rfl ?_ hJ hQ
  change fcreate s name flag = _
  unfold fcreate
  rw [if_pos ha]
  rfl

end Calls

section Close

variable {X : View D}

/-- `ssa_close` copies the file to the backup when an update waits for that. -/
theorem wp_ssaClose {pos : Nat} (hfd : sfd.nfd = X.fd)
    (hn : sfd.metaData.curEncryptedFileId = X.name) (hJ : J (X.files f))
    (ht : sfd.updateBackup = true → ∀ g, bad g →
      J (update (X.files f) sfd.metaData.curBackupFileId (some g)))
    (hJ' : sfd.updateBackup = true →
      J (update (X.files f) sfd.metaData.curBackupFileId (some f)))
    (hQ : Q (.ok (), sfd) ⟨if sfd.updateBackup then
        update (X.files f) sfd.metaData.curBackupFileId (some f) else X.files f,
      removeFd X.fd X.fs.opened⟩) :
    wp (agent bad) J (ssaClose sfd) Q (X.state f pos) := by
  have hclosed : ({ X.state f pos with opened := removeFd X.fd (X.state f pos).opened } : Fs D) =
      ⟨X.files f, removeFd X.fd X.fs.opened⟩ := by
    simp only [View.state, removeFd_replaceFd]
  unfold ssaClose
  rw [wp_get_bind, wp_seq, hfd]
  refine wp_ignore (wp_ssaFsFclose (by rw [View.lookupFd_state]; rfl) hJ ?_)
  rw [hclosed, next_ok]
  cases hu : sfd.updateBackup with
  | false =>
    rw [hu, if_neg Bool.false_ne_true] at hQ
    exact hQ
  | true =>
    rw [hu, if_pos rfl] at hQ
    refine wp_ignore (wp_ssaFsFcopy ?_ (ht hu) (hJ' hu) hQ)
    rw [hn]
    exact X.files_name f

end Close

section Check

variable {files : Files D} {Q : Post D OpenState} {serr : TeeResult} {back orig : OpenInfo}

theorem GoodFile.unique (h : GoodFile K fileId files name f m)
    (h' : GoodFile K fileId files name g n) : g = f ∧ n = m := by
  have hg : g = f := mem_unique h'.1 h.1
  subst hg
  exact ⟨rfl, mem_unique h'.2.header_eq h.2.header_eq⟩

/-- Only the original is intact: it is copied to the backup. -/
theorem wp_ssaOpenHandleOrig (sfd : Sfd D) (hf : s.files sfd.metaData.curEncryptedFileId = some f)
    (hQ : Q (.ok ⟨.success, orig, back⟩, sfd) (s.writeFile sfd.metaData.curBackupFileId f)) :
    wp (agent bad) anyFiles (ssaOpenHandleOrig orig back sfd) Q s := by
  unfold ssaOpenHandleOrig
  rw [wp_get_bind, wp_attempt_bind]
  exact wp_ssaFsFcopy hf (fun _ _ => trivial) trivial hQ

theorem GoodFile.write {b : String} (h : GoodFile K fileId files b f m) (name : String) :
    GoodFile K fileId (update files name (some f)) name f m :=
  ⟨update_self _ _ _, h.2⟩

variable [DecidableEq D]

variable (ha : ¬ flag.NoAccess)
include ha

variable (hl : sfd.Listed)
include hl

/-- The check of one file: missing, broken or intact. -/
theorem wp_ssaOpenCheck {Q : Post D OpenInfo}
    (hno : NoGoodFile K sfd.metaData.fileId s.files name → ∀ ret fileFd size serr sfd',
      ret ≠ .success → (fileFd = none ∨ fileFd = some (freshFd s.opened)) →
      (sfd' = sfd ∨ Disturbed { sfd with nfd := freshFd s.opened } sfd') →
      Q (.ok ⟨ret, size, fileFd, serr⟩, sfd') s)
    (hok : ∀ f m, GoodFile K sfd.metaData.fileId s.files name f m →
      Q (.ok ⟨.success, storedSize f m, some (freshFd s.opened), none⟩,
          loaded K { sfd with nfd := freshFd s.opened } m f.data)
        (s.push (freshFd s.opened) name flag.accessWrite (sfsMetadataSize + f.data.length))) :
    wp (agent bad) anyFiles (ssaOpenCheck K name flag sfd) Q s := by
  unfold ssaOpenCheck
  rw [wp_attempt_bind]
  cases hf : s.files name with
  | none =>
    refine wp_ssaFsFopen_missing ha hf trivial ?_
    refine hno (fun f m hg => ?_) _ _ _ _ _ (by decide) (Or.inl rfl) (Or.inl rfl)
    rw [hg.1] at hf
    cases hf
  | some f =>
    refine wp_ssaFsFopen_new ha hf trivial ?_
    rw [wp_modify_bind, wp_attempt_bind, ← s.openAs_state _ _ _ hf]
    refine wp_checkIntegrityV2 rfl hl trivial ?_ ?_
    · intro m hi
      rw [View.seek, s.openAs_state _ _ _ hf]
      exact hok f m ⟨hf, hi⟩
    · intro hbad e sfd' q hd
      rw [s.openAs_state _ _ _ hf]
      rw [wp_attempt_bind]
      refine wp_ssaFsFclose (s.push_isOpen _ _ _ _) trivial ?_
      rw [removeFd_push]
      refine hno (fun g m hg => ?_) _ _ _ _ _ (show TeeResult.corruptObject ≠ .success by decide)
        (Or.inr rfl) (Or.inr hd)
      rw [hg.1, some.injEq] at hf
      exact hbad ⟨m, hf ▸ hg.2⟩

theorem wp_recheckOrig
    (hg : GoodFile K sfd.metaData.fileId s.files sfd.metaData.curEncryptedFileId f m)
    (hQ : ∀ orig, Q (.ok ⟨.success, orig, back⟩, loaded K { sfd with nfd := freshFd s.opened } m f.data)
      (s.push (freshFd s.opened) sfd.metaData.curEncryptedFileId flag.accessWrite
        (sfsMetadataSize + f.data.length))) :
    wp (agent bad) anyFiles (recheckOrig K flag serr back sfd) Q s := by
  unfold recheckOrig
  rw [wp_get_bind, wp_seq]
  refine wp_ssaOpenCheck ha hl (fun hno => (hno f m hg).elim) fun g n hg' => ?_
  obtain ⟨rfl, rfl⟩ := hg.unique hg'
  exact hQ _

variable {fo fb po pb : Nat} {wo wb : Bool}
  (hg : GoodFile K sfd.metaData.fileId s.files sfd.metaData.curBackupFileId f m)
include hg

/-- Only the backup is intact: it is copied over the original, which is then checked again. -/
theorem wp_ssaOpenHandleBack (hfd : back.fileFd = some fd)
    (hQ : ∀ orig back, Q (.ok ⟨.success, orig, back⟩,
        loaded K { sfd with nfd := freshFd s.opened } m f.data)
      ((s.writeFile sfd.metaData.curEncryptedFileId f).push (freshFd s.opened)
        sfd.metaData.curEncryptedFileId flag.accessWrite (sfsMetadataSize + f.data.length))) :
    wp (agent bad) anyFiles (ssaOpenHandleBack K flag serr orig back sfd) Q
      (s.push fd sfd.metaData.curBackupFileId w q) := by
  unfold ssaOpenHandleBack closeInfo
  rw [wp_get_bind, wp_attempt_bind]
  refine wp_ssaFsFcopy hg.1 (fun _ _ => trivial) trivial ?_
  rw [hfd, wp_attempt_bind]
  refine wp_ssaFsFclose (by simp [push, writeFile, lookupFd]) trivial ?_
  simp only [push, writeFile, removeFd, if_true]
  exact wp_recheckOrig ha hl (hg.write _) fun orig => hQ orig _

/-- Both are intact: at different sizes the backup is copied over the original. -/
theorem wp_handleOrigBack (hfo : orig.fileFd = some fo) (hfb : back.fileFd = some fb)
    (hfd : fo ≠ fb)
    (hsame : back.size = orig.size → ∀ orig back, Q (.ok ⟨.success, orig, back⟩, sfd)
      (s.push fo sfd.metaData.curEncryptedFileId wo po))
    (hdiff : back.size ≠ orig.size → ∀ orig back, Q (.ok ⟨.success, orig, back⟩,
        loaded K { sfd with nfd := freshFd s.opened } m f.data)
      ((s.writeFile sfd.metaData.curEncryptedFileId f).push (freshFd s.opened)
        sfd.metaData.curEncryptedFileId flag.accessWrite (sfsMetadataSize + f.data.length))) :
    wp (agent bad) anyFiles (handleOrigBack K flag serr orig back sfd) Q
      ((s.push fb sfd.metaData.curBackupFileId wb pb).push fo
        sfd.metaData.curEncryptedFileId wo po) := by
  unfold handleOrigBack closeInfo
  rw [wp_get_bind, hfb, wp_attempt_bind]
  refine wp_ssaFsFclose (by simp [push, lookupFd, hfd]) trivial ?_
  simp only [push, removeFd, if_neg hfd, if_true]
  by_cases hs : back.size = orig.size
  · rw [if_neg (by simpa using hs), wp_pure]
    exact hsame hs _ _
  · rw [if_pos hs, hfo, wp_attempt_bind]
    refine wp_ssaFsFclose (s.push_isOpen _ _ _ _) trivial ?_
    simp only [removeFd, if_true]
    rw [wp_attempt_bind]
    refine wp_ssaFsFcopy hg.1 (fun _ _ => trivial) trivial ?_
    exact wp_recheckOrig ha hl (hg.write _) fun orig => hdiff hs orig _

end Check

section Handle

variable {Q : Post D Unit} {serr : TeeResult}

theorem Intact.listed (h : Intact K fileId f m) (sfd : Sfd D) : (loaded K sfd m f.data).Listed := by
  refine ⟨numbered_blockList _, List.length_pos_iff.mp ?_⟩
  show 0 < (blockList K f.data).length
  rw [length_blockList]
  exact Nat.div_pos (Nat.le_of_dvd (Nat.pos_of_ne_zero h.nonempty)
    (Nat.dvd_of_mod_eq_zero h.aligned)) cryptBlockSize_pos

/-- Closing a descriptor again that a failed check has closed changes nothing. -/
theorem wp_closeInfo_stale {Q : Post D (Except TeeResult Unit)}
    {i : OpenInfo} (hi : i.fileFd = none ∨ i.fileFd = some (freshFd s.opened))
    (hQ : ∀ r, Q (.ok r, sfd) s) : wp (agent bad) anyFiles (closeInfo i sfd) Q s := by
  unfold closeInfo
  rcases hi with hi | hi
  · rw [hi]
    exact hQ _
  · rw [hi]
    rw [wp_attempt]
    exact wp_ssaFsFclose_stale (lookupFd_of_fresh (Nat.le_refl _)) trivial (hQ _)

theorem list_of_disturbed {sfd' : Sfd D} {n : Nat}
    (h : sfd' = sfd ∨ Disturbed { sfd with nfd := n } sfd') (hl : sfd.Listed) :
    sfd'.Listed ∧ sfd'.metaData = sfd.metaData ∧
      ∀ fd (m : MetaStorage D) data, loaded K { sfd' with nfd := fd } m data =
        loaded K { sfd with nfd := fd } m data := by
  rcases h with rfl | h
  · exact ⟨hl, rfl, fun _ _ _ => rfl⟩
  · obtain ⟨_, _, l, hids, hl, rfl⟩ := h
    exact ⟨⟨hids, hl⟩, rfl, fun _ _ _ => rfl⟩

/-- When both files are one intact file, an open takes it and leaves both. -/
theorem Chosen.of_same {metaData : MetaData} {files files' : Files D}
    (h : Chosen K metaData files g n files')
    (ho : GoodFile K metaData.fileId files metaData.curEncryptedFileId f m)
    (hb : GoodFile K metaData.fileId files metaData.curBackupFileId f m) :
    g = f ∧ n = m ∧ files' = files := by
  cases h with
  | original _ hb' => exact (hb' f m hb).elim
  | backup ho' _ => exact (ho' f m ho).elim
  | agree ho' _ _ => exact ⟨(ho.unique ho').1, (ho.unique ho').2, rfl⟩
  | differ ho' hb' hs =>
    obtain ⟨rfl, rfl⟩ := ho.unique ho'
    obtain ⟨rfl, rfl⟩ := hb.unique hb'
    exact (hs rfl).elim

variable [DecidableEq D] {st : OpenState}

theorem wp_ssaOpenEnd_ok (sfd : Sfd D) (hst : st.ret = .success) (hf : s.files name = some f)
    (hQ : Q (.ok (), sfd) (s.push sfd.nfd name w sfsMetadataSize)) :
    wp (agent bad) anyFiles (ssaOpenEnd K flag serr st sfd) Q (s.push sfd.nfd name w q) := by
  unfold ssaOpenEnd seekStart
  rw [wp_seq, wp_get_bind, if_neg (by simpa using hst), wp_attempt]
  rw [← s.openAs_state _ _ _ hf] at hQ ⊢
  exact wp_ssaFsFseek (X := s.openAs sfd.nfd name w) rfl trivial (by simp only [seekBase]; omega) hQ

/-- No file was intact: the open fails. -/
theorem wp_ssaOpenEnd_none (hst : st.ret ≠ .success) (hb : st.back.ret ≠ .success)
    (ho : st.orig.ret ≠ .success)
    (hfb : st.back.fileFd = none ∨ st.back.fileFd = some (freshFd s.opened))
    (hfo : st.orig.fileFd = none ∨ st.orig.fileFd = some (freshFd s.opened))
    (hQ : Q (.error st.ret, sfd) s) :
    wp (agent bad) anyFiles (ssaOpenEnd K flag serr st sfd) Q s := by
  unfold ssaOpenEnd seekStart
  rw [wp_seq, wp_get_bind, if_pos hst, wp_pure, next_ok]
  rw [wp_seq]
  refine wp_closeInfo_stale hfb fun _ => ?_
  rw [next_ok, wp_seq]
  refine wp_closeInfo_stale hfo fun _ => ?_
  rw [next_ok, if_neg (by rintro ⟨h | h, -⟩; exacts [hb h, ho h]), wp_throw]
  exact hQ

/-- `ssa_open_handle` follows the rule, on any storage. -/
theorem wp_ssaOpenHandle (ha : ¬ flag.NoAccess) (hl : sfd.Listed)
    (hfail : NoGoodFile K sfd.metaData.fileId s.files sfd.metaData.curEncryptedFileId →
      NoGoodFile K sfd.metaData.fileId s.files sfd.metaData.curBackupFileId →
      ∀ e sfd', Q (.error e, sfd') s)
    (hok : ∀ f m files fd, Chosen K sfd.metaData s.files f m files →
      lookupFd fd s.opened = none → Q (.ok (), loaded K { sfd with nfd := fd } m f.data)
        (push { s with files := files } fd sfd.metaData.curEncryptedFileId flag.accessWrite
          sfsMetadataSize)) :
    wp (agent bad) anyFiles (ssaOpenHandle K flag serr sfd) Q s := by
  have hnames := sfd.metaData.names_ne
  have hfresh := lookupFd_of_fresh (Nat.le_refl (freshFd s.opened))
  unfold ssaOpenHandle ssaOpenFiles
  rw [wp_seq, wp_get_bind, wp_seq]
  refine wp_ssaOpenCheck ha hl ?_ ?_
  · intro hnb rb fb sb eb sfd₁ hrb hfb hd₁
    obtain ⟨hlist₁, hm₁, hl₁⟩ := list_of_disturbed hd₁ hl
    rw [next_ok, wp_seq]
    refine wp_ssaOpenCheck ha hlist₁ ?_ ?_
    · intro hno ro fo so eo sfd₂ hro hfo hd₂
      rw [hm₁] at hno
      rw [next_ok]
      unfold ssaOpenChoose
      rw [if_pos ⟨hrb, hro⟩, wp_pure, next_ok]
      refine wp_ssaOpenEnd_none ?_ hrb hro hfb hfo (hfail hno hnb _ _)
      dsimp only
      split <;> decide
    · intro f m hg
      rw [hm₁] at hg
      rw [next_ok]
      unfold ssaOpenChoose
      rw [if_neg (fun h => h.2 rfl), if_pos hrb, hl₁]
      refine wp_ssaOpenHandleOrig (loaded K { sfd with nfd := freshFd s.opened } m f.data) hg.1 ?_
      refine wp_ssaOpenEnd_ok
        (loaded K { sfd with nfd := freshFd s.opened } m f.data) rfl (f := f) ?_
        (hok f m _ _ (.original hg hnb) hfresh)
      exact (update_of_ne hnames _ _).trans hg.1
  · intro g n hb
    have hlist := hb.2.listed { sfd with nfd := freshFd s.opened }
    rw [next_ok, wp_seq]
    refine wp_ssaOpenCheck ha hlist ?_ ?_
    · intro hno ro fo so eo sfd₂ hro _ hd₂
      obtain ⟨hlist₂, hm₂, hl₂⟩ := list_of_disturbed hd₂ hlist
      rw [next_ok]
      unfold ssaOpenChoose
      rw [if_neg (fun h => h.1 rfl), if_neg (fun h => h rfl), if_pos hro,
        show sfd.metaData = sfd₂.metaData from hm₂.symm]
      refine wp_ssaOpenHandleBack ha hlist₂ (by rw [hm₂]; exact hb) rfl fun orig back => ?_
      rw [next_ok, hl₂, hm₂]
      refine wp_ssaOpenEnd_ok (loaded K { sfd with nfd := freshFd s.opened } n g.data) rfl
        (update_self _ _ _) (hok g n _ _ (.backup hno hb) hfresh)
    · intro f m ho
      refine wp_handleOrigBack ha (ho.2.listed _) hb rfl rfl (s.freshFd_push _ _).ne' ?_ ?_
      · intro hs orig back
        rw [next_ok]
        refine wp_ssaOpenEnd_ok _ rfl ho.1 (hok f m _ _ (.agree ho hb hs) ?_)
        exact lookupFd_of_fresh (s.freshFd_push _ _).le
      · intro hs orig back
        rw [next_ok]
        exact wp_ssaOpenEnd_ok (loaded K { sfd with nfd := freshFd s.opened } n g.data) rfl
          (update_self _ _ _) (hok g n _ _ (.differ ho hb hs) hfresh)

end Handle

end TeeOs.Ssa
