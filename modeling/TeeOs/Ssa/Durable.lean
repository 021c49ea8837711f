import TeeOs.Lib.Runs
import TeeOs.Ssa.Crash
import TeeOs.Ssa.Object

/-!
# Durability of what was acknowledged

A handle takes messages until it is closed, and the object is opened again. The
content then is the one the last acknowledged message left, as long as no
message is refused while a change of the length waits for its backup: the abort
of a refused message also drops the copy that the close would have made.
-/

namespace TeeOs.Ssa

open Lib.Calls Lib.Bytes Lib.Runs Function TeeOs.Ssa.Crypto GoodFile

variable {D : Type}

/-- An open handle, the storage behind it, and the content after the last acknowledged message. -/
structure HandleState (D : Type) where
  sfd : Sfd D
  fs : Fs D
  seekPosition : Nat
  acked : Option (List UInt8)

/-- An intact backup has the length of `c`, so that an open takes the original. -/
def BackupAgrees (K : Crypto D) (metaData : MetaData) (files : String → Option (RawFile D))
    (c : List UInt8) : Prop :=
  c ≠ [] ∧ ∀ g n, GoodFile K metaData.fileId files metaData.curBackupFileId g n →
    storedSize g n = c.length

/-- No copy that the backup needs is outstanding. -/
def HandleState.NoneWaiting (K : Crypto D) (h : HandleState D) (c : List UInt8) : Prop :=
  h.sfd.updateBackup = true → BackupAgrees K h.sfd.metaData h.fs.files c

def HandleState.MayWrite (h : HandleState D) : Prop :=
  ∃ o, lookupFd h.sfd.nfd h.fs.opened = some o ∧ o.writable = true

/-- A message that does not endanger what was acknowledged, on content `c` at position `p`. -/
def Message.Sound (K : Crypto D) (h : HandleState D) (c : List UInt8) (p : Nat) : Message → Prop
  | .read n => p + n < 4294967296
  | .write content => WriteRefused h.sfd p content → h.NoneWaiting K c
  | .seek offset whence =>
    (∀ e, seekObjectGoal h.sfd.attrSize offset p c.length whence = .error e → h.NoneWaiting K c) ∧
    (∀ t, seekObjectGoal h.sfd.attrSize offset p c.length whence = .ok t → c.length < t →
      h.MayWrite)
  | .truncate size =>
    (size > maxFileSize → h.NoneWaiting K c) ∧
    (size ≤ maxFileSize → truncateLen h.sfd.attrSize size ≤ maxFileSize + h.sfd.attrSize ∧
      (truncateLen h.sfd.attrSize size ≠ c.length → h.MayWrite))

/-- What `ssa_file_process_abort` leaves of a descriptor. -/
def Sfd.aborted (sfd : Sfd D) : Sfd D := { sfd with needUpdateHmac := false, updateBackup := false }

section Step

variable [DecidableEq D]

/-- The handle after a message was answered. -/
def HandleState.after (K : Crypto D) (h : HandleState D)
    (r : Except TeeResult (Except TeeResult Reply) × Sfd D) (t : Fs D) : HandleState D :=
  match r.1 with
  | .ok (.ok reply) => ⟨r.2, t, reply.newSeekPos, contentOf K r.2 t⟩
  | _ => ⟨r.2, t, h.seekPosition, h.acked⟩

def HandleState.step (K : Crypto D) (h : HandleState D) (msg : Message) : HandleState D :=
  let r := serve (ssaCmdProc K h.seekPosition msg) h.sfd h.fs
  h.after K r.1 r.2

/-- The condition on a message in the state before it. -/
def HandleState.Heeded (K : Crypto D) (h : HandleState D) (msg : Message) : Prop :=
  ∀ c p, contentOf K h.sfd h.fs = some c → positionOf h.sfd h.fs = some p → msg.Sound K h c p

end Step

variable {K : Crypto D} {X : View D} {c c' : List UInt8} {p : Nat} {sfd : Sfd D} {s : Fs D}
  {f g : RawFile D} {m : MetaStorage D} {metaData : MetaData} {h : HandleState D}

/-- The acknowledged content is the one behind the handle. -/
structure Attached (K : Crypto D) (metaData : MetaData) (X : View D) (c : List UInt8) (p : Nat)
    (f : RawFile D) (h : HandleState D) : Prop where
  settled : Settled K X c p h.sfd f
  state_eq : h.fs = X.state f (sfsMetadataSize + p)
  acked_eq : h.acked = some c
  meta_eq : h.sfd.metaData = metaData

theorem Attached.name_eq (h' : Attached K metaData X c p f h) :
    metaData.curEncryptedFileId = X.name := by
  rw [← h'.meta_eq]
  exact h'.settled.kept.name_eq

/-- It would survive an open after the close. -/
structure Durable (K : Crypto D) (metaData : MetaData) (X : View D) (c : List UInt8) (p : Nat)
    (f : RawFile D) (h : HandleState D) : Prop extends Attached K metaData X c p f h where
  backup : h.sfd.updateBackup = false → BackupAgrees K metaData (X.files f) c

/-- Some content is durable behind the handle. -/
def SomeDurable (K : Crypto D) (metaData : MetaData) (h : HandleState D) : Prop :=
  ∃ X c p f, Durable K metaData X c p f h

section

variable {sfd' : Sfd D} (hd : Durable K metaData X c p f h) {reply : Reply}
include hd

theorem Durable.accepted {p' : Nat} {f' : RawFile D} {due : Bool}
    (hs : After K X h.sfd due c' p' sfd' f')
    (hb : due = false → BackupAgrees K metaData (X.files f') c') :
    SomeDurable K metaData (h.after K (.ok (.ok reply), sfd') (X.seek f' p')) :=
  ⟨X, c', p', f', ⟨hs.toSettled, rfl, hs.inUse.reached.contentOf_eq, hs.meta_eq.trans hd.meta_eq⟩,
    fun hno => hb (hs.backup_eq ▸ hno)⟩

/-- A refused message whose abort drops no copy that is needed. -/
theorem Durable.refused {e : TeeResult} {due : Bool} (hs : After K X h.sfd due c p sfd' f)
    (hn : h.NoneWaiting K c) :
    SomeDurable K metaData (h.after K (.ok (.error e), sfd'.aborted) (X.seek f p)) := by
  refine ⟨X, c, p, f, ⟨?_, rfl, hd.acked_eq, hs.meta_eq.trans hd.meta_eq⟩, fun _ => ?_⟩
  · exact { hs with kept := hs.kept.caches _ _ _ _ _, no_need := rfl }
  · cases hu : h.sfd.updateBackup with
    | false => exact hd.backup hu
    | true =>
      have hb := hn hu
      rw [hd.meta_eq, hd.state_eq] at hb
      exact hb

theorem Durable.mayWrite (hw : h.MayWrite) : X.writable = true := by
  obtain ⟨o, ho, hwr⟩ := hw
  rw [hd.state_eq, hd.settled.kept.nfd_eq, View.lookupFd_state, Option.some.injEq] at ho
  rw [← ho] at hwr
  exact hwr

end

section Messages

variable [DecidableEq D] {bad : RawFile D → Prop} {msg : Message} {fpos : Nat}

/-- The postcondition of a handler, from the one of the dispatcher around it. -/
def answered (msg : Message)
    (Q : Except TeeResult (Except TeeResult Reply) × Sfd D → Fs D → Prop) :
    Except TeeResult Reply × Sfd D → Fs D → Prop
  | (.ok reply, sfd'), t => Q (.ok (.ok reply), sfd') t
  | (.error e, sfd'), t =>
    Q (.ok (.error e), if msg.fileModify then sfd'.aborted else sfd') t

theorem wp_ssaCmdProc {V : Device (Call D) Answer (Fs D)} {I : Fs D → Prop}
    {Q : Post D (Except TeeResult Reply)}
    (hw : wp V I (msg.handle K fpos sfd) (answered msg Q) s) :
    wp V I (ssaCmdProc K fpos msg sfd) Q s := by
  unfold ssaCmdProc
  rw [Proc.wp_attempt_bind]
  refine wp_mono hw (fun _ hI => hI) ?_
  rintro ⟨_ | reply, sfd'⟩ t hQ
  · cases msg with
    | read n | write content | seek offset whence | truncate size => exact hQ
  · exact hQ

/-- One heeded message keeps the acknowledged content durable. -/
theorem Durable.step (hd : Durable K metaData X c p f h) (hm : msg.Sound K h c p) :
    SomeDurable K metaData (h.step K msg) := by
  have hs := hd.settled
  unfold HandleState.step
  rw [hd.state_eq]
  refine serve_of_wp (wp_ssaCmdProc ?_)
  cases msg with
  | read n =>
    refine wp_ssaReadObject hs hm ?_ ?_
    · intro _ e sfd' hs'
      exact ⟨X, c, p, f, ⟨hs'.toSettled, rfl, hd.acked_eq, hs'.meta_eq.trans hd.meta_eq⟩,
        fun hno => hd.backup (hs'.backup_eq ▸ hno)⟩
    · intro sfd' hs'
      exact hd.accepted hs' hd.backup
  | write content =>
    refine wp_ssaWriteObject hs ?_ ?_ ?_
    · intro href e sfd' hs'
      exact hd.refused hs' (hm href)
    · intro _ sfd' hs'
      exact hd.accepted hs' hd.backup
    · intro _ sfd' f' hs'
      exact hd.accepted hs' nofun
  | seek offset whence =>
    refine wp_ssaSeekObject hs ?_ ?_ ?_ ?_
    · intro t ht hlt
      exact hd.mayWrite (hm.2 t ht hlt)
    · intro e he sfd' hs'
      exact hd.refused hs' (hm.1 e he)
    · intro t _ _ sfd' hs'
      exact hd.accepted hs' hd.backup
    · intro t _ _ sfd' f' hs'
      exact hd.accepted hs' nofun
  | truncate size =>
    refine wp_ssaTruncateObject hs ?_ ?_ ?_ ?_ ?_
    · intro hle hne hro
      exact absurd (hro.symm.trans (hd.mayWrite ((hm.2 hle).2 hne))) Bool.false_ne_true
    · intro hle
      exact (hm.2 hle).1
    · intro hbig
      exact hd.refused ⟨hs, ⟨rfl, rfl, rfl⟩, rfl⟩ (hm.1 hbig)
    · intro _ sfd' hs'
      exact hd.accepted hs' hd.backup
    · intro _ _ sfd' f' hs'
      exact hd.accepted hs' nofun

theorem SomeDurable.run (hd : SomeDurable K metaData h) {msgs : List Message}
    (hm : Along (HandleState.step K) (HandleState.Heeded K) h msgs) :
    SomeDurable K metaData (runs (HandleState.step K) h msgs) := by
  refine invariant_run ?_ hd hm
  rintro h' msg ⟨X, c, p, f, hd'⟩ hheed
  have hreached := hd'.settled.inUse.reached
  rw [View.seek, ← hd'.state_eq] at hreached
  exact hd'.step (hheed c p hreached.contentOf_eq hreached.positionOf_eq)

end Messages

section Reopen

/-- A file was sealed over one content only. -/
theorem Holds.content_unique {fileId : String} (h : Holds K fileId c f m)
    (h' : Holds K fileId c' f m) : c = c' := by
  let X : View D := Fs.openAs ⟨fun _ => some f, []⟩ 0 "" true
  have hread : ∀ c₀, Holds K fileId c₀ f m → contentOf K
      (loaded K { ssaOpenInit K ⟨fileId, "", "backup", by decide⟩ accessReadWrite with nfd := 0 }
        m f.data) (X.seek f 0) = some c₀ := by
    intro c₀ h₀
    exact (InUse.reached ⟨Nat.zero_le _, f, h₀.kept rfl rfl (Nat.zero_le _), rfl⟩).contentOf_eq
  exact Option.some.inj ((hread c h).symm.trans (hread c' h'))

variable {files files' : Files D}

/-- The open takes the original when the backup agrees with it. -/
theorem Chosen.of_agrees {n : MetaStorage D}
    (ho : files metaData.curEncryptedFileId = some f) (hm : Holds K metaData.fileId c f m)
    (hb : BackupAgrees K metaData files c) (hch : Chosen K metaData files g n files') :
    g = f ∧ n = m := by
  have hgood : GoodFile K metaData.fileId files metaData.curEncryptedFileId f m := ⟨ho, hm.toIntact⟩
  cases hch with
  | original ho' _ | agree ho' _ _ => exact hgood.unique ho'
  | backup hno _ => exact (hno f m hgood).elim
  | differ ho' hb' hs =>
    obtain ⟨rfl, rfl⟩ := hgood.unique ho'
    exact (hs ((hb.2 _ _ hb').trans hm.loadedSize_eq.symm)).elim

/-- What an open leaves as the backup agrees with the file it took. -/
theorem Chosen.backupAgrees
    (hch : Chosen K metaData files f m files') (hm : Holds K metaData.fileId c f m) :
    BackupAgrees K metaData files' c := by
  have hne := metaData.names_ne
  have hsame : ∀ {g : RawFile D} {n : MetaStorage D}, files' metaData.curBackupFileId = some f →
      GoodFile K metaData.fileId files' metaData.curBackupFileId g n → storedSize g n = c.length := by
    intro g n hf hgood
    obtain ⟨rfl, rfl⟩ := unique ⟨hf, hm.toIntact⟩ hgood
    exact hm.loadedSize_eq
  refine ⟨hm.content_ne_nil, fun g n hgood => ?_⟩
  cases hch with
  | original ho _ => exact hsame (update_self _ _ _) hgood
  | backup _ hb | differ _ hb _ => exact hsame ((update_of_ne hne.symm _ _).trans hb.1) hgood
  | agree ho hb hs =>
    obtain ⟨rfl, rfl⟩ := hb.unique hgood
    exact hs.trans hm.loadedSize_eq

/-- The close of a handle that does not leave the object empty. -/
theorem Durable.close (hd : Durable K metaData X c p f h) (hne : c ≠ []) :
    let t := (serve ssaClose h.sfd h.fs).2
    t.files metaData.curEncryptedFileId = some f ∧ BackupAgrees K metaData t.files c := by
  obtain ⟨m, hm⟩ := hd.settled.holds hne
  have horig : X.files f metaData.curEncryptedFileId = some f := by
    rw [hd.name_eq]
    exact X.files_name f
  rw [hd.meta_eq] at hm
  rw [hd.state_eq, hd.settled.kept.close, hd.meta_eq]
  cases hu : h.sfd.updateBackup with
  | false => exact ⟨horig, hd.backup hu⟩
  | true =>
    refine ⟨?_, hne, fun g n hgood => ?_⟩
    · exact (update_of_ne metaData.names_ne _ _).trans horig
    · obtain ⟨rfl, rfl⟩ := unique ⟨update_self _ _ _, hm.toIntact⟩ hgood
      exact hm.loadedSize_eq

variable {flag : DataFlags} {attrHeadSize : Nat}

/-- The handle of an open, when its attributes and data are within the limits. -/
theorem Found.attached {sfd : Sfd D} (hf : Found K metaData flag s c X sfd f)
    (hattr : attrOf attrHeadSize c ≤ maxFileSize)
    (hfit : c.length ≤ maxFileSize + attrOf attrHeadSize c) (seekPosition : Nat) :
    let sfd' := sfd.withAttr (attrOf attrHeadSize c)
    let t := X.seek f (headEnd attrHeadSize c.length)
    Attached K metaData X c (headEnd attrHeadSize c.length) f
      ⟨sfd', t, seekPosition, contentOf K sfd' t⟩ := by
  obtain ⟨m, files, fd, hch, hm, rfl⟩ := hf.chosen
  have hs : Settled K (openedView s files metaData flag fd) c (headEnd attrHeadSize c.length)
      (sfd.withAttr (attrOf attrHeadSize c)) f := by
    refine ⟨hf.kept.withAttr hattr, fun _ => ⟨m, ?_⟩, headEnd_le, hfit, hf.no_need, fun hw => ?_⟩
    · change Holds K sfd.metaData.fileId c f m
      rw [hf.meta_eq]
      exact hm
    · change sfd.flags.accessWrite = true at hw
      rw [hf.flags_eq] at hw
      exact hw
  exact ⟨hs, rfl, hs.inUse.reached.contentOf_eq, hf.meta_eq⟩

theorem Found.backupAgrees {sfd : Sfd D} (hf : Found K metaData flag s c X sfd f) :
    BackupAgrees K metaData (X.files f) c := by
  obtain ⟨m, files, fd, hch, hm, rfl⟩ := hf.chosen
  have hb := hch.backupAgrees hm
  refine ⟨hb.1, fun g n hgood => hb.2 g n ⟨?_, hgood.2⟩⟩
  rw [← hgood.1]
  exact ((openedView s files metaData flag fd).files_of_ne metaData.names_ne.symm f).symm

variable [DecidableEq D] {serr : TeeResult}

/-- An open finds the content of the only file it can choose. -/
theorem open_finds (hch : ∀ {f' m' files'}, Chosen K metaData s.files f' m' files' → f' = g ∧ m' = m)
    (hm : Holds K metaData.fileId c g m)
    (hgood : ¬ NoGoodFile K metaData.fileId s.files metaData.curEncryptedFileId)
    (ha : ¬ flag.NoAccess)
    (hhead : attrHeadSize = 0 ∨ savedAttrInfoSize ≤ attrHeadSize) :
    let r := serve (openObject K flag serr attrHeadSize) (ssaOpenInit K metaData flag) s
    (∃ reply, r.1.1 = .ok reply) ∧ contentOf K r.1.2 r.2 = some c := by
  refine serve_of_wp (wp_openObject ?_ ha ?_ ?_ ?_)
  · intro f' m' files' h'
    obtain ⟨rfl, rfl⟩ := hch h'
    exact ⟨c, hm⟩
  · intro hno
    exact (hgood hno).elim
  · intro h0 hlt
    omega
  · intro _ c' X sfd₀ f' hfound
    obtain ⟨m', files', fd, h', hm', -⟩ := hfound.chosen
    obtain ⟨rfl, rfl⟩ := hch h'
    have hc := hm.content_unique hm'
    subst hc
    exact ⟨⟨_, rfl⟩, (InUse.reached ⟨headEnd_le, f', hfound.kept, rfl⟩).contentOf_eq⟩

/-- Open, any heeded messages, close, open again: the content is that of the last acknowledged
message, or that of the first open. -/
theorem acknowledged_durable (hg : Genuine K metaData s.files)
    (ha : ¬ (flag.accessRead = false ∧ flag.accessWrite = false))
    (hhead : attrHeadSize = 0 ∨ savedAttrInfoSize ≤ attrHeadSize)
    (hfit : ∀ c, StoredContent K metaData s.files c →
      attrOf attrHeadSize c ≤ maxFileSize ∧ c.length ≤ maxFileSize + attrOf attrHeadSize c) :
    let r := serve (openObject K flag serr attrHeadSize) (ssaOpenInit K metaData flag) s
    ∀ reply, r.1.1 = .ok reply →
    let h₀ : HandleState D := ⟨r.1.2, r.2, 0, contentOf K r.1.2 r.2⟩
    ∀ msgs, Along (HandleState.step K) (HandleState.Heeded K) h₀ msgs →
    let h := runs (HandleState.step K) h₀ msgs
    h.acked ≠ some [] →
    ∀ flag' serr' attrHeadSize', ¬ (flag'.accessRead = false ∧ flag'.accessWrite = false) →
      (attrHeadSize' = 0 ∨ savedAttrInfoSize ≤ attrHeadSize') →
      let r' := serve (openObject K flag' serr' attrHeadSize') (ssaOpenInit K metaData flag')
        (serve ssaClose h.sfd h.fs).2
      (∃ reply', r'.1.1 = .ok reply') ∧ contentOf K r'.1.2 r'.2 = h.acked := by
  intro r reply hok h₀ msgs hm h hne flag' serr' attrHeadSize' ha' hhead'
  have hstart : SomeDurable K metaData h₀ := by
    refine run_of_wp (Q := fun r t => ∀ reply, r.1 = .ok reply →
      SomeDurable K metaData ⟨r.2, t, 0, contentOf K r.2 t⟩)
      (wp_openObject hg.chosen ha ?_ ?_ ?_) reply hok
    · intro _ e sfd' t reply he
      cases he
    · intro h0 hlt
      omega
    · intro _ c X sfd₀ f hfound reply he
      obtain ⟨hattr, hlen⟩ := hfit c hfound.stored
      exact ⟨X, c, _, f, hfound.attached hattr hlen _, fun _ => hfound.backupAgrees⟩
  obtain ⟨X, c, p, f, hd⟩ := hstart.run hm
  have hc : c ≠ [] := by
    rintro rfl
    exact hne hd.acked_eq
  obtain ⟨m, hmm⟩ := hd.settled.holds hc
  rw [hd.meta_eq] at hmm
  obtain ⟨ho, hb⟩ := hd.close hc
  rw [hd.acked_eq]
  exact open_finds (fun hch => hch.of_agrees ho hmm hb) hmm (fun hno => hno f m ⟨ho, hmm.toIntact⟩)
    ha' hhead'

end Reopen

section Lost

variable {v : List UInt8}

section

variable (hs : Stable K metaData v s.files)
include hs

theorem Stable.agrees : BackupAgrees K metaData s.files v := by
  obtain ⟨f, m, hf, hm⟩ := hs.original
  obtain ⟨g, n, hg, hn⟩ := hs.backup
  refine ⟨hm.content_ne_nil, fun g' n' hgood => ?_⟩
  obtain ⟨rfl, rfl⟩ := unique ⟨hg, hn.toIntact⟩ hgood
  exact hn.loadedSize_eq

theorem Stable.genuine : Genuine K metaData s.files := by
  obtain ⟨f, m, hf, hm⟩ := hs.original
  obtain ⟨g, n, hg, hn⟩ := hs.backup
  rintro name (rfl | rfl) f' m' hgood
  · obtain ⟨rfl, rfl⟩ := unique ⟨hf, hm.toIntact⟩ hgood
    exact ⟨v, hm⟩
  · obtain ⟨rfl, rfl⟩ := unique ⟨hg, hn.toIntact⟩ hgood
    exact ⟨v, hn⟩

theorem Stable.stored_unique (hc : StoredContent K metaData s.files c) : c = v := by
  obtain ⟨f, m, files', hch, hm⟩ := hc
  obtain ⟨f₀, m₀, hf, hm₀⟩ := hs.original
  obtain ⟨rfl, rfl⟩ := hch.of_agrees hf hm₀ hs.agrees
  exact hm.content_unique hm₀

end

variable [DecidableEq D] {serr : TeeResult}

/-- A handle whose backup still holds `v`. -/
structure Behind (K : Crypto D) (metaData : MetaData) (X : View D) (v c : List UInt8) (p : Nat)
    (f : RawFile D) (h : HandleState D) : Prop extends Attached K metaData X c p f h where
  attr_eq : h.sfd.attrSize = 0
  flags_eq : h.sfd.flags = accessReadWrite
  old : ∃ g n, X.fs.files metaData.curBackupFileId = some g ∧ Holds K metaData.fileId v g n

/-- An open of a stable object for reading and writing. -/
theorem Stable.behind (hs : Stable K metaData v s.files) (serr : TeeResult)
    (hfit : v.length ≤ maxFileSize) :
    let r := serve (openObject K accessReadWrite serr 0) (ssaOpenInit K metaData accessReadWrite) s
    ∃ reply X f, r.1.1 = .ok reply ∧
      Behind K metaData X v v 0 f ⟨r.1.2, r.2, 0, contentOf K r.1.2 r.2⟩ := by
  obtain ⟨f, m, hf, hm⟩ := hs.original
  obtain ⟨g, n, hg, hn⟩ := hs.backup
  refine serve_of_wp (wp_openObject ?_ ?_ ?_ ?_ ?_)
  · intro g' n' files' hch
    obtain ⟨rfl, rfl⟩ := hch.of_agrees hf hm hs.agrees
    exact ⟨v, hm⟩
  · decide
  · intro hno
    exact (hno f m ⟨hf, hm.toIntact⟩).elim
  · intro h0
    exact absurd rfl h0
  · intro _ c' X sfd₀ f' hfound
    obtain ⟨n', files', fd, hch, hn', hX⟩ := hfound.chosen
    obtain ⟨rfl, rfl⟩ := hch.of_agrees hf hm hs.agrees
    have hc := hm.content_unique hn'
    subst hc
    have hnone : attrOf 0 v = 0 := if_neg (fun hh => absurd hh.1 (by decide))
    have hatt : Attached K metaData X v (headEnd 0 v.length) f'
        ⟨sfd₀.withAttr (attrOf 0 v), _, headEnd 0 v.length, _⟩ :=
      hfound.attached (by rw [hnone]; exact Nat.zero_le _) (by rw [hnone]; exact hfit) _
    refine ⟨_, X, f', rfl, hatt, hnone, hfound.flags_eq, g, n, ?_, hn⟩
    subst hX
    cases hch with
    | original _ hno => exact (hno g n ⟨hg, hn.toIntact⟩).elim
    | backup hno _ => exact (hno _ _ ⟨hf, hm.toIntact⟩).elim
    | agree _ _ _ => exact hg
    | differ ho' hb' hne =>
      obtain ⟨rfl, rfl⟩ := unique ⟨hf, hm.toIntact⟩ ho'
      exact (hne rfl).elim

variable {d : List UInt8}

section

variable (hb : Behind K metaData X v c p f h)
include hb

omit [DecidableEq D] in
theorem Behind.not_refused (hlen : p + d.length ≤ maxFileSize) : ¬ WriteRefused h.sfd p d := by
  rintro (hbig | hacc | ⟨-, hover⟩)
  · omega
  · rw [hb.flags_eq] at hacc
    cases hacc
  · omega

/-- A write that is acknowledged, with the backup left as it was. -/
theorem Behind.write (hd : d ≠ []) (hlen : p + d.length ≤ maxFileSize) :
    ∃ f', Behind K metaData X v (overlay c p d) (p + d.length) f' (h.step K (.write d)) := by
  unfold HandleState.step
  rw [hb.state_eq]
  refine serve_of_wp (wp_ssaCmdProc (wp_ssaWriteObject hb.settled ?_ ?_ ?_))
  · intro href
    exact absurd href (hb.not_refused hlen)
  · intro hnil
    exact absurd hnil hd
  · intro _ sfd' f' hs'
    exact ⟨f', ⟨hs'.toSettled, rfl, hs'.inUse.reached.contentOf_eq, hs'.meta_eq.trans hb.meta_eq⟩,
      hs'.attr_eq.trans hb.attr_eq, hs'.flags_eq.trans hb.flags_eq, hb.old⟩

omit [DecidableEq D] in
theorem Behind.heeded_write (hlen : p + d.length ≤ maxFileSize) : h.Heeded K (.write d) := by
  intro c' p' _ hp'
  have hreached := hb.settled.inUse.reached
  rw [View.seek, ← hb.state_eq] at hreached
  rw [hreached.positionOf_eq, Option.some.injEq] at hp'
  exact fun href => absurd (hp' ▸ href) (hb.not_refused hlen)

/-- A refused seek, after which no copy to the backup is due. -/
theorem Behind.refuse : Behind K metaData X v c p f (h.step K (.seek 0 3)) ∧
      (h.step K (.seek 0 3)).sfd.updateBackup = false := by
  have hgoal : ∀ len, seekObjectGoal h.sfd.attrSize 0 p len 3 = .error .badState := fun _ => rfl
  unfold HandleState.step
  rw [hb.state_eq]
  refine serve_of_wp (wp_ssaCmdProc (wp_ssaSeekObject hb.settled ?_ ?_ ?_ ?_))
  · intro t ht
    cases ht
  · intro e _ sfd' hs'
    refine ⟨⟨⟨?_, rfl, hb.acked_eq, hs'.meta_eq.trans hb.meta_eq⟩,
      hs'.attr_eq.trans hb.attr_eq, hs'.flags_eq.trans hb.flags_eq, hb.old⟩, rfl⟩
    exact { hs' with kept := hs'.kept.caches _ _ _ _ _, no_need := rfl }
  · intro t ht
    cases ht
  · intro t ht
    cases ht

/-- Closed without the copy, the object opens with the old content if the length has changed. -/
theorem Behind.lost (hno : h.sfd.updateBackup = false) (hc : c ≠ []) (hlen : c.length ≠ v.length) :
    let r := serve (openObject K accessReadWrite serr 0) (ssaOpenInit K metaData accessReadWrite)
      (serve ssaClose h.sfd h.fs).2
    (∃ reply, r.1.1 = .ok reply) ∧ contentOf K r.1.2 r.2 = some v := by
  obtain ⟨m, hm⟩ := hb.settled.holds hc
  obtain ⟨g, n, hg, hn⟩ := hb.old
  have hname := hb.name_eq
  rw [hb.meta_eq] at hm
  have hclosed : (serve ssaClose h.sfd h.fs).2.files = X.files f := by
    rw [hb.state_eq, hb.settled.kept.close, hno]
    rfl
  generalize (serve ssaClose h.sfd h.fs).2 = t at hclosed
  have ho : GoodFile K metaData.fileId t.files metaData.curEncryptedFileId f m := by
    rw [hclosed, hname]
    exact ⟨X.files_name f, hm.toIntact⟩
  have hbk : GoodFile K metaData.fileId t.files metaData.curBackupFileId g n := by
    rw [hclosed]
    exact ⟨(X.files_of_ne (by rw [← hname]; exact metaData.names_ne.symm) f).trans hg, hn.toIntact⟩
  have hchosen : ∀ {f' m' files'}, Chosen K metaData t.files f' m' files' → f' = g ∧ m' = n := by
    intro f' m' files' hch
    cases hch with
    | original _ hnb => exact (hnb g n hbk).elim
    | backup hno' _ => exact (hno' f m ho).elim
    | agree ho' hb' hs =>
      obtain ⟨rfl, rfl⟩ := ho.unique ho'
      obtain ⟨rfl, rfl⟩ := hbk.unique hb'
      exact (hlen (hm.loadedSize_eq.symm.trans (hs.symm.trans hn.loadedSize_eq))).elim
    | differ _ hb' _ => exact hbk.unique hb'
  exact open_finds hchosen hn (fun hno' => hno' f m ho) (by decide) (Or.inl rfl)

end

/-- An acknowledged write that makes the object longer, then a refused seek, is lost. -/
theorem Stable.write_lost (hs : Stable K metaData v s.files) (serr : TeeResult) (hfit : v.length ≤ maxFileSize)
    (hd : d.length ≤ maxFileSize) (hlen : v.length < d.length) :
    let r := serve (openObject K accessReadWrite serr 0) (ssaOpenInit K metaData accessReadWrite) s
    ∃ reply, r.1.1 = .ok reply ∧
      let h := runs (HandleState.step K) ⟨r.1.2, r.2, 0, contentOf K r.1.2 r.2⟩
        [.write d, .seek 0 3]
      let r' := serve (openObject K accessReadWrite serr 0) (ssaOpenInit K metaData accessReadWrite)
        (serve ssaClose h.sfd h.fs).2
      h.acked = some (overlay v 0 d) ∧ (∃ reply', r'.1.1 = .ok reply') ∧
        contentOf K r'.1.2 r'.2 = some v := by
  have hover : (overlay v 0 d).length = d.length := by
    rw [length_overlay]
    omega
  have hne : d ≠ [] := by
    rintro rfl
    exact absurd hlen (Nat.not_lt_zero _)
  obtain ⟨reply, X, f, hok, hb⟩ := hs.behind serr hfit
  obtain ⟨f', hb'⟩ := hb.write hne (by omega)
  obtain ⟨hb'', hno⟩ := hb'.refuse
  refine ⟨reply, hok, ?_⟩
  simp only [runs_cons, runs_nil]
  refine ⟨hb''.acked_eq, hb''.lost hno ?_ (by omega)⟩
  rw [← List.length_pos_iff, hover]
  omega

end Lost

section Sample

/-- The write that nothing follows is found again. -/
theorem acknowledged_durable_sample : ∃ (s : Fs Nat) (reply : Reply),
      let r := serve (openObject numbering accessReadWrite .generic 0)
        (ssaOpenInit numbering sampleMeta accessReadWrite) s
      r.1.1 = .ok reply ∧
        let h := runs (HandleState.step numbering) ⟨r.1.2, r.2, 0,
          contentOf numbering r.1.2 r.2⟩ [.write [1]]
        let r' := serve (openObject numbering accessReadWrite .generic 0)
          (ssaOpenInit numbering sampleMeta accessReadWrite) (serve ssaClose h.sfd h.fs).2
        h.acked = some [1, 8, 9] ∧ contentOf numbering r'.1.2 r'.2 = h.acked := by
  obtain ⟨s, hs⟩ := sample_stable (c := [7, 8, 9]) (List.cons_ne_nil _ _) (by decide)
  obtain ⟨reply, X, f, hok, hb⟩ := hs.behind .generic (by decide)
  obtain ⟨f', hb'⟩ := hb.write (d := [1]) (List.cons_ne_nil _ _) (by decide)
  have hacked := hb'.acked_eq
  have hdur := acknowledged_durable hs.genuine (by decide) (Or.inl rfl)
    (fun c hc => by rw [hs.stored_unique hc]; decide) reply hok [.write [1]]
    ⟨hb.heeded_write (by decide), trivial⟩
    (by rw [runs_cons, runs_nil, hacked]; decide) accessReadWrite .generic 0 (by decide) (Or.inl rfl)
  exact ⟨s, reply, hok, hacked, hdur.2⟩

/-- Four bytes over three, a seek that is refused, close, open: the three old bytes are back. -/
theorem acknowledged_write_lost : ∃ s : Fs Nat,
      let r := serve (openObject numbering accessReadWrite .generic 0)
        (ssaOpenInit numbering sampleMeta accessReadWrite) s
      ∃ reply, r.1.1 = .ok reply ∧
        let h := runs (HandleState.step numbering) ⟨r.1.2, r.2, 0,
          contentOf numbering r.1.2 r.2⟩ [.write [1, 2, 3, 4], .seek 0 3]
        let r' := serve (openObject numbering accessReadWrite .generic 0)
          (ssaOpenInit numbering sampleMeta accessReadWrite) (serve ssaClose h.sfd h.fs).2
        h.acked = some [1, 2, 3, 4] ∧ (∃ reply', r'.1.1 = .ok reply') ∧
          contentOf numbering r'.1.2 r'.2 = some [7, 8, 9] := by
  obtain ⟨s, hs⟩ := sample_stable (c := [7, 8, 9]) (List.cons_ne_nil _ _) (by decide)
  have hlost := hs.write_lost .generic (by decide) (d := [1, 2, 3, 4]) (by decide) (by decide)
  exact ⟨s, hlost⟩

end Sample

end TeeOs.Ssa
