import TeeOs.Ssa.OpenSpec
import TeeOs.Ssa.Update

/-!
# The block list over whole runs

A run starts with `ssa_create` or `ssa_open` and goes on with successful calls
of write, seek, read and truncate. Every call keeps the descriptor in use: one
list entry for each block of the file, with its hash, and the size of the last
block. Sealed by `ssa_write_mac`, such a file loads into the same descriptor
again.
-/

namespace TeeOs.Ssa

open Lib.Calls Lib.Bytes List Proc Function TeeOs.Ssa.Crypto

variable {D : Type}

/-- A descriptor in use: exactly one list entry for each block, and the position inside. -/
structure InUse (K : Crypto D) (X : View D) (c : List UInt8) (p : Nat) (sfd : Sfd D) (s : Fs D) :
    Prop where
  inside : p ≤ c.length
  stored : ∃ f, Kept K X c sfd f ∧ s = X.state f (sfsMetadataSize + p)

/-- Every intact file of the object was sealed over some content. -/
def Genuine (K : Crypto D) (metaData : MetaData) (files : String → Option (RawFile D)) : Prop :=
  ∀ name, name = metaData.curEncryptedFileId ∨ name = metaData.curBackupFileId →
    ∀ f m, GoodFile K metaData.fileId files name f m → ∃ c, Holds K metaData.fileId c f m

/-- The handlers set `attr_size` once the file is open. -/
def Sfd.withAttr (sfd : Sfd D) (attrSize : Nat) : Sfd D := { sfd with attrSize := attrSize }

inductive FileOp where
  | write (content : List UInt8)
  | seek (offset : Int) (whence : Nat)
  | read (count : Nat)
  | truncate (len : Nat)

/-- The arguments fit the types of the code, and a buffer is smaller than half the memory. -/
def FileOp.Valid : FileOp → Prop
  | .write content => content.length ≤ int32Max
  | .seek offset _ => offset ≤ int32Max
  | .read count => count < 4294967296
  | .truncate len => len < 4294967296

variable {K : Crypto D} {X : View D} {c : List UInt8} {p : Nat} {sfd sfd' : Sfd D} {s t : Fs D}
  {f : RawFile D} {m : MetaStorage D} {metaData : MetaData}

theorem InUse.reached (h : InUse K X c p sfd s) : Reached K X c p sfd s := by
  obtain ⟨f, hk, hs⟩ := h.stored
  exact ⟨h.inside, f, hk.toRep, hs⟩

section Run

/-- What a call leaves when it succeeds. -/
def Stays (K : Crypto D) (X : View D) (sfd : Sfd D) (r : Except TeeResult Unit × Sfd D) (t : Fs D) :
    Prop :=
  r.1 = .ok () → r.2.attrSize = sfd.attrSize ∧ r.2.metaData = sfd.metaData ∧
    ∃ c p, InUse K X c p r.2 t

theorem stays_error {e : TeeResult} : Stays K X sfd (.error e, sfd') t := by
  intro h
  cases h

theorem Updated.stays {c' : List UInt8} {f' : RawFile D} (h : Updated K X c' sfd f sfd' f')
    (hp : p ≤ c'.length) : Stays K X sfd (.ok (), sfd') (X.seek f' p) :=
  fun _ => ⟨h.attr_eq, h.meta_eq, c', p, hp, f', h.kept, rfl⟩

variable [DecidableEq D]

def FileOp.run (K : Crypto D) : FileOp → SsaM D Unit
  | .write content => do let _ ← ssaWrite K content
  | .seek offset whence => ssaSeek K offset whence
  | .read count => do let _ ← ssaRead K count
  | .truncate len => ssaTruncate K len

def runOps (K : Crypto D) : List FileOp → SsaM D Unit
  | [] => pure ()
  | op :: ops => do
    op.run K
    runOps K ops

section

variable (h : Kept K X c sfd f)
include h

section

variable (hp : p ≤ c.length)
include hp

omit [DecidableEq D] in
theorem Kept.stays (sid pos n : Nat) :
    Stays K X sfd (.ok (), sfd.standing sid pos n) (X.seek f p) :=
  fun _ => ⟨rfl, rfl, c, p, hp, f, h.caches _ _ _ _ _, rfl⟩

theorem wp_write_stays {content : List UInt8} (hc : content.length ≤ int32Max) :
    wp (agent fun _ => True) anyFiles ((FileOp.write content).run K sfd) (Stays K X sfd)
      (X.seek f p) := by
  have hlen := h.length_le
  unfold FileOp.run
  rw [wp_seq]
  by_cases hd : content = []
  · subst hd
    exact h.stays hp sfd.startBlockId sfd.seekPosition sfd.size
  · rcases Nat.lt_or_ge (maxFileSize + sfd.attrSize) (p + content.length) with hbig | hfit
    · refine wp_ssaWriteWith_overflow h.toRep hd ?_ hbig trivial stays_error
      simp only [maxFileSize, int32Max] at *
      omega
    · cases hw : X.writable with
      | true =>
        refine wp_ssaWrite_kept h hw hp hd hfit trivial (fun _ => trivial) ?_
        intro sfd' f' hu _ _
        exact hu.stays (by rw [length_overlay]; omega)
      | false =>
        exact wp_ssaWriteWith_readonly h.toRep hp hd hfit trivial hw trivial fun _ _ => stays_error

theorem wp_seek_stays {offset : Int} {whence : Nat} (hoff : offset ≤ int32Max) :
    wp (agent fun _ => True) anyFiles ((FileOp.seek offset whence).run K sfd) (Stays K X sfd)
      (X.seek f p) := by
  refine wp_ssaSeek h.toRep trivial hp hoff (fun _ => trivial) (fun _ _ _ _ => stays_error) ?_ ?_
  · intro t ht
    exact h.stays ht _ _ _
  · intro t sfd' data ht hg
    exact (hg.updated h ht.le).stays (by rw [length_resize])

theorem wp_read_stays {count : Nat} (hc : count < 4294967296) :
    wp (agent fun _ => True) anyFiles ((FileOp.read count).run K sfd) (Stays K X sfd)
      (X.seek f p) := by
  unfold FileOp.run
  rw [wp_seq]
  rcases Nat.lt_or_ge (p + count) 4294967296 with hb | hwrap
  · exact wp_ssaRead_any h.toRep hp hb trivial (fun _ _ => stays_error)
      fun sid => h.stays readStop_le _ _ _
  · rcases Nat.lt_or_ge p c.length with hlt | hge
    · by_cases hblk : blocks cryptBlockSize (p + count - 4294967296) = p/cryptBlockSize
      · refine wp_ssaRead_wrap_empty hlt hc hwrap h.toRep hblk trivial ?_
        exact h.stays ((Nat.div_mul_le_self _ _).trans hp) _ _ _
      · exact wp_ssaRead_wrap_refused hlt hc hwrap h.toRep hblk trivial fun _ _ => stays_error
    · have heq : p = c.length := by omega
      subst heq
      exact wp_ssaRead_end h.legible trivial (h.stays (Nat.div_mul_le_self _ _) _ _ _)

theorem wp_truncate_stays {len : Nat} (hlt : len < 4294967296) :
    wp (agent fun _ => True) anyFiles ((FileOp.truncate len).run K sfd) (Stays K X sfd)
      (X.seek f p) := by
  refine wp_ssaTruncate h hlt trivial (fun _ _ => trivial) (fun _ => trivial)
    hp (fun _ _ _ _ _ _ _ => stays_error) ?_ ?_ ?_
  · intro _
    exact h.stays hp _ _ _
  · intro _ hin _ sfd' f' ht
    exact (ht.updated.caches p len).stays (by rw [length_resize]; exact hin)
  · intro hlp _ sfd' f' sfd'' data ht hg _
    have hu := (hg.updated ht.kept (by rw [length_resize]; omega)).caches p len
    rw [ht.clear_eq] at hu
    exact ⟨hu.attr_eq.trans ht.attr_eq, hu.meta_eq.trans ht.meta_eq, _, p,
      by rw [length_resize], _, hu.kept, rfl⟩

end

end

theorem InUse.op (h : InUse K X c p sfd s) {o : FileOp} (hv : o.Valid) :
    Stays K X sfd (serve (o.run K) sfd s).1 (serve (o.run K) sfd s).2 := by
  obtain ⟨f, hk, rfl⟩ := h.stored
  cases o with
  | write content => exact serve_of_wp (wp_write_stays hk h.inside hv)
  | seek offset whence => exact serve_of_wp (wp_seek_stays hk h.inside hv)
  | read count => exact serve_of_wp (wp_read_stays hk h.inside hv)
  | truncate len => exact serve_of_wp (wp_truncate_stays hk h.inside hv)

theorem InUse.ops (h : InUse K X c p sfd s) {os : List FileOp} (hv : ∀ o ∈ os, o.Valid) :
    Stays K X sfd (serve (runOps K os) sfd s).1 (serve (runOps K os) sfd s).2 := by
  induction os generalizing c p sfd s with
  | nil =>
    intro _
    exact ⟨rfl, rfl, c, p, h⟩
  | cons o os ih =>
    intro hok
    unfold runOps at hok ⊢
    rw [serve_bind] at hok ⊢
    cases hr : (serve (o.run K) sfd s).1.1 with
    | error e =>
      rw [hr] at hok
      cases hok
    | ok u =>
      rw [hr] at hok
      obtain ⟨ha, hm, c', p', h'⟩ := h.op (hv o mem_cons_self) hr
      obtain ⟨ha', hm', hrest⟩ := ih h' (fun o' ho' => hv o' (mem_cons_of_mem _ ho')) hok
      exact ⟨ha'.trans ha, hm'.trans hm, hrest⟩

end Run

section Start

/-- The file `ssa_create` leaves: metadata, and no data. -/
def newFile (K : Crypto D) : RawFile D := ⟨some (initMetaStorage K), []⟩

/-- The view of the descriptor that `ssa_create` returns. -/
def createdView (s : Fs D) (name : String) : View D :=
  (s.writeFile name ⟨none, []⟩).openAs (freshFd s.opened) name true

variable {Q : Post D Unit} {attrSize fd : Nat} {files files' : Files D} {flag : DataFlags}

theorem wp_ssaCreate
    (hno : flag.accessRead = false ∧ flag.accessWrite = false → ∀ e, Q (.error e, sfd) s)
    (hQ : Q (.ok (), { sfd with
        nfd := freshFd s.opened, updateBackup := true, firstBlock := [⟨0, K.hash [0]⟩] })
      ((createdView s sfd.metaData.curEncryptedFileId).state (newFile K) sfsMetadataSize)) :
    wp (agent fun _ => True) anyFiles (ssaCreate K flag sfd) Q s := by
  unfold ssaCreate
  rw [wp_get_bind, wp_seq]
  by_cases ha : flag.accessRead = false ∧ flag.accessWrite = false
  · exact wp_ssaFsFcreate_refused ha trivial (hno ha _)
  refine wp_ssaFsFcreate ha trivial ?_
  rw [← Fs.openAs_state _ _ _ _ (update_self _ _ _)]
  rw [next_ok, wp_modify_bind, wp_attempt_bind]
  unfold initMetaData
  rw [wp_get_bind, wp_seq]
  refine wp_ssaFsFseek (q := 0) rfl trivial (by simp only [Fs.seekBase]; omega) ?_
  exact wp_ssaFsFwriteMeta rfl rfl trivial hQ

theorem created_kept (K : Crypto D) (s : Fs D) (metaData : MetaData) (flag : DataFlags) :
    Kept K (createdView s metaData.curEncryptedFileId) [] { ssaOpenInit K metaData flag with
      nfd := freshFd s.opened, updateBackup := true, firstBlock := [⟨0, K.hash [0]⟩] }
      (newFile K) := by
  refine ⟨⟨⟨rfl, rfl, rfl, ⟨rfl, rfl, fun i hi => ?_⟩, ?_⟩, rfl, Nat.zero_le _, Nat.zero_le _⟩, rfl⟩
  · exact absurd hi (by simp [pad, resize, blocks, cryptBlockSize])
  refine ⟨cons_ne_nil _ _, Nat.zero_le _, ?_, fun i hi => ?_⟩
  · intro i b hb
    cases i with
    | zero =>
      cases hb
      rfl
    | succ i => cases hb
  · exact absurd hi (by simp [newFile, cryptBlockSize])

theorem Kept.withAttr (h : Kept K X c sfd f) (ha : attrSize ≤ maxFileSize) :
    Kept K X c (sfd.withAttr attrSize) f :=
  ⟨⟨{ h with }, h.last_eq, h.length_le, ha⟩, h.list_eq⟩

theorem created_inUse
    (hok : (serve (ssaCreate K flag) (ssaOpenInit K metaData flag) s).1.1 = .ok ()) :
    let r := serve (ssaCreate K flag) (ssaOpenInit K metaData flag) s
    InUse K (createdView s metaData.curEncryptedFileId) [] 0 r.1.2 r.2 ∧
      r.1.2.metaData = metaData ∧ r.1.2.attrSize = 0 := by
  revert hok
  refine serve_of_wp (wp_ssaCreate ?_ ?_)
  · intro _ e he
    cases he
  · intro _
    exact ⟨⟨Nat.le_refl _, newFile K, created_kept K s metaData flag, rfl⟩, rfl, rfl⟩

theorem Chosen.good (h : Chosen K metaData files f m files') :
    ∃ name, (name = metaData.curEncryptedFileId ∨ name = metaData.curBackupFileId) ∧
      GoodFile K metaData.fileId files name f m := by
  cases h with
  | original ho _ | agree ho _ _ => exact ⟨_, Or.inl rfl, ho⟩
  | backup _ hb | differ _ hb _ => exact ⟨_, Or.inr rfl, hb⟩

theorem Chosen.original_eq
    (h : Chosen K metaData files f m files') : files' metaData.curEncryptedFileId = some f := by
  cases h with
  | original ho _ => exact (update_of_ne metaData.names_ne _ _).trans ho.1
  | backup _ _ | differ _ _ _ => exact update_self _ _ _
  | agree ho _ _ => exact ho.1

theorem created_ok (K : Crypto D) (metaData : MetaData) (s : Fs D) (ha : ¬ flag.NoAccess) :
    (serve (ssaCreate K flag) (ssaOpenInit K metaData flag) s).1.1 = .ok () :=
  serve_of_wp (wp_ssaCreate (fun hno => absurd hno ha) rfl)

/-- What an open that succeeded has done. -/
structure OpenedAs (K : Crypto D) (metaData : MetaData) (flag : DataFlags) (s : Fs D)
    (sfd : Sfd D) (t : Fs D) (f : RawFile D) (m : MetaStorage D)
    (files : String → Option (RawFile D)) (fd : Nat) : Prop where
  chosen : Chosen K metaData s.files f m files
  fresh : lookupFd fd s.opened = none
  sfd_eq : sfd = loaded K { ssaOpenInit K metaData flag with nfd := fd } m f.data
  state_eq : t = Fs.push { s with files := files } fd metaData.curEncryptedFileId flag.accessWrite
    sfsMetadataSize

theorem openInit_list (K : Crypto D) (metaData : MetaData) (flag : DataFlags) :
    (ssaOpenInit K metaData flag).Listed := by
  refine ⟨fun i b hb => ?_, cons_ne_nil _ _⟩
  cases i with
  | zero =>
    cases hb
    rfl
  | succ i => cases hb

/-- The view of the descriptor that `ssa_open` returns. -/
def openedView (s : Fs D) (files : String → Option (RawFile D)) (metaData : MetaData)
    (flag : DataFlags) (fd : Nat) : View D :=
  Fs.openAs { s with files := files } fd metaData.curEncryptedFileId flag.accessWrite

section

variable (h : OpenedAs K metaData flag s sfd t f m files fd)
include h

theorem OpenedAs.state_view :
    t = (openedView s files metaData flag fd).state f (sfsMetadataSize + 0) := by
  rw [h.state_eq]
  exact (Fs.openAs_state _ _ _ _ h.chosen.original_eq).symm

theorem OpenedAs.kept (hh : Holds K metaData.fileId c f m) (ha : attrSize ≤ maxFileSize) :
    Kept K (openedView s files metaData flag fd) c (sfd.withAttr attrSize) f := by
  have hfd : ({ ssaOpenInit K metaData flag with nfd := fd, attrSize := attrSize } : Sfd D).nfd =
      (openedView s files metaData flag fd).fd := rfl
  rw [h.sfd_eq]
  exact hh.kept hfd rfl ha

/-- An opened file that holds a content is in use, at its start. -/
theorem OpenedAs.inUse (hh : Holds K metaData.fileId c f m) (ha : attrSize ≤ maxFileSize) :
    InUse K (openedView s files metaData flag fd) c 0 (sfd.withAttr attrSize) t :=
  ⟨Nat.zero_le _, f, h.kept hh ha, h.state_view⟩

end

variable [DecidableEq D] {serr : TeeResult}

theorem wp_ssaOpen (ha : ¬ flag.NoAccess)
    (hfail : NoGoodFile K metaData.fileId s.files metaData.curEncryptedFileId →
      NoGoodFile K metaData.fileId s.files metaData.curBackupFileId → ∀ e sfd', Q (.error e, sfd') s)
    (hok : ∀ sfd' t f m files fd, OpenedAs K metaData flag s sfd' t f m files fd →
      Q (.ok (), sfd') t) :
    wp (agent fun _ => True) anyFiles
      (ssaOpenHandle K flag serr (ssaOpenInit K metaData flag)) Q s := by
  refine wp_ssaOpenHandle ha (openInit_list K metaData flag) hfail ?_
  intro f m files fd hch hfd
  exact hok _ _ f m files fd ⟨hch, hfd, rfl, rfl⟩

/-- An open succeeds exactly when one of the two files is intact. -/
theorem open_spec (K : Crypto D) (metaData : MetaData) (serr : TeeResult) (s : Fs D)
    (ha : ¬ flag.NoAccess) :
    let r := serve (ssaOpenHandle K flag serr) (ssaOpenInit K metaData flag) s
    (r.1.1 = .ok () ∧ ∃ f m files fd, OpenedAs K metaData flag s r.1.2 r.2 f m files fd) ∨
    (r.1.1 ≠ .ok () ∧ NoGoodFile K metaData.fileId s.files metaData.curEncryptedFileId ∧
      NoGoodFile K metaData.fileId s.files metaData.curBackupFileId) := by
  refine serve_of_wp (wp_ssaOpen ha ?_ ?_)
  · intro ho hb e sfd'
    refine Or.inr ⟨?_, ho, hb⟩
    intro h
    cases h
  · intro sfd' t f m files fd hopened
    exact Or.inl ⟨rfl, f, m, files, fd, hopened⟩

/-- The descriptors a run starts with. An open without read or write access never succeeds. -/
inductive Started (K : Crypto D) (metaData : MetaData) : Sfd D → Fs D → Prop
  | created {flag : DataFlags} {s : Fs D}
      (hok : (serve (ssaCreate K flag) (ssaOpenInit K metaData flag) s).1.1 = .ok ()) :
      Started K metaData (serve (ssaCreate K flag) (ssaOpenInit K metaData flag) s).1.2
        (serve (ssaCreate K flag) (ssaOpenInit K metaData flag) s).2
  | opened {flag : DataFlags} {serr : TeeResult} {s : Fs D} (hg : Genuine K metaData s.files)
      (ha : ¬ (flag.accessRead = false ∧ flag.accessWrite = false))
      (hok : (serve (ssaOpenHandle K flag serr) (ssaOpenInit K metaData flag) s).1.1 = .ok ()) :
      Started K metaData (serve (ssaOpenHandle K flag serr) (ssaOpenInit K metaData flag) s).1.2
        (serve (ssaOpenHandle K flag serr) (ssaOpenInit K metaData flag) s).2

theorem Started.inUse (h : Started K metaData sfd s) (ha : attrSize ≤ maxFileSize) :
    sfd.metaData = metaData ∧ ∃ X c, InUse K X c 0 (sfd.withAttr attrSize) s := by
  cases h with
  | created hok =>
    obtain ⟨h, hm, -⟩ := created_inUse hok
    obtain ⟨f, hk, hs⟩ := h.stored
    exact ⟨hm, _, _, h.inside, f, hk.withAttr ha, hs⟩
  | opened hg hacc hok =>
    rcases open_spec K metaData _ _ hacc with ⟨-, f, m, files, fd, ho⟩ | ⟨hno, -⟩
    · obtain ⟨name, hname, hgood⟩ := ho.chosen.good
      obtain ⟨c, hc⟩ := hg name hname f m hgood
      exact ⟨by rw [ho.sfd_eq]; rfl, _, c, ho.inUse hc ha⟩
    · exact absurd hok hno

end Start

section RoundTrip

/-- The block list is that of the file behind the descriptor, which has `len` bytes of content. -/
structure BlocksMatch (K : Crypto D) (len : Nat) (sfd : Sfd D) (f : RawFile D) : Prop where
  ids_eq : sfd.firstBlock.map BlockInfo.blockId = List.range (blocks cryptBlockSize len)
  hash_eq : ∀ i b, sfd.firstBlock[i]? = some b → b.hash = K.hash (block cryptBlockSize i f.data)
  data_length : f.data.length = blocks cryptBlockSize len*cryptBlockSize
  last_eq : sfd.lastBlockSize = len % cryptBlockSize

/-- `sfd'` has loaded the length `len` and the caches of `sfd`. -/
structure Reloaded (len : Nat) (sfd sfd' : Sfd D) : Prop where
  size_eq : sfd'.size = len
  last_eq : sfd'.lastBlockSize = sfd.lastBlockSize
  list_eq : sfd'.firstBlock = sfd.firstBlock

theorem Kept.blocksMatch (h : Kept K X c sfd f) (hc : c ≠ []) : BlocksMatch K c.length sfd f := by
  have hlist := h.list_blockList hc
  have hdiv : f.data.length/cryptBlockSize = blocks cryptBlockSize c.length := by
    rw [h.legible.data_length, Nat.mul_div_cancel _ cryptBlockSize_pos]
  refine ⟨?_, fun i b hb => ?_, h.legible.data_length, h.last_eq⟩
  · rw [hlist]
    unfold blockList
    rw [map_map, hdiv]
    exact map_id _
  · have hlt := (List.getElem?_eq_some_iff.mp hb).1
    rw [hlist, length_blockList] at hlt
    rw [hlist, blockList_getElem? hlt, Option.some.injEq] at hb
    rw [← hb]

theorem Holds.reloaded (h : Holds K metaData.fileId c (sealFile K sfd f) m)
    (hk : Kept K X c sfd f) {sfd₀ : Sfd D} :
    Reloaded c.length sfd (loaded K sfd₀ m (sealFile K sfd f).data) :=
  ⟨h.loadedSize_eq, h.last_eq.trans hk.last_eq.symm, (hk.list_blockList h.content_ne_nil).symm⟩

/-- `ssa_write_mac` on a descriptor in use succeeds and seals its file. -/
theorem Kept.writeMac (h : Kept K X c sfd f) {pos : Nat} :
    serve (ssaWriteMac K) sfd (X.state f pos) =
      ((.ok (), { sfd with updateBackup := true }), X.state (sealFile K sfd f) pos) := by
  exact serve_of_wp (wp_ssaWriteMac h.name_eq h.hashed.ids h.hashed.nonempty h.header trivial trivial
    trivial rfl)

/-- Closing a descriptor that waits for its backup leaves two equal files. -/
theorem Kept.close (h : Kept K X c sfd f) {pos : Nat} :
    (serve ssaClose sfd (X.state f pos)).2 =
      ⟨if sfd.updateBackup then Function.update (X.files f) sfd.metaData.curBackupFileId (some f)
        else X.files f, removeFd X.fd X.fs.opened⟩ := by
  exact serve_of_wp
    (wp_ssaClose h.nfd_eq h.name_eq trivial (fun _ _ _ => trivial) (fun _ => trivial) rfl)

variable [DecidableEq D] {flag : DataFlags} {serr : TeeResult}

/-- The check of a sealed file passes and loads it. -/
theorem openCheck_sealed (hf : s.files metaData.curEncryptedFileId = some f)
    (h : Intact K metaData.fileId f m)
    (ha : ¬ flag.NoAccess) :
    let r := serve (ssaOpenCheck K metaData.curEncryptedFileId flag)
      (ssaOpenInit K metaData flag) s
    (∃ info, r.1.1 = .ok info ∧ info.ret = .success) ∧
      ∃ fd, r.1.2 = loaded K { ssaOpenInit K metaData flag with nfd := fd } m f.data := by
  refine serve_of_wp (wp_ssaOpenCheck ha (openInit_list K metaData flag) ?_ ?_)
  · intro hno
    exact (hno f m ⟨hf, h⟩).elim
  · intro g n hg
    obtain ⟨rfl, rfl⟩ := GoodFile.unique ⟨hf, h⟩ hg
    exact ⟨⟨_, rfl, rfl⟩, _, rfl⟩

/-- In every state reached by successful calls from a create or an open, the block list of a
non-empty content is that of the file on disk; after `ssa_write_mac` a check of the file passes and
an open after the close gives the same content, length, last block and list. -/
theorem blockList_roundTrip (h : Started K metaData sfd s) {attrSize : Nat}
    (hattr : attrSize ≤ maxFileSize) {os : List FileOp} (hv : ∀ o ∈ os, o.Valid)
    (hok : (serve (runOps K os) (sfd.withAttr attrSize) s).1.1 = .ok ()) :
    let r := serve (runOps K os) (sfd.withAttr attrSize) s
    ∃ c f, contentOf K r.1.2 r.2 = some c ∧ r.2.files metaData.curEncryptedFileId = some f ∧
      (c ≠ [] → BlocksMatch K c.length r.1.2 f ∧
        let w := serve (ssaWriteMac K) r.1.2 r.2
        w.1.1 = .ok () ∧
        ∀ flag serr, ¬ (flag.accessRead = false ∧ flag.accessWrite = false) →
          let o := serve (ssaOpenCheck K metaData.curEncryptedFileId flag)
            (ssaOpenInit K metaData flag) w.2
          let q := serve (ssaOpenHandle K flag serr) (ssaOpenInit K metaData flag)
            (serve ssaClose w.1.2 w.2).2
          ((∃ info, o.1.1 = .ok info ∧ info.ret = .success) ∧ Reloaded c.length r.1.2 o.1.2) ∧
          q.1.1 = .ok () ∧ Reloaded c.length r.1.2 q.1.2 ∧ contentOf K q.1.2 q.2 = some c) := by
  obtain ⟨hmeta, X, c₀, h₀⟩ := h.inUse hattr
  obtain ⟨-, hm, c, p, hu⟩ := h₀.ops hv hok
  obtain ⟨f, hk, hs⟩ := hu.stored
  have hm' := hm.trans hmeta
  generalize serve (runOps K os) (sfd.withAttr attrSize) s = r at *
  obtain ⟨⟨ret, sfd₁⟩, t⟩ := r
  dsimp only at hu hk hs hm' ⊢
  subst hs
  have hname : metaData.curEncryptedFileId = X.name := by
    rw [← hm']
    exact hk.name_eq
  refine ⟨c, f, hu.reached.contentOf_eq, by rw [hname]; exact X.files_name f, fun hc => ?_⟩
  obtain ⟨m, hh⟩ := hk.holds hc
  rw [hm'] at hh
  have hfile (pos : Nat) : (X.state (sealFile K sfd₁ f) pos).files metaData.curEncryptedFileId =
      some (sealFile K sfd₁ f) := by
    rw [hname]
    exact X.files_name _
  refine ⟨hk.blocksMatch hc, ?_⟩
  rw [hk.writeMac, (hk.seal true).close, if_pos rfl]
  refine ⟨rfl, fun flag serr ha => ?_⟩
  obtain ⟨hinfo, fd, hload⟩ := openCheck_sealed (hfile _) hh.toIntact ha
  refine ⟨⟨hinfo, by rw [hload]; exact hh.reloaded hk⟩, ?_⟩
  rw [hm']
  generalize hfiles : Function.update (X.files (sealFile K sfd₁ f)) metaData.curBackupFileId
    (some (sealFile K sfd₁ f)) = files'
  have hgo : GoodFile K metaData.fileId files' metaData.curEncryptedFileId (sealFile K sfd₁ f) m := by
    subst hfiles
    exact ⟨(update_of_ne metaData.names_ne _ _).trans (hfile 0), hh.toIntact⟩
  have hgb : GoodFile K metaData.fileId files' metaData.curBackupFileId (sealFile K sfd₁ f) m := by
    subst hfiles
    exact ⟨update_self _ _ _, hh.toIntact⟩
  rcases open_spec K metaData serr ⟨files', removeFd X.fd X.fs.opened⟩ ha with ⟨hret, g, n, files, fd', ho⟩ | ⟨-, hno, -⟩
  · obtain ⟨rfl, rfl, rfl⟩ := ho.chosen.of_same hgo hgb
    refine ⟨hret, ?_, ?_⟩
    · rw [ho.sfd_eq]
      exact hh.reloaded hk
    · exact (ho.inUse hh (Nat.zero_le _)).reached.contentOf_eq
  · exact (hno _ _ hgo).elim

variable {d : List UInt8}

/-- A write inside the limit succeeds through a descriptor that may write. -/
theorem InUse.write (h : InUse K X c p sfd s) (hw : X.writable = true) (hd : d ≠ [])
    (hmax : p + d.length ≤ maxFileSize + sfd.attrSize) :
    (serve (ssaWrite K d) sfd s).1.1 = .ok d.length ∧
      InUse K X (overlay c p d) (p + d.length) (serve (ssaWrite K d) sfd s).1.2
        (serve (ssaWrite K d) sfd s).2 := by
  obtain ⟨f, hk, rfl⟩ := h.stored
  refine serve_of_wp (wp_ssaWrite_kept hk hw h.inside hd hmax trivial (fun _ => trivial) ?_)
  intro sfd' f' hu _ _
  exact ⟨rfl, by rw [length_overlay]; omega, f', hu.kept, rfl⟩

theorem runOps_write {n : Nat} (hret : (serve (ssaWrite K d) sfd s).1.1 = .ok n) :
    serve (runOps K [.write d]) sfd s =
      ((.ok (), (serve (ssaWrite K d) sfd s).1.2), (serve (ssaWrite K d) sfd s).2) := by
  unfold runOps FileOp.run
  rw [serve_bind, serve_bind, hret]
  rfl

/-- A new file to which `d` was written. -/
theorem exists_started_write (K : Crypto D) (metaData : MetaData) (hd : d ≠ [])
    (hmax : d.length ≤ maxFileSize) :
    ∃ sfd s, Started K metaData sfd s ∧
      (serve (runOps K [.write d]) (sfd.withAttr 0) s).1.1 = .ok () ∧
      contentOf K (serve (runOps K [.write d]) (sfd.withAttr 0) s).1.2
        (serve (runOps K [.write d]) (sfd.withAttr 0) s).2 = some d := by
  have ha : ¬ (accessReadWrite.accessRead = false ∧ accessReadWrite.accessWrite = false) := by decide
  have hok := created_ok K metaData ⟨fun _ => none, []⟩ ha
  obtain ⟨hu, -, hattr⟩ := created_inUse hok
  refine ⟨_, _, .created hok, ?_⟩
  generalize serve (ssaCreate K accessReadWrite) (ssaOpenInit K metaData accessReadWrite)
    ⟨fun _ => none, []⟩ = r at *
  have hsame : r.1.2.withAttr 0 = r.1.2 := by
    unfold Sfd.withAttr
    rw [← hattr]
  obtain ⟨hret, hu'⟩ := hu.write rfl hd (by rw [hattr]; omega)
  rw [hsame, runOps_write hret]
  exact ⟨rfl, hu'.reached.contentOf_eq.trans (congrArg some (overlay_length [] d))⟩

/-- Three bytes written to a new file. -/
theorem blockList_roundTrip_sample :
    ∃ (sfd : Sfd Nat) (s : Fs Nat), Started Crypto.numbering sampleMeta sfd s ∧
      let r := serve (runOps numbering [.write [7, 8, 9]]) (sfd.withAttr 0) s
      contentOf numbering r.1.2 r.2 = some [7, 8, 9] ∧
      ∃ f, BlocksMatch numbering 3 r.1.2 f ∧
        (serve (ssaWriteMac numbering) r.1.2 r.2).1.1 = .ok () := by
  obtain ⟨sfd, s, hstart, hok, hcont⟩ := exists_started_write numbering sampleMeta
    (d := [7, 8, 9]) (cons_ne_nil _ _) (by decide)
  have hv : ∀ o ∈ [FileOp.write [7, 8, 9]], o.Valid := by
    intro o ho
    rw [mem_singleton.mp ho]
    exact (by decide : [7, 8, 9].length ≤ int32Max)
  obtain ⟨c, f, hc, -, hall⟩ := blockList_roundTrip hstart (Nat.zero_le _) hv hok
  have hlen : c = [7, 8, 9] := Option.mem_unique hc hcont
  subst hlen
  obtain ⟨hblocks, hmac, -⟩ := hall (cons_ne_nil _ _)
  exact ⟨sfd, s, hstart, hcont, f, hblocks, hmac⟩

end RoundTrip

end TeeOs.Ssa
