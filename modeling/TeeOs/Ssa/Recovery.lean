import TeeOs.Ssa.Crash

/-!
# An open recovers from a corrupt copy

Whatever the two files are, `ssa_open` with read or write access succeeds
exactly when one of them passes the integrity check, and then describes the
file behind its descriptor, which is a copy that passed. Without any access the
files are not even opened.
-/

namespace TeeOs.Ssa

open Lib.Calls Proc

variable {D : Type} [DecidableEq D] {K : Crypto D} {metaData : MetaData} {s : Fs D} {name : String}
  {flag : DataFlags}

def accessReadOnly : DataFlags := ⟨true, false, false, false, false, false, false, false⟩

/-- `ssa_open_check` on its own finds that the file is intact. -/
def PassesCheck (K : Crypto D) (metaData : MetaData) (s : Fs D) (name : String) : Prop :=
  ∃ i, (serve (ssaOpenCheck K name accessReadOnly) (ssaOpenInit K metaData accessReadOnly) s).1.1 =
    .ok i ∧ i.ret = .success

theorem passesCheck_iff : PassesCheck K metaData s name ↔
    ∃ f m, GoodFile K metaData.fileId s.files name f m := by
  obtain ⟨i, hi, hiff⟩ : ∃ i,
      (serve (ssaOpenCheck K name accessReadOnly) (ssaOpenInit K metaData accessReadOnly) s).1.1 =
        .ok i ∧ (i.ret = .success ↔ ∃ f m, GoodFile K metaData.fileId s.files name f m) :=
    serve_of_wp (wp_ssaOpenCheck (by decide) (openInit_list K metaData accessReadOnly)
      (fun hno _ _ _ _ _ hret _ _ => ⟨_, rfl, fun h => absurd h hret,
        fun ⟨f, m, hgood⟩ => absurd hgood (hno f m)⟩)
      fun f m hgood => ⟨_, rfl, fun _ => ⟨f, m, hgood⟩, fun _ => rfl⟩)
  rw [← hiff]
  refine ⟨fun ⟨j, hj, hret⟩ => ?_, fun hret => ⟨i, hi, hret⟩⟩
  rw [hi] at hj
  exact Except.ok.inj hj ▸ hret

/-- The descriptor tells of the file behind it: its size, its last block and the hash of
every block. -/
structure Describes (K : Crypto D) (sfd : Sfd D) (t : Fs D) (f : RawFile D) : Prop where
  behind : ∃ o, lookupFd sfd.nfd t.opened = some o ∧ t.files o.name = some f
  last : ∃ m, f.header = some m ∧ sfd.lastBlockSize = m.hdr.lastBlockRealsize
  size : sfd.size = loadedSize sfd.lastBlockSize f.data.length
  blocks : sfd.firstBlock = blockList K f.data

omit [DecidableEq D] in
theorem OpenedAs.describes {sfd : Sfd D} {t : Fs D} {f : RawFile D} {m : MetaStorage D}
    {files : Files D} {fd : Nat}
    (h : OpenedAs K metaData flag s sfd t f m files fd) : Describes K sfd t f := by
  have hfile := h.chosen.original_eq
  obtain ⟨name, -, hgood⟩ := h.chosen.good
  rw [h.sfd_eq, h.state_eq]
  refine ⟨⟨⟨metaData.curEncryptedFileId, sfsMetadataSize, flag.accessWrite⟩, ?_, hfile⟩,
    ⟨m, hgood.2.header_eq, rfl⟩, rfl, rfl⟩
  simp only [Fs.push, loaded, lookupFd, if_true]

/-- A file is not opened without access. -/
theorem wp_ssaOpenCheck_refused {sfd : Sfd D} {Q : Post D OpenInfo}
    (ha : flag.accessRead = false ∧ flag.accessWrite = false)
    (hQ : Q (.ok ⟨.itemNotFound, sfd.size, none, some .badParameters⟩, sfd) s) :
    wp (agent fun _ => True) anyFiles (ssaOpenCheck K name flag sfd) Q s := by
  have hopen : (agent fun _ => True).step (.fopen name flag) s = (.error .einval, s) := if_pos ha
  unfold ssaOpenCheck
  rw [wp_attempt_bind]
  exact wp_callOr_error_of_step rfl hopen trivial hQ

theorem ssaOpen_refused (ha : flag.accessRead = false ∧ flag.accessWrite = false)
    (serr : TeeResult) (sfd : Sfd D) :
    (serve (ssaOpenHandle K flag serr) sfd s).1.1 = .error .itemNotFound := by
  refine serve_of_wp ?_
  unfold ssaOpenHandle ssaOpenFiles
  rw [wp_seq, wp_get_bind, wp_seq]
  refine wp_ssaOpenCheck_refused ha ?_
  rw [next_ok, wp_seq]
  refine wp_ssaOpenCheck_refused ha ?_
  rfl

/-- An open with access succeeds exactly when a copy passes the check, with such a copy behind
its descriptor; without access it fails. -/
theorem ssaOpen_recovers (K : Crypto D) (metaData : MetaData) (flag : DataFlags) (serr : TeeResult)
    (s : Fs D) :
    let names := [metaData.curEncryptedFileId, metaData.curBackupFileId]
    let r := serve (ssaOpenHandle K flag serr) (ssaOpenInit K metaData flag) s
    ((flag.accessRead = true ∨ flag.accessWrite = true) → (∃ name ∈ names, PassesCheck K metaData s name) →
      r.1.1 = .ok () ∧ ∃ f, Describes K r.1.2 r.2 f ∧
        ∃ name ∈ names, PassesCheck K metaData s name ∧ s.files name = some f) ∧
    ((∀ name ∈ names, ¬ PassesCheck K metaData s name) → ∃ e, r.1.1 = .error e) ∧
    (¬ (flag.accessRead = true ∨ flag.accessWrite = true) → r.1.1 = .error .itemNotFound) := by
  have hdenied : ¬ (flag.accessRead = true ∨ flag.accessWrite = true) ↔
      flag.accessRead = false ∧ flag.accessWrite = false := by
    rw [not_or, Bool.not_eq_true, Bool.not_eq_true]
  have hrefused := fun ha => ssaOpen_refused (K := K) (s := s) (hdenied.mp ha) serr
    (ssaOpenInit K metaData flag)
  by_cases ha : flag.accessRead = true ∨ flag.accessWrite = true
  · rcases open_spec K metaData serr s (fun h => hdenied.mpr h ha) with
      ⟨hok, f, m, files, fd, hopened⟩ | ⟨hfail, ho, hb⟩
    · obtain ⟨name, hname, hgood⟩ := hopened.chosen.good
      have hpasses : PassesCheck K metaData s name := passesCheck_iff.mpr ⟨f, m, hgood⟩
      have hmem : name ∈ [metaData.curEncryptedFileId, metaData.curBackupFileId] := by
        simpa using hname
      exact ⟨fun _ _ => ⟨hok, f, hopened.describes, name, hmem, hpasses, hgood.1⟩,
        fun hno => absurd hpasses (hno name hmem), fun hno => absurd ha hno⟩
    · refine ⟨fun _ ⟨name, hname, hpasses⟩ => ?_, fun _ => ?_, fun hno => absurd ha hno⟩
      · obtain ⟨f, m, hgood⟩ := passesCheck_iff.mp hpasses
        rcases List.mem_pair.mp hname with rfl | rfl
        exacts [absurd hgood (ho f m), absurd hgood (hb f m)]
      cases hr : (serve (ssaOpenHandle K flag serr) (ssaOpenInit K metaData flag) s).1.1 with
      | ok _ => exact absurd hr hfail
      | error e => exact ⟨e, rfl⟩
  · exact ⟨fun h => absurd h ha, fun _ => ⟨_, hrefused ha⟩, hrefused⟩

/-- An open for the metadata alone fails although both copies are intact. -/
theorem ssaOpen_writeMeta_refused : ∃ s : Fs Nat,
    PassesCheck Crypto.numbering sampleMeta s sampleMeta.curEncryptedFileId ∧
    PassesCheck Crypto.numbering sampleMeta s sampleMeta.curBackupFileId ∧
    let flag : DataFlags := ⟨false, false, true, false, false, false, false, false⟩
    (serve (ssaOpenHandle Crypto.numbering flag .success)
      (ssaOpenInit Crypto.numbering sampleMeta flag) s).1.1 = .error .itemNotFound := by
  obtain ⟨s, ⟨f, m, hf, hm⟩, g, n, hg, hn⟩ := sample_stable (c := [7]) (List.cons_ne_nil _ _) (by decide)
  exact ⟨s, passesCheck_iff.mpr ⟨f, m, hf, hm.toIntact⟩, passesCheck_iff.mpr ⟨g, n, hg, hn.toIntact⟩,
    ssaOpen_refused ⟨rfl, rfl⟩ _ _⟩

end TeeOs.Ssa
