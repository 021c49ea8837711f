import TeeOs.Ssa.Descriptor

/-!
# The storage seen through one descriptor

A `View` fixes an open descriptor and the name of its file; `state f pos` is the
storage in which that file is `f` and the descriptor stands at `pos`, with all
other files and descriptors as they were. A crash condition speaks of the files only.
-/

namespace TeeOs.Ssa

open Lib.Calls Lib.Bytes Function Fs

section Descriptors

theorem lookupFd_replaceFd_self (fd : Nat) (o : OpenFile) (l : List (Nat × OpenFile))
    (h : (lookupFd fd l).isSome) : lookupFd fd (replaceFd fd o l) = some o := by
  induction l with
  | nil => simp [lookupFd] at h
  | cons e l ih =>
    obtain ⟨d, o'⟩ := e
    by_cases hd : d = fd
    · simp [replaceFd, lookupFd, hd]
    · simp only [lookupFd, hd, if_false] at h
      simp only [replaceFd, hd, if_false, lookupFd]
      exact ih h

theorem replaceFd_replaceFd (fd : Nat) (o o' : OpenFile) (l : List (Nat × OpenFile)) :
    replaceFd fd o (replaceFd fd o' l) = replaceFd fd o l := by
  induction l with
  | nil => rfl
  | cons e l ih =>
    obtain ⟨d, o''⟩ := e
    by_cases hd : d = fd
    · simp [replaceFd, hd]
    · simp [replaceFd, hd, ih]

theorem removeFd_replaceFd (fd : Nat) (o : OpenFile) (l : List (Nat × OpenFile)) :
    removeFd fd (replaceFd fd o l) = removeFd fd l := by
  induction l with
  | nil => rfl
  | cons e l ih =>
    obtain ⟨d, o'⟩ := e
    by_cases hd : d = fd
    · simp [replaceFd, removeFd, hd]
    · simp [replaceFd, removeFd, hd, ih]

end Descriptors

/-- The files stay within `J`. -/
abbrev onFiles {D : Type} (J : (String → Option (RawFile D)) → Prop) (s : Fs D) : Prop := J s.files

instance {D : Type} : Coe ((String → Option (RawFile D)) → Prop) (Fs D → Prop) := ⟨onFiles⟩

abbrev anyFiles {D : Type} : Fs D → Prop := onFiles fun _ => True

/-- An open descriptor `fd` of the file `name`, and the storage around it. -/
structure View (D : Type) where
  fs : Fs D
  name : String
  fd : Nat
  writable : Bool
  isOpen : (lookupFd fd fs.opened).isSome

open View

namespace View

variable {D : Type} (X : View D) {pos : Nat}

variable (f : RawFile D) (pos : Nat)

def files : String → Option (RawFile D) := Function.update X.fs.files X.name (some f)

def state : Fs D where
  files := X.files f
  opened := replaceFd X.fd ⟨X.name, pos, X.writable⟩ X.fs.opened

/-- The state at position `p` of the data. -/
abbrev seek (p : Nat) : Fs D := X.state f (sfsMetadataSize + p)

@[simp] theorem state_files : (X.state f pos).files = X.files f := rfl

@[simp] theorem files_name : X.files f X.name = some f := by
  exact update_self _ _ _

@[simp] theorem update_files (f g : RawFile D) :
    Function.update (X.files f) X.name (some g) = X.files g := by
  exact update_idem _ _ _

theorem files_of_ne {name : String} (h : name ≠ X.name) (f : RawFile D) :
    X.files f name = X.fs.files name := by
  exact update_of_ne h _ _

@[simp] theorem lookupFd_state :
    lookupFd X.fd (X.state f pos).opened = some ⟨X.name, pos, X.writable⟩ :=
  lookupFd_replaceFd_self _ _ _ X.isOpen

theorem withFd_state {α : Type} (f : RawFile D) (pos : Nat)
    (k : OpenFile → RawFile D → Except Errno α × Fs D) :
    (X.state f pos).withFd X.fd k = k ⟨X.name, pos, X.writable⟩ f := by
  simp only [withFd, lookupFd_state, state_files, files_name]

theorem setPos_state (pos pos' q : Nat) :
    (X.state f pos).setPos X.fd ⟨X.name, pos', X.writable⟩ q = X.state f q := by
  simp only [setPos, state, replaceFd_replaceFd]

theorem writeFile_state (f g : RawFile D) (pos : Nat) :
    (X.state f pos).writeFile X.name g = X.state g pos := by
  simp only [writeFile, state, update_files]

variable {f : RawFile D}

theorem header_guard {n : Nat} (h : sfsMetadataSize ≤ n) (hh : f.header.isSome) :
    ¬ (n < sfsMetadataSize ∨ f.header.isNone = true) := by
  rw [Option.isNone_iff_eq_none, ← Option.not_isSome_iff_eq_none]
  simp only [hh, not_true_eq_false, or_false]
  omega

/-- The view of a second descriptor, opened by name on the same file. -/
def reopen (f : RawFile D) (pos : Nat) (writable : Bool) : View D where
  fs := { X.state f pos with
    opened := (freshFd (X.state f pos).opened, ⟨X.name, 0, writable⟩) :: (X.state f pos).opened }
  name := X.name
  fd := freshFd (X.state f pos).opened
  writable := writable
  isOpen := by simp [lookupFd]

@[simp] theorem reopen_files (f g : RawFile D) (pos : Nat) (writable : Bool) :
    (X.reopen f pos writable).files g = X.files g := X.update_files f g

end View

section Rules

variable {D : Type} {bad : RawFile D → Prop} {J : Files D → Prop}
  {α : Type} {sfd : Sfd D}

/-- Calls that a cut cannot tear. -/
def Call.atomic : Call D → Bool
  | .fcopy _ _ => false
  | _ => true

variable {c : Call D} {s s' : Fs D} {Q : Post D Unit} {g : Errno → TeeResult}

section

variable (hc : c.atomic = true) {Q : Post D c.Ret}
include hc

theorem not_torn (s t : Fs D) : ¬ (agent bad).torn c s t := by
  cases c with
  | fcopy a b => simp [Call.atomic] at hc
  | _ => exact id

theorem wp_ask_of_step {r : Answer c} {Q : Post D (Answer c)} (hs : step c s = (r, s'))
    (hJ : J s'.files) (hQ : Q (.ok r, sfd) s') :
    wp (agent bad) J ((Proc.ask c : SsaM D (Answer c)) sfd) Q s := by
  have h1 : ((agent bad).step c s).1 = r := congrArg Prod.fst hs
  have h2 : ((agent bad).step c s).2 = s' := congrArg Prod.snd hs
  refine ⟨fun t ht => (not_torn hc s t ht).elim, ?_, ?_⟩
  · rw [h2]; exact hJ
  · rw [h1, h2]; exact hQ

theorem wp_callOr_of_step {v : c.Ret} (hs : step c s = (.ok v, s')) (hJ : J s'.files)
    (hQ : Q (.ok v, sfd) s') : wp (agent bad) J (callOr c g sfd) Q s := by
  unfold callOr
  rw [Proc.wp_seq]
  exact wp_ask_of_step hc hs hJ hQ

theorem wp_callOr_error_of_step {e : Errno} (hs : step c s = (.error e, s')) (hJ : J s'.files)
    (hQ : Q (.error (g e), sfd) s') : wp (agent bad) J (callOr c g sfd) Q s := by
  unfold callOr
  rw [Proc.wp_seq]
  exact wp_ask_of_step hc hs hJ hQ

end

@[simp] theorem wp_ofExcept_ok (a : α) (s : Fs D) (I : Fs D → Prop) (Q : Post D α) :
    wp (agent bad) I (ofExcept (.ok a) sfd) Q s = Q (.ok a, sfd) s := rfl

@[simp] theorem wp_ofExcept_error (e : TeeResult) (s : Fs D) (I : Fs D → Prop) (Q : Post D α) :
    wp (agent bad) I (ofExcept (.error e) sfd) Q s = Q (.error e, sfd) s := rfl

variable {X : View D} {f : RawFile D} {pos fd : Nat} {failed : Errno → TeeResult}
  {content : List UInt8}

theorem wp_ssaFsFtruncate {name : String}
    {len : Nat} (hn : name = X.name) (h : sfsMetadataSize ≤ len) (hh : f.header.isSome)
    (hJ : J (X.files { f with data := resize f.data (len - sfsMetadataSize) }))
    (hQ : Q (.ok (), sfd) (X.state { f with data := resize f.data (len - sfsMetadataSize) } pos)) :
    wp (agent bad) J (ssaFsFtruncate failed name len sfd) Q (X.state f pos) := by
  subst hn
  refine wp_callOr_of_step rfl ?_ hJ hQ
  change ftruncate _ _ _ = _
  simp only [ftruncate, state_files, files_name]
  rw [if_neg (header_guard h hh), writeFile_state]
  rfl

section

variable (hfd : fd = X.fd)
include hfd

theorem wp_ssaFsFwrite (hw : X.writable = true) (h : sfsMetadataSize ≤ pos) (hh : f.header.isSome)
    (hJ : J (X.files { f with data := overlay f.data (pos - sfsMetadataSize) content }))
    (hQ : Q (.ok (), sfd) (X.state { f with data := overlay f.data (pos - sfsMetadataSize) content }
      (pos + content.length))) :
    wp (agent bad) J (ssaFsFwrite failed fd content sfd) Q (X.state f pos) := by
  subst hfd
  refine wp_callOr_of_step rfl ((X.withFd_state f pos _).trans ?_) hJ hQ
  rw [if_neg (by simp [hw]), if_neg (header_guard h hh), writeFile_state, setPos_state]
  rfl

section

variable (hJ : J (X.files f))
include hJ

theorem wp_ssaFsFinfo {Q : Post D (Nat × Nat)} (hQ : Q (.ok (pos, f.len), sfd) (X.state f pos)) :
    wp (agent bad) J (ssaFsFinfo failed fd sfd) Q (X.state f pos) := by
  subst hfd
  exact wp_callOr_of_step rfl (X.withFd_state f pos _) hJ hQ

theorem wp_ssaFsFseek {offset : Int} {whence : Whence} {q : Nat}
    (h : seekBase whence pos f.len + offset = q) (hQ : Q (.ok (), sfd) (X.state f q)) :
    wp (agent bad) J (ssaFsFseek failed fd offset whence sfd) Q (X.state f pos) := by
  subst hfd
  have hn : ¬ (seekBase whence pos f.len + offset < 0) := by omega
  have hq : (seekBase whence pos f.len + offset).toNat = q := by omega
  refine wp_callOr_of_step rfl ((X.withFd_state f pos _).trans ?_) hJ hQ
  rw [if_neg hn, hq, setPos_state]
  rfl

theorem wp_ssaFsFread {Q : Post D (List UInt8)} {count : Nat} (h : sfsMetadataSize ≤ pos)
    (hQ : Q (.ok ((f.data.drop (pos - sfsMetadataSize)).take count), sfd)
      (X.state f (pos + ((f.data.drop (pos - sfsMetadataSize)).take count).length))) :
    wp (agent bad) J (ssaFsFread failed fd count sfd) Q (X.state f pos) := by
  subst hfd
  refine wp_callOr_of_step rfl ((X.withFd_state f pos _).trans ?_) hJ hQ
  rw [if_neg (Nat.not_lt.mpr h)]
  simp only [setPos_state]
  rfl

theorem wp_ssaFsFwrite_readonly (hw : X.writable = false)
    (hQ : Q (.error (failed .ebadf), sfd) (X.state f pos)) :
    wp (agent bad) J (ssaFsFwrite failed fd content sfd) Q (X.state f pos) := by
  subst hfd
  refine wp_callOr_error_of_step rfl ((X.withFd_state f pos _).trans ?_) hJ hQ
  rw [if_pos hw]
  rfl

theorem wp_ssaFsFreadMeta {Q : Post D (Option (MetaStorage D))} (hh : f.header.isSome)
    (hQ : Q (.ok f.header, sfd) (X.state f sfsMetadataSize)) :
    wp (agent bad) J (ssaFsFreadMeta failed fd sfd) Q (X.state f 0) := by
  subst hfd
  refine wp_callOr_of_step rfl ((X.withFd_state f 0 _).trans ?_) hJ hQ
  rw [if_pos ⟨rfl, hh⟩, setPos_state]
  rfl

theorem wp_ssaFsFreadMeta_none {Q : Post D (Option (MetaStorage D))} (hh : f.header = none)
    (hQ : Q (.ok none, sfd) (X.state f 0)) :
    wp (agent bad) J (ssaFsFreadMeta failed fd sfd) Q (X.state f 0) := by
  subst hfd
  refine wp_callOr_of_step rfl ((X.withFd_state f 0 _).trans ?_) hJ hQ
  rw [if_neg (by simp [hh])]
  rfl

end

theorem wp_ssaFsFwriteMeta {record : MetaStorage D} (hw : X.writable = true)
    (hJ : J (X.files { f with header := some record }))
    (hQ : Q (.ok (), sfd) (X.state { f with header := some record } sfsMetadataSize)) :
    wp (agent bad) J (ssaFsFwriteMeta failed fd record sfd) Q (X.state f 0) := by
  subst hfd
  refine wp_callOr_of_step rfl ((X.withFd_state f 0 _).trans ?_) hJ hQ
  rw [if_neg (by simp [hw]), if_neg (by simp), writeFile_state, setPos_state]
  rfl

theorem wp_ssaFsFwriteDataHmac {m : MetaStorage D} {hmac : Option D} (hw : X.writable = true)
    (hm : f.header = some m)
    (hJ : J (X.files { f with header := some { m with dataHmac := hmac } })) (hQ : Q (.ok (), sfd)
      (X.state { f with header := some { m with dataHmac := hmac } } sfsMetadataSize)) :
    wp (agent bad) J (ssaFsFwriteDataHmac failed fd hmac sfd) Q
      (X.state f sfsDatahmacOffset) := by
  subst hfd
  refine wp_callOr_of_step rfl ((X.withFd_state f _ _).trans ?_) hJ hQ
  rw [if_neg (by simp [hw]), if_neg (by simp)]
  simp only [hm]
  rw [writeFile_state, setPos_state]
  rfl

end

theorem wp_ssaFsFopen {Q : Post D Nat} {name : String} {flag : DataFlags} (hn : name = X.name)
    (hf : ¬ flag.NoAccess) (hJ : J (X.files f))
    (hQ : Q (.ok (X.reopen f pos flag.accessWrite).fd, sfd)
      ((X.reopen f pos flag.accessWrite).state f 0)) :
    wp (agent bad) J (ssaFsFopen failed name flag sfd) Q (X.state f pos) := by
  subst hn
  refine wp_callOr_of_step rfl ?_ ?_ hQ
  · change fopen _ _ _ = _
    unfold fopen
    rw [if_neg hf, if_neg (by simp)]
    simp only [View.reopen, View.state, View.files, replaceFd, if_true, update_idem]
    rfl
  · simpa only [state_files, reopen_files] using hJ

theorem wp_ssaFsFclose_reopen {g : RawFile D}
    {q : Nat} {writable : Bool} (hJ : J (X.files g)) (hQ : Q (.ok (), sfd) (X.state g pos)) :
    wp (agent bad) J (ssaFsFclose failed (X.reopen f pos writable).fd sfd) Q
      ((X.reopen f pos writable).state g q) := by
  refine wp_callOr_of_step rfl ?_ hJ hQ
  change fclose _ _ = _
  simp only [fclose, lookupFd_state]
  simp only [View.reopen, View.state, View.files, replaceFd, removeFd, if_true, update_idem]
  rfl

theorem wp_ignore {α : Type} {m : SsaM D α}
    (h : wp (agent bad) J (m sfd) (fun r t => Q (.ok (), r.2) t) s) :
    wp (agent bad) J (ignore m sfd) Q s := by
  unfold ignore
  rw [Proc.wp_attempt_bind]
  exact h

end Rules

end TeeOs.Ssa
