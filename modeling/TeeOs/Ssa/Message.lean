import TeeOs.Ssa.Invariant

/-!
# The messages on an open object

The handlers of `secure_storage_msg.c` for one open handle, and the dispatcher
that aborts a modification which failed. A handle keeps a position of its own
beside the one in the descriptor; each handler puts the two together again. Not
modelled: the mapping of the caller's buffers and the lookup of the handle.
-/

namespace TeeOs.Ssa

open Lib.Calls Lib.Bytes Proc

variable {D : Type}

/-- The answer to a message that succeeded. -/
structure Reply where
  newSeekPos : Nat
  newSize : Nat
  data : List UInt8
  deriving DecidableEq

inductive Message where
  | read (len : Nat)
  | write (content : List UInt8)
  | seek (offset : Int) (whence : Nat)
  | truncate (size : Int)

/-- The column `is_file_modify` of the command table. -/
def Message.fileModify : Message → Bool
  | .read _ => false
  | _ => true

/-- `size` as a `uint32_t`, and the attributes in front of the data. -/
def truncateLen (attrSize : Nat) (size : Int) : Nat := u32 ((size % 4294967296).toNat + attrSize)

/-- A truncation to whole blocks below the length, with the position inside: nothing is written. -/
def CutsBlocks (len p target : Nat) : Prop :=
  target < len ∧ target % cryptBlockSize = 0 ∧ p ≤ target

/-- The offset `ssa_seek_object` hands to `ssa_seek`. -/
def seekOffset (attrSize : Nat) (offset : Int) (whence : Nat) : Int :=
  if whence = 0 then (if offset < 0 then 0 else offset) + attrSize else offset

def objectReply (data : List UInt8) : SsaM D Reply := do
  let sfd ← get
  pure ⟨sfd.seekPosition, sub32 sfd.size sfd.attrSize, data⟩

section Handlers

variable [DecidableEq D]

variable (K : Crypto D) (seekPosition : Nat)

/-- `ssa_write_object_data`: a short write without an error skips the HMAC. -/
def ssaWriteObjectData (content : List UInt8) : SsaM D Unit := do
  let count ← ssaWrite K content
  when (count = content.length) (updateMac K)

/-- `ssa_write_object` on a handle at `seekPosition`. -/
def ssaWriteObject (content : List UInt8) : SsaM D Reply := do
  if content.length > maxFileSize then throw .badParameters
  else do
    modify fun sfd => { sfd with seekPosition := seekPosition }
    let sfd ← get
    if sfd.flags.accessWrite = false then throw .accessConflict
    else do
      ssaWriteObjectData K content
      objectReply []

def ssaReadObject (seekPosition len : Nat) : SsaM D Reply := do
  modify fun sfd => { sfd with seekPosition := seekPosition }
  let sfd ← get
  if sfd.flags.accessRead = false then throw .accessConflict
  else do
    let data ← ssaRead K len
    objectReply data

def ssaSeekObject (offset : Int) (whence : Nat) : SsaM D Reply := do
  if offset > maxFileSize then throw .badParameters
  else do
    let sfd ← get
    ssaSeek K (seekOffset sfd.attrSize offset whence) whence
    updateMac K
    objectReply []

/-- `ssa_truncate_object`: what `ssa_truncate` returns is not looked at. -/
def ssaTruncateObject (size : Int) : SsaM D Reply := do
  if size > maxFileSize then throw .badParameters
  else do
    modify fun sfd => { sfd with seekPosition := seekPosition }
    let sfd ← get
    ignore (ssaTruncate K (truncateLen sfd.attrSize size))
    updateMac K
    objectReply []

def ssaInfoObject : SsaM D (Nat × Nat) := do
  let (pos, len) ← ssaInfo
  let sfd ← get
  pure (sub32 pos sfd.attrSize, sub32 len sfd.attrSize)

def Message.handle : Message → SsaM D Reply
  | .read len => ssaReadObject K seekPosition len
  | .write content => ssaWriteObject K seekPosition content
  | .seek offset whence => ssaSeekObject K offset whence
  | .truncate size => ssaTruncateObject K seekPosition size

def ssaFileProcessAbort : SsaM D Unit :=
  modify fun sfd => { sfd with needUpdateHmac := false, updateBackup := false }

/-- `ssa_cmd_proc` for a message on an open handle. -/
def ssaCmdProc (msg : Message) : SsaM D (Except TeeResult Reply) := do
  match ← attempt (msg.handle K seekPosition) with
  | .ok reply => pure (.ok reply)
  | .error e => do
    when (msg.fileModify = true) ssaFileProcessAbort
    pure (.error e)

end Handlers

variable {K : Crypto D} {X : View D} {c d c' : List UInt8} {p : Nat} {sfd sfd' : Sfd D} {s : Fs D}
  {f f' : RawFile D}

/-- A handle between two messages, at `p`: its file represents `c` and is sealed over it. -/
structure Settled (K : Crypto D) (X : View D) (c : List UInt8) (p : Nat) (sfd : Sfd D)
    (f : RawFile D) : Prop where
  kept : Kept K X c sfd f
  holds : c ≠ [] → ∃ m, Holds K sfd.metaData.fileId c f m
  inside : p ≤ c.length
  fits : c.length ≤ maxFileSize + sfd.attrSize
  no_need : sfd.needUpdateHmac = false
  may_write : sfd.flags.accessWrite = true → X.writable = true

/-- The descriptor is the old one but for its caches and the flags of an update. -/
structure SameHandle (sfd sfd' : Sfd D) : Prop where
  flags_eq : sfd'.flags = sfd.flags
  attr_eq : sfd'.attrSize = sfd.attrSize
  meta_eq : sfd'.metaData = sfd.metaData

/-- What a message leaves: a settled handle, and whether a copy to the backup is due. -/
structure After (K : Crypto D) (X : View D) (sfd : Sfd D) (due : Bool) (c : List UInt8) (p : Nat)
    (sfd' : Sfd D) (f : RawFile D) : Prop extends Settled K X c p sfd' f, SameHandle sfd sfd' where
  backup_eq : sfd'.updateBackup = due

section Settled

variable (h : Settled K X c p sfd f)
include h

theorem Settled.inUse : InUse K X c p sfd (X.seek f p) :=
  ⟨h.inside, f, h.kept, rfl⟩

/-- The caches of a settled handle may hold anything. -/
theorem Settled.caches (sid pos n : Nat) (due : Bool) {q : Nat} (hq : q ≤ c.length) :
    Settled K X c q { sfd with startBlockId := sid, seekPosition := pos, size := n, updateBackup := due } f :=
  { h with kept := h.kept.caches _ _ _ _ _, inside := hq }

theorem Settled.after (sid pos n : Nat) {q : Nat} (hq : q ≤ c.length) :
    After K X sfd sfd.updateBackup c q (sfd.standing sid pos n) f :=
  ⟨h.caches sid pos n sfd.updateBackup hq, ⟨rfl, rfl, rfl⟩, rfl⟩

/-- An update that was sealed. -/
theorem Settled.sealed {q : Nat} (hu : Updated K X c' sfd f sfd' f') (hq : q ≤ c'.length)
    (hfit : c'.length ≤ maxFileSize + sfd.attrSize) :
    After K X sfd true c' q { sfd' with needUpdateHmac := false, updateBackup := true }
      (sealFile K sfd' f') where
  toSameHandle := { hu with }
  backup_eq := rfl
  kept := (hu.kept.seal true).caches sfd'.startBlockId sfd'.seekPosition sfd'.size true false
  holds := hu.kept.holds
  inside := hq
  fits := hfit.trans_eq (congrArg (maxFileSize + ·) hu.attr_eq.symm)
  no_need := rfl
  may_write := by
    intro hw
    rw [hu.flags_eq] at hw
    exact h.may_write hw

end Settled

section Rules

variable [DecidableEq D] {bad : RawFile D → Prop} {fpos n : Nat}

variable {Q : Post D Reply} {whence : Nat} {offset : Int}

omit [DecidableEq D] in
/-- The HMAC and the reply behind an update. -/
theorem wp_updateMac_reply {pos : Nat} {reply : Reply} (hu : Updated K X c' sfd f sfd' f')
    (hr : ⟨sfd'.seekPosition, sub32 sfd'.size sfd'.attrSize, []⟩ = reply)
    (hQ : Q (.ok reply, { sfd' with needUpdateHmac := false, updateBackup := true })
      (X.state (sealFile K sfd' f') pos)) :
    wp (agent bad) anyFiles ((do
      updateMac K
      objectReply [] : SsaM D Reply) sfd') Q (X.state f' pos) := by
  rw [wp_seq]
  rw [← hr] at hQ
  exact wp_updateMac hu.kept hu.need_hmac trivial trivial trivial hQ

/-- A write the agent refuses. -/
def WriteRefused (sfd : Sfd D) (p : Nat) (content : List UInt8) : Prop :=
  content.length > maxFileSize ∨ sfd.flags.accessWrite = false ∨
    (content ≠ [] ∧ maxFileSize + sfd.attrSize < p + content.length)

/-- The goal a SEEK message leads to, or the error it is refused with. -/
def seekObjectGoal (attrSize : Nat) (offset : Int) (p len whence : Nat) : Except TeeResult Nat :=
  if offset > maxFileSize then .error .badParameters
  else seekGoal attrSize (seekOffset attrSize offset whence) p len whence

/-- Where a seek leads that is not refused. -/
theorem seekGoal_ok {attrSize len t : Nat}
    (ht : seekGoal attrSize (seekOffset attrSize offset whence) p len whence = .ok t) :
    whence = 0 ∧ (t : Int) = attrSize + max offset 0 ∨
      whence = 1 ∧ (offset < 0 ∧ (t : Int) = max (p + offset) attrSize ∨
        0 ≤ offset ∧ (t : Int) = p + offset ∧ t ≤ maxFileSize + attrSize) ∨
      whence = 2 ∧ (t : Int) = max (len + offset) attrSize ∧
        (offset > 0 → len + offset ≤ maxFileSize + attrSize) := by
  unfold seekGoal seekOffset at ht
  rcases whence with _ | _ | _ | whence
  · simp only [whenceOf, seekTarget, if_true] at ht
    generalize ho : (if offset < 0 then 0 else offset) + (attrSize : Int) = o at ht
    split at ht
    · cases ht
    · rw [Except.ok.injEq] at ht
      omega
  · simp only [whenceOf, seekTarget] at ht
    rw [if_neg (Nat.succ_ne_zero _)] at ht
    split at ht
    · rw [Except.ok.injEq] at ht
      omega
    · split at ht
      · cases ht
      · rw [Except.ok.injEq] at ht
        omega
  · simp only [whenceOf, seekTarget] at ht
    rw [if_neg (Nat.succ_ne_zero _)] at ht
    split at ht
    · cases ht
    · rw [Except.ok.injEq] at ht
      omega
  · cases ht

theorem seekObjectGoal_le {attrSize len t : Nat} (hp : p ≤ len) (hl : len ≤ maxFileSize + attrSize)
    (ht : seekObjectGoal attrSize offset p len whence = .ok t) : t ≤ maxFileSize + attrSize := by
  unfold seekObjectGoal at ht
  split at ht
  · cases ht
  · have hgoal := seekGoal_ok ht
    omega

variable (h : Settled K X c p sfd f)
include h

theorem wp_ssaReadObject (hn : p + n < 4294967296)
    (hE : sfd.flags.accessRead = false ∨ n = 0 → ∀ e sfd',
      After K X sfd sfd.updateBackup c p sfd' f → Q (.error e, sfd') (X.seek f p))
    (hQ : ∀ sfd', After K X sfd sfd.updateBackup c (readStop c.length p n) sfd' f →
      Q (.ok ⟨readMark c.length p n, sub32 c.length sfd.attrSize, (c.drop p).take n⟩, sfd')
        (X.seek f (readStop c.length p n))) :
    wp (agent bad) anyFiles (ssaReadObject K fpos n sfd) Q (X.seek f p) := by
  unfold ssaReadObject
  rw [wp_modify_bind, wp_get_bind]
  by_cases hr : sfd.flags.accessRead = false
  · rw [if_pos hr, wp_throw]
    exact hE (.inl hr) _ _ (h.after sfd.startBlockId fpos sfd.size h.inside)
  · rw [if_neg hr, wp_seq]
    refine wp_ssaRead_any (h.kept.caches _ _ _ _ _).toRep h.inside hn trivial ?_ ?_
    · intro h0 sid
      exact hE (.inr h0) _ _ (h.after sid p c.length h.inside)
    · intro sid
      exact hQ _ (h.after sid _ c.length readStop_le)

theorem wp_ssaWriteObject
    (hE : WriteRefused sfd p d → ∀ e sfd', After K X sfd sfd.updateBackup c p sfd' f →
      Q (.error e, sfd') (X.seek f p))
    (hnil : d = [] → ∀ sfd', After K X sfd sfd.updateBackup c p sfd' f →
      Q (.ok ⟨fpos, sub32 sfd.size sfd.attrSize, []⟩, sfd') (X.seek f p))
    (hQ : d ≠ [] → ∀ sfd' f', After K X sfd true (overlay c p d) (p + d.length) sfd' f' →
      Q (.ok ⟨p, sub32 (c.length + d.length) sfd.attrSize, []⟩, sfd')
        (X.seek f' ((p + d.length)))) :
    wp (agent bad) anyFiles (ssaWriteObject K fpos d sfd) Q (X.seek f p) := by
  have hfit := h.fits
  have hin := h.inside
  have hattr := h.kept.attr_le
  unfold ssaWriteObject
  by_cases hbig : d.length > maxFileSize
  · rw [if_pos hbig, wp_throw]
    exact hE (.inl hbig) _ _ ⟨h, ⟨rfl, rfl, rfl⟩, rfl⟩
  · rw [if_neg hbig, wp_modify_bind, wp_get_bind]
    have hset := h.after sfd.startBlockId fpos sfd.size hin
    by_cases hacc : sfd.flags.accessWrite = false
    · rw [if_pos hacc, wp_throw]
      exact hE (.inr (.inl hacc)) _ _ hset
    · have hw := h.may_write (Bool.eq_true_of_not_eq_false hacc)
      rw [if_neg hacc, wp_seq]
      unfold ssaWriteObjectData
      rw [wp_seq]
      by_cases hd : d = []
      · subst hd
        exact wp_updateMac_skip h.no_need (hnil rfl _ hset)
      · rcases Nat.lt_or_ge (maxFileSize + sfd.attrSize) (p + d.length) with hover | hok
        · refine wp_ssaWriteWith_overflow hset.kept.toRep hd ?_ hover trivial ?_
          · simp only [maxFileSize] at *
            omega
          · exact hE (.inr (.inr ⟨hd, hover⟩)) _ _ (h.after sfd.startBlockId p c.length hin)
        · refine wp_ssaWrite_kept hset.kept hw hin hd hok trivial (fun _ => trivial) ?_
          intro sfd' f' hu hpos hsize
          rw [next_ok, when_pos (by rfl)]
          refine wp_updateMac hu.kept hu.need_hmac trivial trivial trivial ?_
          have hlen : (overlay c p d).length ≤ maxFileSize + sfd.attrSize := by
            rw [length_overlay]
            omega
          have hq := hQ hd _ _ (h.sealed { hu with } (by rw [length_overlay]; omega) hlen)
          have hreply : (⟨p, sub32 (c.length + d.length) sfd.attrSize, []⟩ : Reply) =
              ⟨sfd'.seekPosition, sub32 sfd'.size sfd'.attrSize, []⟩ := by
            rw [hpos, hsize, hu.attr_eq]
          rw [hreply] at hq
          exact hq

theorem wp_ssaSeekObject
    (hacc : ∀ t, seekObjectGoal sfd.attrSize offset p c.length whence = .ok t → c.length < t →
      X.writable = true)
    (hE : ∀ e, seekObjectGoal sfd.attrSize offset p c.length whence = .error e →
      ∀ sfd', After K X sfd sfd.updateBackup c p sfd' f → Q (.error e, sfd') (X.seek f p))
    (hin : ∀ t, seekObjectGoal sfd.attrSize offset p c.length whence = .ok t → t ≤ c.length →
      ∀ sfd', After K X sfd sfd.updateBackup c t sfd' f →
      Q (.ok ⟨t, sub32 c.length sfd.attrSize, []⟩, sfd') (X.seek f t))
    (hQ : ∀ t, seekObjectGoal sfd.attrSize offset p c.length whence = .ok t → c.length < t →
      ∀ sfd' f', After K X sfd true (resize c t) t sfd' f' →
      Q (.ok ⟨c.length + (t - c.length - 1)/holePerSize*holePerSize, sub32 t sfd.attrSize, []⟩, sfd')
        (X.seek f' t)) :
    wp (agent bad) anyFiles (ssaSeekObject K offset whence sfd) Q (X.seek f p) := by
  have hlim : ∀ t, seekObjectGoal sfd.attrSize offset p c.length whence = .ok t →
      t ≤ maxFileSize + sfd.attrSize :=
    fun t ht => seekObjectGoal_le h.inside h.fits ht
  unfold ssaSeekObject
  by_cases hbig : offset > maxFileSize
  · rw [if_pos hbig, wp_throw]
    exact hE _ (if_pos hbig) _ ⟨h, ⟨rfl, rfl, rfl⟩, rfl⟩
  · simp only [seekObjectGoal, if_neg hbig] at hacc hE hin hQ hlim
    rw [if_neg hbig, wp_get_bind, wp_seq]
    refine wp_ssaSeek_kept h.kept hlim hacc trivial (fun _ => trivial) ?_ ?_ ?_
    · intro e he
      exact hE e he _ (h.after sfd.startBlockId p c.length h.inside)
    · intro t ht hle
      rw [next_ok, wp_seq]
      refine wp_updateMac_skip h.no_need ?_
      exact hin t ht hle _ (h.after sfd.startBlockId t c.length hle)
    · intro t ht hlt sfd' f' hu hpos hsize
      have hlen : (resize c t).length = t := length_resize c t
      refine wp_updateMac_reply hu (by rw [hpos, hsize, hu.attr_eq]) ?_
      exact hQ t ht hlt _ _ (h.sealed hu (Nat.le_of_eq hlen.symm) (hlen.trans_le (hlim t ht)))

theorem wp_ssaTruncateObject {size : Int}
    (htorn : size ≤ maxFileSize → truncateLen sfd.attrSize size ≠ c.length → X.writable = false →
      ¬ CutsBlocks c.length p (truncateLen sfd.attrSize size) → ∀ reply sfd' f' q,
      Torn X (truncateLen sfd.attrSize size) sfd' f' → Q (.ok reply, sfd') (X.state f' q))
    (hlim : size ≤ maxFileSize → truncateLen sfd.attrSize size ≤ maxFileSize + sfd.attrSize)
    (hE : size > maxFileSize → Q (.error .badParameters, sfd) (X.seek f p))
    (hsame : truncateLen sfd.attrSize size = c.length →
      ∀ sfd', After K X sfd sfd.updateBackup c p sfd' f →
      Q (.ok ⟨p, sub32 c.length sfd.attrSize, []⟩, sfd') (X.seek f p))
    (hQ : truncateLen sfd.attrSize size ≠ c.length →
      (X.writable = true ∨ CutsBlocks c.length p (truncateLen sfd.attrSize size)) → ∀ sfd' f',
      After K X sfd true (cutTo c (truncateLen sfd.attrSize size) p) p sfd' f' →
      Q (.ok ⟨p, sub32 (truncateLen sfd.attrSize size) sfd.attrSize, []⟩, sfd') (X.seek f' p)) :
    wp (agent bad) anyFiles (ssaTruncateObject K fpos size sfd) Q (X.seek f p) := by
  have hfit := h.fits
  have hin := h.inside
  unfold ssaTruncateObject
  by_cases hbig : size > maxFileSize
  · rw [if_pos hbig, wp_throw]
    exact hE hbig
  · rw [if_neg hbig, wp_modify_bind, wp_get_bind, wp_seq]
    replace htorn := htorn (Int.not_lt.mp hbig)
    replace hlim := hlim (Int.not_lt.mp hbig)
    generalize truncateLen sfd.attrSize size = len at *
    have hset := h.after sfd.startBlockId fpos sfd.size hin
    unfold ignore
    rw [wp_attempt_bind]
    have hattr := h.kept.attr_le
    refine wp_ssaTruncate_kept hset.kept hin ?_ (fun _ => trivial) (fun _ => trivial) ?_ ?_ ?_
    · simp only [maxFileSize] at *
      omega
    · rintro hne (⟨hro, hno⟩ | hno | hno) e sfd' g q htear
      · rw [wp_pure, next_ok, wp_seq]
        refine wp_updateMac_torn (htear hro (hin.trans hfit)) fun sfd'' f' ht => ?_
        exact htorn hne hro hno _ _ _ _ ht
      · change maxFileSize + sfd.attrSize < len at hno
        omega
      · change len < p ∧ maxFileSize + sfd.attrSize < p at hno
        omega
    · intro heq
      rw [wp_pure, next_ok, wp_seq]
      refine wp_updateMac_skip h.no_need ?_
      exact hsame heq _ (h.after sfd.startBlockId p c.length hin)
    · intro hne hmay sfd' f' hu hpos hsize
      have hlen := length_cutTo c len p
      have hcut : (cutTo c len p).length ≤ maxFileSize + sfd.attrSize := by
        omega
      refine wp_updateMac_reply hu (by rw [hpos, hsize, hu.attr_eq]) ?_
      exact hQ hne hmay _ _ (h.sealed { hu with } (by rw [hlen]; omega) hcut)

end Rules

/-- A settled handle on any content that fits. -/
theorem sample_settled {c : List UInt8} (hc : c.length ≤ maxFileSize) {p : Nat}
    (hp : p ≤ c.length) :
    ∃ sfd f, Settled Crypto.numbering sampleView c p sfd f ∧ sfd.attrSize = 0 ∧
      sfd.flags = accessReadWrite := by
  have hk : Kept Crypto.numbering sampleView c (sampleSfd c) (sampleFile c) :=
    ⟨sample_rep (by omega), sampleBlocks_length c⟩
  exact ⟨_, _, ⟨hk.seal true, hk.holds, hp, hc, rfl, fun _ => rfl⟩, rfl, rfl⟩

end TeeOs.Ssa
