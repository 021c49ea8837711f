import TeeOs.Ssa.Message

/-!
# The law of a truncate message

`ssa_truncate_object` should leave the old content cut or extended to the target
length. `ssa_truncate` ends with a seek back to the old position, which extends
the file again when that position is behind the new end; and since its result is
not looked at, a call of the storage that fails is answered with success.
-/

namespace TeeOs.Ssa

open Lib.Calls Lib.Bytes Proc TeeOs.Ssa.Crypto

variable {D : Type} [DecidableEq D] {K : Crypto D} {X : View D} {c : List UInt8} {p : Nat}
  {sfd : Sfd D} {f : RawFile D} {size : Int}

theorem cutTo_eq_resize_iff {len : Nat} : cutTo c len p = resize c len ↔ p ≤ len := by
  constructor
  · intro h
    have hlen := congrArg List.length h
    unfold cutTo at hlen
    rw [length_resize, length_resize] at hlen
    omega
  · intro h
    unfold cutTo
    rw [Nat.max_eq_left h]
    exact resize_of_length (length_resize c len)

omit [DecidableEq D] in
/-- The content of a torn file is too short. -/
theorem Torn.contentOf {len q : Nat} (h : Torn X len sfd f) :
    ∃ d, contentOf K sfd (X.state f q) = some d ∧ (d.length < len ∨ len = 0 ∧ d = []) := by
  refine ⟨plainContent K sfd f, ?_, ?_⟩
  · simp only [Ssa.contentOf, h.nfd_eq, View.lookupFd_state, Option.bind_eq_bind, Option.bind_some,
      View.state_files, View.files_name]
    rfl
  · have hlen : (plainContent K sfd f).length ≤
        f.data.length - (lastCryptBlockPaddingSize sfd).toNat := List.length_take_le _ _
    rcases h.short with hshort | ⟨heq, hpos, hlast⟩
    · left
      omega
    · have hpad : (lastCryptBlockPaddingSize sfd).toNat = cryptBlockSize - sfd.lastBlockSize := by
        unfold lastCryptBlockPaddingSize
        rw [if_neg (Nat.ne_of_gt hpos)]
        exact Int.toNat_sub ..
      rcases Nat.eq_zero_or_pos len with h0 | hlen'
      · exact .inr ⟨h0, List.length_eq_zero_iff.mp (by omega)⟩
      · left
        omega

/-- The truncations to another length that leave the content asked for. -/
def Truncates (writable : Bool) (len p target : Nat) : Prop :=
  if writable then p ≤ target
  else target < len ∧ target % cryptBlockSize = 0 ∧ (p ≤ target ∨ target = 0)

/-- What a truncate message leaves when no call fails. -/
theorem Settled.truncateObject (h : Settled K X c p sfd f) (fpos : Nat) (hs : size ≤ maxFileSize)
    (hlen : truncateLen sfd.attrSize size ≤ maxFileSize + sfd.attrSize) :
    let len := truncateLen sfd.attrSize size
    let r := serve (ssaTruncateObject K fpos size) sfd (X.seek f p)
    (∃ reply, r.1.1 = .ok reply) ∧ ∃ d, contentOf K r.1.2 r.2 = some d ∧
      (len = c.length ∧ d = c ∨
        len ≠ c.length ∧ (X.writable = true ∨ CutsBlocks c.length p len) ∧ d = cutTo c len p ∨
        len ≠ c.length ∧ X.writable = false ∧ ¬ CutsBlocks c.length p len ∧
          (d.length < len ∨ len = 0 ∧ d = [])) := by
  refine serve_of_wp (wp_ssaTruncateObject h ?_ (fun _ => hlen) ?_ ?_ ?_)
  · intro _ hne hro hcut reply sfd' f' q htorn
    obtain ⟨d, hd, hshort⟩ := htorn.contentOf (K := K) (q := q)
    exact ⟨⟨_, rfl⟩, d, hd, .inr (.inr ⟨hne, hro, hcut, hshort⟩)⟩
  · intro hbig
    omega
  · intro heq sfd' hset
    exact ⟨⟨_, rfl⟩, c, hset.inUse.reached.contentOf_eq, .inl ⟨heq, rfl⟩⟩
  · intro hne hmay sfd' f' hset
    exact ⟨⟨_, rfl⟩, _, hset.inUse.reached.contentOf_eq, .inr (.inl ⟨hne, hmay, rfl⟩)⟩

/-- Without a fault, when the content is the one asked for. -/
theorem Settled.truncateObject_iff (h : Settled K X c p sfd f) (fpos : Nat)
    (hs : size ≤ maxFileSize)
    (hlen : truncateLen sfd.attrSize size ≤ maxFileSize + sfd.attrSize) :
    let len := truncateLen sfd.attrSize size
    let r := serve (ssaTruncateObject K fpos size) sfd (X.seek f p)
    contentOf K r.1.2 r.2 = some (resize c len) ↔
      len = c.length ∨ Truncates X.writable c.length p len := by
  obtain ⟨-, d, hd, hcase⟩ := h.truncateObject fpos hs hlen
  dsimp only at hd hcase ⊢
  rw [hd, Option.some.injEq]
  generalize truncateLen sfd.attrSize size = len at hcase ⊢
  unfold Truncates
  rcases hcase with ⟨heq, rfl⟩ | ⟨hne, hmay, rfl⟩ | ⟨hne, hro, hcut, hshort⟩
  · rw [heq, resize_of_length rfl]
    exact ⟨fun _ => .inl rfl, fun _ => rfl⟩
  · rw [cutTo_eq_resize_iff, or_iff_right hne]
    cases hw : X.writable with
    | true => rfl
    | false =>
      obtain ⟨hlt, hmod, hp⟩ := hmay.resolve_left (by rw [hw]; exact Bool.false_ne_true)
      exact iff_of_true hp ⟨hlt, hmod, .inl hp⟩
  · rw [or_iff_right hne, hro]
    have hres := length_resize c len
    constructor
    · rintro rfl
      have h0 : len = 0 := by omega
      exact ⟨by omega, by rw [h0]; rfl, .inr h0⟩
    · rintro ⟨hlt, hmod, hp | h0⟩
      · exact absurd ⟨hlt, hmod, hp⟩ hcut
      · rw [(hshort.resolve_left (by omega)).2]
        exact (List.length_eq_zero_iff.mp (hres.trans h0)).symm

omit [DecidableEq D] in
theorem run_ssaInfo_fault (e : Errno) (s : Fs D) (plan : List (Option Errno)) :
    run faultyAgent (ssaInfo sfd) (s, some e :: plan) =
      ((.error (getSpecErrno e .generic), sfd), s, plan) := rfl

/-- When the first call of the storage fails, the answer is success all the same. -/
theorem truncateObject_fault (fpos : Nat) (hs : size ≤ maxFileSize) (hn : sfd.needUpdateHmac = false)
    (e : Errno) (s : Fs D) (plan : List (Option Errno)) :
    ∃ reply, (run faultyAgent (ssaTruncateObject K fpos size sfd) (s, some e :: plan)).1.1 =
      .ok reply := by
  refine run_of_wp (V := faultyAgent) (I := fun _ => True) (p := ssaTruncateObject K fpos size sfd)
    (Q := fun (r : Except TeeResult Reply × Sfd D) _ => ∃ reply, r.1 = .ok reply) ?_
  unfold ssaTruncateObject
  rw [if_neg (by omega), wp_modify_bind, wp_get_bind, wp_seq]
  unfold ignore
  rw [wp_attempt_bind]
  unfold ssaTruncate
  rw [wp_seq]
  refine (wp_iff_run _ _ _).mpr ?_
  rw [run_ssaInfo_fault]
  unfold updateMac objectReply
  rw [next_error, wp_pure, next_ok, wp_seq, wp_get_bind,
    when_neg (by rw [hn]; exact Bool.false_ne_true)]
  exact ⟨_, rfl⟩

/-- An answer is an error exactly if an HMAC was due and could not be written, whatever the storage
answers and whatever `ssa_truncate` returned. -/
theorem truncateObject_error_iff {S : Type} (V : Device (Call D) Answer S) (s : S) (fpos : Nat)
    (hs : size ≤ maxFileSize) :
    let t := run V (ssaTruncate K (truncateLen sfd.attrSize size) { sfd with seekPosition := fpos }) s
    (∃ e, (run V (ssaTruncateObject K fpos size sfd) s).1.1 = .error e) ↔
      t.1.2.needUpdateHmac = true ∧
        ∃ e, (run V (ssaWriteMac K { t.1.2 with needUpdateHmac := false }) t.2).1.1 = .error e := by
  dsimp only
  rw [← wp_iff_run (V := V) (ssaTruncateObject K fpos size sfd) (fun r _ => ∃ e, r.1 = .error e)]
  unfold ssaTruncateObject
  rw [if_neg (by omega), wp_modify_bind, wp_get_bind, wp_seq]
  unfold ignore
  rw [wp_attempt_bind, wp_iff_run]
  generalize run V (ssaTruncate K _ _) s = t
  obtain ⟨⟨ret, sfd'⟩, s'⟩ := t
  unfold updateMac objectReply
  rw [wp_pure, next_ok, wp_seq, wp_get_bind]
  dsimp only
  cases hn : sfd'.needUpdateHmac with
  | false =>
    rw [when_neg Bool.false_ne_true, wp_pure, next_ok, wp_get_bind, wp_pure]
    exact ⟨nofun, nofun⟩
  | true =>
    rw [when_pos rfl, wp_modify_bind, wp_iff_run, eq_self, true_and]
    generalize run V (ssaWriteMac K _) s' = u
    obtain ⟨⟨e | _, sfd''⟩, s''⟩ := u
    · exact iff_of_true ⟨e, rfl⟩ ⟨e, rfl⟩
    · rw [next_ok, wp_get_bind, wp_pure]
      exact iff_of_false nofun nofun

section Sample

end Sample

end TeeOs.Ssa
