import TeeOs.Ssa.Message

/-!
# The law of a seek

A seek of an open object should lead to the position that its arguments name, not in front of
the data, with zeros up to it. `proc_seek_cur` clamps only for negative offsets, and when the
hole behind the end cannot be filled the position has been moved all the same. The sums that
the code forms fit the type `int32_t`.
-/

namespace TeeOs.Ssa

open Lib.Calls Lib.Bytes List

/-- The position that a seek names. -/
def seekLaw (attrSize : Nat) (offset : Int) (p len : Nat) : Whence → Int
  | .set => attrSize + max offset 0
  | .cur => max (attrSize : Int) (p + offset)
  | .fromEnd => max (attrSize : Int) (len + offset)

/-- The sums that `ssa_seek_object` and the functions `proc_seek_*` form. -/
def seekSums (attrSize : Nat) (offset : Int) (p len padding : Nat) : Whence → List Int
  | .set => [max offset 0 + attrSize, max offset 0 + attrSize + sfsMetadataSize]
  | .cur => [p + offset, (attrSize : Int) - p]
  | .fromEnd =>
    [len + offset, (attrSize : Int) - len,
      (if offset + len < attrSize then (attrSize : Int) - len else offset) - padding]

variable {D : Type} [DecidableEq D] {K : Crypto D} {X : View D} {c : List UInt8} {p : Nat}
  {sfd : Sfd D} {f : RawFile D} {offset : Int} {whence : Nat}

/-- The target of the code is the one of the law, but for a position in front of the data. -/
theorem seekGoal_eq_law {attrSize len t : Nat} {w : Whence} (hw : whenceOf whence = some w)
    (hcur : w = .cur → offset < 0 ∨ (attrSize : Int) ≤ p + offset)
    (ht : seekGoal attrSize (seekOffset attrSize offset whence) p len whence = .ok t) :
    (t : Int) = seekLaw attrSize offset p len w := by
  rcases seekGoal_ok ht with ⟨rfl, hgoal⟩ | ⟨rfl, hgoal⟩ | ⟨rfl, hgoal⟩
  · cases hw
    simp only [seekLaw]
    omega
  · cases hw
    have hcur := hcur rfl
    simp only [seekLaw]
    omega
  · cases hw
    simp only [seekLaw]
    omega

/-- What a seek has to do: a refusal changes nothing, and success leads to the position that the
law names, with the content extended by zeros. -/
structure SeekRight (K : Crypto D) (c : List UInt8) (p attrSize : Nat) (offset : Int) (whence : Nat)
    (r : (Except TeeResult Unit × Sfd D) × Fs D) : Prop where
  refused : ∀ e, r.1.1 = .error e →
    contentOf K r.1.2 r.2 = some c ∧ positionOf r.1.2 r.2 = some p
  done : r.1.1 = .ok () → ∃ (w : Whence) (t : Nat), whenceOf whence = some w ∧
    (t : Int) = seekLaw attrSize offset p c.length w ∧ t ≤ maxFileSize + attrSize ∧
    positionOf r.1.2 r.2 = some t ∧ contentOf K r.1.2 r.2 = some (resize c (max c.length t))

/-- The position does not stay in front of the data, and what lies behind the end can be
written. -/
def SeekFits (attrSize : Nat) (offset : Int) (p len whence : Nat) (writable : Bool) : Prop :=
  ∀ w, whenceOf whence = some w →
    (w = .cur → offset < 0 ∨ (attrSize : Int) ≤ p + offset) ∧
    ((len : Int) < seekLaw attrSize offset p len w →
      seekLaw attrSize offset p len w ≤ maxFileSize + attrSize → writable = true)

theorem whence_of_seekGoal {attrSize len t : Nat} {o : Int}
    (ht : seekGoal attrSize o p len whence = .ok t) : ∃ w, whenceOf whence = some w := by
  unfold seekGoal at ht
  cases hw : whenceOf whence with
  | none =>
    rw [hw] at ht
    cases ht
  | some w => exact ⟨w, rfl⟩

/-- Of a settled handle, every seek that fits follows the law. -/
theorem Settled.seekRight (h : Settled K X c p sfd f) (hoff : offset ≤ maxFileSize)
    (hfits : SeekFits sfd.attrSize offset p c.length whence X.writable) :
    SeekRight K c p sfd.attrSize offset whence
      (serve (ssaSeek K (seekOffset sfd.attrSize offset whence) whence) sfd (X.seek f p)) := by
  have hlim : ∀ t, seekGoal sfd.attrSize (seekOffset sfd.attrSize offset whence) p c.length whence = .ok t →
      t ≤ maxFileSize + sfd.attrSize := by
    intro t ht
    have hgoal : seekObjectGoal sfd.attrSize offset p c.length whence = .ok t := by
      unfold seekObjectGoal
      rw [if_neg (by omega)]
      exact ht
    exact seekObjectGoal_le h.inside h.fits hgoal
  have hlaw : ∀ t, seekGoal sfd.attrSize (seekOffset sfd.attrSize offset whence) p c.length whence = .ok t →
      ∃ w, whenceOf whence = some w ∧ (t : Int) = seekLaw sfd.attrSize offset p c.length w := by
    intro t ht
    obtain ⟨w, hw⟩ := whence_of_seekGoal ht
    exact ⟨w, hw, seekGoal_eq_law hw (hfits w hw).1 ht⟩
  refine serve_of_wp (wp_ssaSeek_kept h.kept hlim ?_ trivial (fun _ => trivial) ?_ ?_ ?_)
  · intro t ht hlt
    obtain ⟨w, hw, ht'⟩ := hlaw t ht
    have hle := hlim t ht
    exact (hfits w hw).2 (by omega) (by omega)
  · intro e _
    have hreached := (h.caches sfd.startBlockId p c.length sfd.updateBackup h.inside).inUse.reached
    exact ⟨fun _ _ => ⟨hreached.contentOf_eq, hreached.positionOf_eq⟩, nofun⟩
  · intro t ht hle
    obtain ⟨w, hw, ht'⟩ := hlaw t ht
    have hreached := (h.caches sfd.startBlockId t c.length sfd.updateBackup hle).inUse.reached
    refine ⟨nofun, fun _ => ⟨w, t, hw, ht', hlim t ht, hreached.positionOf_eq, ?_⟩⟩
    rw [Nat.max_eq_left hle, resize_of_length rfl]
    exact hreached.contentOf_eq
  · intro t ht hlt sfd' f' hu _ _
    obtain ⟨w, hw, ht'⟩ := hlaw t ht
    have hreached : Reached K X (resize c t) t sfd' (X.seek f' t) :=
      ⟨by rw [length_resize], f', hu.kept.toRep, rfl⟩
    refine ⟨nofun, fun _ => ⟨w, t, hw, ht', hlim t ht, hreached.positionOf_eq, ?_⟩⟩
    rw [Nat.max_eq_right hlt.le]
    exact hreached.contentOf_eq

omit [DecidableEq D] in
theorem seekSums_int32 (h : Settled K X c p sfd f) (hoff : offset ≤ maxFileSize)
    (hlow : -((2 : Int)^31) ≤ offset) (w : Whence) :
    ∀ x ∈ seekSums sfd.attrSize offset p c.length (lastCryptBlockPaddingSize sfd).toNat w,
      -((2 : Int)^31) ≤ x ∧ x < 2^31 := by
  have hpad : (lastCryptBlockPaddingSize sfd).toNat < cryptBlockSize := by
    rw [h.kept.legible.padding_eq, Int.toNat_natCast]
    unfold blocks cryptBlockSize
    omega
  have hin := h.inside
  have hfit := h.fits
  have hattr := h.kept.attr_le
  simp only [maxFileSize, cryptBlockSize] at hoff hfit hattr hpad
  intro x hx
  cases w with
  | set =>
    simp only [seekSums, sfsMetadataSize, mem_cons, not_mem_nil, or_false] at hx
    omega
  | cur =>
    simp only [seekSums, mem_cons, not_mem_nil, or_false] at hx
    omega
  | fromEnd =>
    simp only [seekSums, mem_cons, not_mem_nil, or_false] at hx
    split at hx <;> omega

/-- An admitted seek of a settled handle that fits follows the law, and the sums it forms do not
overflow. -/
theorem ssaSeek_law (h : Settled K X c p sfd f) (hoff : offset ≤ maxFileSize)
    (hlow : -((2 : Int)^31) ≤ offset)
    (hfits : SeekFits sfd.attrSize offset p c.length whence X.writable) :
    SeekRight K c p sfd.attrSize offset whence
        (serve (ssaSeek K (seekOffset sfd.attrSize offset whence) whence) sfd
          (X.state f (sfsMetadataSize + p))) ∧
      ∀ w, ∀ x ∈ seekSums sfd.attrSize offset p c.length (lastCryptBlockPaddingSize sfd).toNat w,
        -((2 : Int)^31) ≤ x ∧ x < 2^31 :=
  ⟨h.seekRight hoff hfits, seekSums_int32 h hoff hlow⟩

section Sample

theorem ssaSeek_law_sample :
    ∃ (sfd : Sfd Nat) (f : RawFile Nat), Settled Crypto.numbering sampleView [7, 8, 9] 1 sfd f ∧
      SeekRight Crypto.numbering [7, 8, 9] 1 sfd.attrSize 2 2
        (serve (ssaSeek Crypto.numbering (seekOffset sfd.attrSize 2 2) 2) sfd
          (sampleView.state f (sfsMetadataSize + 1))) := by
  obtain ⟨sfd, f, h, ha, -⟩ := sample_settled (c := [7, 8, 9]) (by decide) (p := 1) (by decide)
  refine ⟨sfd, f, h, (ssaSeek_law h (by decide) (by decide) ?_).1⟩
  intro w hw
  cases hw
  exact ⟨nofun, fun _ _ => rfl⟩

/-- A handle as `open_object` leaves it: behind the head of its attributes, in front of the data. -/
theorem sample_behind_head : ∃ (sfd : Sfd Nat) (f : RawFile Nat),
      Settled Crypto.numbering sampleView (List.replicate 50 7) 44 sfd f ∧ sfd.attrSize = 46 := by
  obtain ⟨sfd, f, h, -, -⟩ := sample_settled (c := List.replicate 50 7) (by decide) (p := 44) (by decide)
  refine ⟨{ sfd with attrSize := 46 }, f, { h with kept := ⟨?_, h.kept.list_eq⟩, fits := ?_ },
    rfl⟩
  · exact { h.kept.toRep with attr_le := show 46 ≤ maxFileSize by decide }
  · show 50 ≤ maxFileSize + 46
    decide

/-- A cipher and digests that leave everything as it is. -/
def plainCrypto : Crypto (List UInt8) where
  zero := []
  encrypt _ l := l
  decrypt _ l := l
  hash l := l
  hmacBlocks := List.flatten
  hmacHeader _ := []
  hashName _ _ := []
  length_encrypt _ _ h := h
  decrypt_encrypt := Crypto.numbering.decrypt_encrypt

/-- The file of one byte, opened for reading, at its end. -/
def readOnlyView : View (List UInt8) where
  fs := ⟨fun _ => none, [(3, ⟨"object", 0, false⟩)]⟩
  name := "object"
  fd := 3
  writable := false
  isOpen := rfl

def oneByteFile : RawFile (List UInt8) :=
  ⟨some ⟨⟨0, 0, 0, 0, 0, [], 0⟩, none, none⟩, pad cryptBlockSize [7]⟩

def oneByteSfd : Sfd (List UInt8) where
  nfd := 3
  startBlockId := 0
  flags := { accessReadWrite with accessWrite := false }
  seekPosition := 1
  size := 1
  lastBlockSize := 1
  attrSize := 0
  updateBackup := false
  needUpdateHmac := false
  metaData := sampleMeta
  firstBlock := [⟨0, pad cryptBlockSize [7]⟩]

def oneByteState : Fs (List UInt8) := readOnlyView.state oneByteFile (sfsMetadataSize + 1)

/-- A seek by 0 stays in front of the data, and one that fails at a hole has moved the position
and the end. -/
theorem ssaSeek_unlawful : (∃ (sfd : Sfd Nat) (f : RawFile Nat),
      Settled Crypto.numbering sampleView (List.replicate 50 7) 44 sfd f ∧
      ¬ SeekRight Crypto.numbering (List.replicate 50 7) 44 sfd.attrSize 0 1
        (serve (ssaSeek Crypto.numbering (seekOffset sfd.attrSize 0 1) 1) sfd
          (sampleView.state f (sfsMetadataSize + 44)))) ∧
    contentOf plainCrypto oneByteSfd oneByteState = some [7] ∧
    positionOf oneByteSfd oneByteState = some 1 ∧
    ¬ SeekRight plainCrypto [7] 1 0 5 0
      (serve (ssaSeek plainCrypto (seekOffset 0 5 0) 0) oneByteSfd oneByteState) := by
  constructor
  · obtain ⟨sfd, f, h, ha⟩ := sample_behind_head
    refine ⟨sfd, f, h, fun hright => ?_⟩
    obtain ⟨r, hr, hok, hpos⟩ : ∃ r, serve (ssaSeek Crypto.numbering (seekOffset sfd.attrSize 0 1) 1) sfd
        (sampleView.state f (sfsMetadataSize + 44)) = r ∧ r.1.1 = .ok () ∧
        positionOf r.1.2 r.2 = some 44 := by
      refine ⟨_, rfl, ?_⟩
      refine serve_of_wp (wp_ssaSeek_inside h.kept.toRep (t := 44) trivial rfl ?_ (by decide) ?_)
      · rw [ha]
        decide
      · have hreached := (h.caches sfd.startBlockId 44 50 sfd.updateBackup h.inside).inUse.reached
        exact ⟨rfl, hreached.positionOf_eq⟩
    rw [hr] at hright
    obtain ⟨w, t, hw, ht, -, hpos', -⟩ := hright.done hok
    cases hw
    rw [hpos] at hpos'
    cases hpos'
    rw [ha] at ht
    exact absurd ht (by decide)
  · refine ⟨by decide +kernel, by decide +kernel, fun hright => ?_⟩
    have hmoved : positionOf (serve (ssaSeek plainCrypto (seekOffset 0 5 0) 0) oneByteSfd oneByteState).1.2
        (serve (ssaSeek plainCrypto (seekOffset 0 5 0) 0) oneByteSfd oneByteState).2 = some 0 := by
      decide +kernel
    generalize serve (ssaSeek plainCrypto (seekOffset 0 5 0) 0) oneByteSfd oneByteState = r at hright hmoved
    cases hr : r.1.1 with
    | error e => exact absurd (hmoved.symm.trans (hright.refused e hr).2) (by decide)
    | ok u =>
      obtain ⟨w, t, hw, ht, -, hpos, -⟩ := hright.done hr
      cases hw
      rw [hmoved] at hpos
      cases hpos
      exact absurd ht (by decide)

end Sample

end TeeOs.Ssa
