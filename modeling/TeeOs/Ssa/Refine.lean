import TeeOs.Ssa.Seek

/-!
# What a secure file holds, and a write to it

`contentOf` and `positionOf` read the logical content and position off the
storage: the blocks of the file behind the descriptor, decrypted, without the
padding of the last one. In every reached state they are what `Rep` says, and a
seek followed by a write overlays the data at the position of the seek.
-/

namespace TeeOs.Ssa

open Lib.Calls Lib.Bytes List Nat Option
open TeeOs.Ssa renaming cryptBlockSize → B

variable {D : Type}

/-- The decrypted data of a raw file without the padding of its last block. -/
def plainContent (K : Crypto D) (sfd : Sfd D) (f : RawFile D) : List UInt8 :=
  (cryptBlocks K.decrypt (f.data.length / cryptBlockSize) 0 f.data).take
    (f.data.length - (lastCryptBlockPaddingSize sfd).toNat)

/-- The logical content a descriptor gives access to. -/
def contentOf (K : Crypto D) (sfd : Sfd D) (s : Fs D) : Option (List UInt8) := do
  let o ← lookupFd sfd.nfd s.opened
  let f ← s.files o.name
  pure (plainContent K sfd f)

/-- The logical position at which the next transfer starts. -/
def positionOf (sfd : Sfd D) (s : Fs D) : Option Nat := do
  let o ← lookupFd sfd.nfd s.opened
  pure (o.pos - sfsMetadataSize)

/-- Run a function of the agent on a descriptor, against fault-free storage. -/
def serve {α : Type} (m : SsaM D α) (sfd : Sfd D) (s : Fs D) :
    (Except TeeResult α × Sfd D) × Fs D :=
  run (agent fun _ => True) (m sfd) s

/-- A descriptor in use: its file represents `c` and it stands at `p` inside it. -/
structure Reached (K : Crypto D) (X : View D) (c : List UInt8) (p : Nat) (sfd : Sfd D) (s : Fs D) :
    Prop where
  inside : p ≤ c.length
  stored : ∃ f, Rep K X c sfd f ∧ s = X.state f (sfsMetadataSize + p)

variable {K : Crypto D} {X : View D} {c d : List UInt8} {p : Nat} {sfd : Sfd D} {s : Fs D}

@[elab_as_elim]
theorem serve_of_wp {α : Type} {m : SsaM D α} {motive : (Except TeeResult α × Sfd D) × Fs D → Prop}
    (h : wp (agent fun _ => True) anyFiles (m sfd) (fun r t => motive (r, t)) s) :
    motive (serve m sfd s) := run_of_wp h

theorem serve_bind {α β : Type} (m : SsaM D α) (g : α → SsaM D β) (sfd : Sfd D) (s : Fs D) :
    serve (m >>= g) sfd s =
      match (serve m sfd s).1.1 with
      | .ok a => serve (g a) (serve m sfd s).1.2 (serve m sfd s).2
      | .error e => ((.error e, (serve m sfd s).1.2), (serve m sfd s).2) := by
  change run _ (Proc.bind m g sfd) s = _
  unfold Proc.bind
  rw [run_bind]
  unfold serve
  generalize run (agent fun _ => True) (m sfd) s = r
  rcases r with ⟨⟨_ | _, _⟩, _⟩ <;> rfl

theorem decryptBlocks_eq {n i : Nat} {plain data : List UInt8} (hp : plain.length = n*B)
    (hb : ∀ j, j < n → block B j data = K.encrypt (i+j) (block B j plain))
    (hd : data.length = n*B) : cryptBlocks K.decrypt n i data = plain := by
  induction n generalizing i plain data with
  | zero =>
    rw [length_eq_zero_iff.mp hp, length_eq_zero_iff.mp hd]
    rfl
  | succ n ih =>
    have hfirst := hb 0 (succ_pos n)
    simp only [block, zero_mul, drop_zero, add_zero] at hfirst
    have hlen : (plain.take B).length = B := by
      rw [length_take, hp, succ_mul]
      omega
    have hrest : cryptBlocks K.decrypt n (i+1) (data.drop B) = plain.drop B := by
      refine ih ?_ ?_ ?_
      · rw [length_drop, hp, succ_mul]
        omega
      · intro j hj
        have hnext := hb (j+1) (by omega)
        simp only [block, succ_mul] at hnext
        simp only [block, drop_drop]
        rw [add_comm B, hnext, add_assoc, add_comm 1]
      · rw [length_drop, hd, succ_mul]
        omega
    show K.decrypt i (data.take B) ++ _ = plain
    rw [hfirst, K.decrypt_encrypt i _ hlen, hrest, take_append_drop]

theorem Legible.plainContent_eq {f : RawFile D} {k : Nat} (h : Legible K X c k sfd f) :
    plainContent K sfd f = c := by
  have hB := cryptBlockSize_pos
  have hlen := h.data_length
  have hn : f.data.length / B = blocks B c.length := by
    rw [hlen, Nat.mul_div_cancel _ hB]
  have hplain : cryptBlocks K.decrypt (blocks B c.length) 0 f.data = pad B c := by
    refine decryptBlocks_eq (length_pad _) (fun j hj => ?_) hlen
    rw [zero_add]
    refine h.encrypts.block_eq j ?_
    rw [length_pad, ← succ_mul]
    exact mul_le_mul_right _ hj
  have hcover := le_blocks_mul hB c.length
  have hkeep : f.data.length - (lastCryptBlockPaddingSize sfd).toNat = c.length := by
    rw [h.padding_eq, Int.toNat_natCast, hlen]
    omega
  unfold plainContent
  rw [hn, hplain, hkeep]
  unfold pad resize
  rw [take_of_length_le hcover, take_left]

theorem Reached.contentOf_eq (h : Reached K X c p sfd s) : contentOf K sfd s = some c := by
  obtain ⟨f, hrep, rfl⟩ := h.stored
  simp only [contentOf, hrep.nfd_eq, View.lookupFd_state, bind_eq_bind, bind_some,
    View.state_files, View.files_name, hrep.legible.plainContent_eq]
  rfl

theorem Reached.positionOf_eq (h : Reached K X c p sfd s) : positionOf sfd s = some p := by
  obtain ⟨f, hrep, rfl⟩ := h.stored
  simp only [positionOf, hrep.nfd_eq, View.lookupFd_state, bind_eq_bind, bind_some]
  exact congrArg some (Nat.add_sub_cancel_left _ _)

theorem overlay_resize_max : overlay (resize c (max c.length p)) p d = overlay c p d := by
  refine ext_cell ?_ fun i => ?_
  · simp only [length_overlay, length_resize]
    omega
  · intro _
    simp only [cell_overlay, cell_resize]
    by_cases hi : i < max c.length p
    · rw [if_pos hi]
    · rw [if_neg hi, cell_of_le (l := c) (by omega)]

section Write

variable [DecidableEq D]

/-- A successful seek leaves a descriptor in use, its content extended to the new position. -/
theorem Reached.seek (h : Reached K X c p sfd s) {offset : Int} {whence : Nat}
    (hoff : offset ≤ int32Max) (hok : (serve (ssaSeek K offset whence) sfd s).1.1 = .ok ()) :
    (serve (ssaSeek K offset whence) sfd s).1.2.attrSize = sfd.attrSize ∧
    ∃ q, Reached K X (resize c (max c.length q)) q (serve (ssaSeek K offset whence) sfd s).1.2
      (serve (ssaSeek K offset whence) sfd s).2 := by
  obtain ⟨f, hrep, rfl⟩ := h.stored
  revert hok
  refine serve_of_wp (wp_ssaSeek hrep trivial h.inside hoff (fun _ => trivial) ?_ ?_ ?_)
  · intro e sfd' g q he
    cases he
  · intro t ht _
    refine ⟨rfl, t, ?_⟩
    rw [max_eq_left ht, resize_of_length rfl]
    exact ⟨ht, f, hrep.caches _ _ _ _ _, rfl⟩
  · intro t sfd' data ht hg _
    refine ⟨hg.dirtied.attr_eq, t, by rw [length_resize]; omega, _, ?_, rfl⟩
    rw [max_eq_right ht.le]
    exact hg.rep

theorem Reached.seek_inside (h : Reached K X c p sfd s) {q : Nat} (hq : q ≤ c.length) :
    (serve (ssaSeek K q 0) sfd s).1.1 = .ok () ∧
    Reached K X c q (serve (ssaSeek K q 0) sfd s).1.2 (serve (ssaSeek K q 0) sfd s).2 := by
  obtain ⟨f, hrep, rfl⟩ := h.stored
  refine serve_of_wp (wp_ssaSeekWith_set hrep.legible trivial hq ?_)
  exact ⟨rfl, hq, f, hrep.caches _ _ _ _ _, rfl⟩

/-- A write inside the limit overlays its data when the descriptor may write. -/
theorem Reached.write (h : Reached K X c p sfd s) (hd : d ≠ [])
    (hmax : p + d.length ≤ maxFileSize + sfd.attrSize) :
    (X.writable = true ∧ (serve (ssaWrite K d) sfd s).1.1 = .ok d.length ∧
      Reached K X (overlay c p d) (p + d.length) (serve (ssaWrite K d) sfd s).1.2
        (serve (ssaWrite K d) sfd s).2) ∨
    (X.writable = false ∧ (serve (ssaWrite K d) sfd s).1.1 = .error .badParameters) := by
  obtain ⟨f, hrep, rfl⟩ := h.stored
  cases hw : X.writable with
  | true =>
    refine Or.inl ⟨rfl, serve_of_wp (wp_ssaWriteWith
      hrep h.inside hd hmax trivial hw (fun _ => trivial) ?_)⟩
    intro sid l data _ hr
    exact ⟨rfl, by rw [length_overlay]; omega, _, hr, rfl⟩
  | false =>
    refine Or.inr ⟨rfl, serve_of_wp
      (wp_ssaWriteWith_readonly hrep h.inside hd hmax trivial hw trivial ?_)⟩
    intro sfd' q
    rfl

/-- A write refines the overlay of a byte array: after any successful seek, to `p`, a successful
write of `d` returns its length and overlays `d` at `p`, and a gap in front of `p` reads as zeros.
Through a descriptor that may write, it succeeds. -/
theorem ssaWrite_refines_overlay (h : Reached K X c p sfd s) {offset : Int} {whence : Nat}
    (hoff : offset ≤ int32Max) (hok : (serve (ssaSeek K offset whence) sfd s).1.1 = .ok ()) :
    let sfd₁ := (serve (ssaSeek K offset whence) sfd s).1.2
    let s₁ := (serve (ssaSeek K offset whence) sfd s).2
    ∃ q, positionOf sfd₁ s₁ = some q ∧ ∀ d, d ≠ [] → q + d.length ≤ maxFileSize + sfd.attrSize →
        (X.writable = true → (serve (ssaWrite K d) sfd₁ s₁).1.1 = .ok d.length) ∧
        ∀ n, (serve (ssaWrite K d) sfd₁ s₁).1.1 = .ok n →
          let sfd₂ := (serve (ssaWrite K d) sfd₁ s₁).1.2
          let s₂ := (serve (ssaWrite K d) sfd₁ s₁).2
          n = d.length ∧ positionOf sfd₂ s₂ = some (q + d.length) ∧
          ∃ c', contentOf K sfd₂ s₂ = some c' ∧ c' = overlay c q d ∧
            c'.length = max c.length (q + d.length) ∧
            ∀ i, cell c' i = if q ≤ i ∧ i < q + d.length then cell d (i-q) else cell c i := by
  obtain ⟨hattr, q, hq⟩ := h.seek hoff hok
  refine ⟨q, hq.positionOf_eq, fun d hd hmax => ?_⟩
  rcases hq.write hd (by rw [hattr]; exact hmax) with ⟨-, hret, hr⟩ | ⟨hw, hret⟩
  · refine ⟨fun _ => hret, fun n hn => ?_⟩
    rw [hret, Except.ok.injEq] at hn
    rw [overlay_resize_max] at hr
    exact ⟨hn.symm, hr.positionOf_eq, _, hr.contentOf_eq, rfl, length_overlay _ _ _,
      cell_overlay _ _ _⟩
  · refine ⟨fun hw' => absurd (hw.symm.trans hw') Bool.false_ne_true, fun n hn => ?_⟩
    rw [hret] at hn
    cases hn

end Write

section Sample

/-- A file opened for writing, alone in the storage. -/
def sampleView : View Nat where
  fs := ⟨fun _ => none, [(3, ⟨"object", 0, true⟩)]⟩
  name := "object"
  fd := 3
  writable := true
  isOpen := rfl

theorem object_ne_backup : "object" ≠ "object.backup" := by decide

def sampleMeta : MetaData := ⟨"object", "object", "object.backup", object_ne_backup⟩

def sampleHeader : MetaStorage Nat := ⟨⟨0, 0, 0, 0, 0, 0, 0⟩, none, none⟩

def sampleFile (c : List UInt8) : RawFile Nat := ⟨some sampleHeader, pad cryptBlockSize c⟩

def sampleBlocks (c : List UInt8) : List (BlockInfo Nat) :=
  (List.range (max 1 (blocks cryptBlockSize c.length))).map fun i =>
    ⟨i, Crypto.numbering.hash (block cryptBlockSize i (pad cryptBlockSize c))⟩

def sampleSfd (c : List UInt8) : Sfd Nat where
  nfd := 3
  startBlockId := 0
  flags := accessReadWrite
  seekPosition := 0
  size := c.length
  lastBlockSize := c.length % cryptBlockSize
  attrSize := 0
  updateBackup := false
  needUpdateHmac := false
  metaData := sampleMeta
  firstBlock := sampleBlocks c

theorem sampleBlocks_getElem? (c : List UInt8) {i : Nat} (hi : i < max 1 (blocks B c.length)) :
    (sampleBlocks c)[i]? = some ⟨i, Crypto.numbering.hash (block B i (pad B c))⟩ := by
  unfold sampleBlocks
  rw [getElem?_map, getElem?_range hi]
  rfl

theorem sampleBlocks_length (c : List UInt8) :
    (sampleBlocks c).length = max 1 (blocks B c.length) := by
  unfold sampleBlocks
  rw [length_map, length_range]

theorem sample_rep (hc : c.length ≤ 2*maxFileSize) :
    Rep Crypto.numbering sampleView c (sampleSfd c) (sampleFile c) where
  nfd_eq := rfl
  name_eq := rfl
  header := rfl
  encrypts := ⟨rfl, by rw [length_pad, mul_mod_left], fun _ _ => rfl⟩
  hashed := by
    refine ⟨length_pos_iff.mp ?_, ?_, fun i b hb => ?_, fun i hi => ?_⟩
    · show 0 < (sampleBlocks c).length
      rw [sampleBlocks_length]
      omega
    · show (pad B c).length ≤ (sampleBlocks c).length*B
      rw [length_pad, sampleBlocks_length]
      exact mul_le_mul_right _ (le_max_right _ _)
    · have hb' : (sampleBlocks c)[i]? = some b := hb
      have hlt := (List.getElem?_eq_some_iff.mp hb').1
      rw [sampleBlocks_length] at hlt
      rw [sampleBlocks_getElem? c hlt, some.injEq] at hb'
      rw [← hb']
    · have hi' : i*B + B ≤ (pad B c).length := hi
      rw [length_pad, ← succ_mul] at hi'
      have hlt := le_of_mul_le_mul_right hi' cryptBlockSize_pos
      exact sampleBlocks_getElem? c (by omega)
  last_eq := rfl
  length_le := hc
  attr_le := zero_le _

theorem sample_reached (hc : c.length ≤ 2*maxFileSize) {p : Nat} (hp : p ≤ c.length) :
    Reached Crypto.numbering sampleView c p (sampleSfd c)
      (sampleView.state (sampleFile c) (sfsMetadataSize + p)) :=
  ⟨hp, sampleFile c, sample_rep hc, rfl⟩

theorem ssaWrite_refines_overlay_sample :
    let r := serve (ssaSeek Crypto.numbering (2 : Nat) 0) (sampleSfd [7, 8, 9])
      (sampleView.state (sampleFile [7, 8, 9]) (sfsMetadataSize + 0))
    let w := serve (ssaWrite Crypto.numbering [5]) r.1.2 r.2
    w.1.1 = .ok 1 ∧ positionOf w.1.2 w.2 = some 3 ∧
      contentOf Crypto.numbering w.1.2 w.2 = some [7, 8, 5] := by
  have h := sample_reached (c := [7, 8, 9]) (by decide) (zero_le _)
  have hseek := h.seek_inside (q := 2) (by decide)
  obtain ⟨q, hq, hall⟩ := ssaWrite_refines_overlay h (by decide) hseek.1
  have hq2 : q = 2 := mem_unique hq hseek.2.positionOf_eq
  subst hq2
  obtain ⟨hret, hwrite⟩ := hall [5] (cons_ne_nil _ _) (by decide)
  obtain ⟨-, hpos, c', hc, hover, -⟩ := hwrite 1 (hret rfl)
  exact ⟨hret rfl, hpos, hc.trans (congrArg some hover)⟩

end Sample

end TeeOs.Ssa
