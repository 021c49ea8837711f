import TeeOs.Ssa.WriteLoop

/-!
# Writing a secure file

`ssa_write` at a position inside the file overlays the content, and at a
position past the end the gap is filled with zeros first. The stored size is
advanced by the written count whether or not the file grew.
-/

namespace TeeOs.Ssa

open Lib.Calls Lib.Bytes List Proc Nat
open TeeOs.Ssa renaming cryptBlockSize → B

variable {D : Type} {bad : RawFile D → Prop}
  {J : Files D → Prop} {K : Crypto D} {X : View D} {c : List UInt8}
  {sfd : Sfd D} {f : RawFile D} {p : Nat} {d : List UInt8}

/-- The file after `ssa_reset_mac`. -/
def clearMac (f : RawFile D) : RawFile D :=
  { f with header := f.header.map fun m => { m with dataHmac := none } }

/-- The file with other data, whose seal is cleared. -/
abbrev RawFile.unsealed (f : RawFile D) (data : List UInt8) : RawFile D :=
  { clearMac f with data := data }

/-- Whatever the data become, the files stay acceptable. -/
abbrev Unsealing (J : Files D → Prop) (X : View D) (f : RawFile D) : Prop :=
  ∀ data, J (X.files (f.unsealed data))

/-- The failures are accepted. -/
abbrev Fails {α : Type} (X : View D) (Q : Post D α) : Prop :=
  ∀ e sfd' g q, Q (.error e, sfd') (X.state g q)

/-- The descriptor after a write of `n` bytes at `p` that left `len` bytes of content. -/
def afterWrite (sfd : Sfd D) (c : List UInt8) (p : Nat) (d : List UInt8) (sid : Nat)
    (l : List (BlockInfo D)) : Sfd D :=
  { sfd with
    startBlockId := sid
    seekPosition := p
    size := c.length + d.length
    lastBlockSize := (overlay c p d).length % cryptBlockSize
    updateBackup := false
    needUpdateHmac := true
    firstBlock := l }

/-- The descriptor after a write of `d` at `p` that the storage refused. -/
def afterRefusal (sfd : Sfd D) (c : List UInt8) (p : Nat) (d : List UInt8) (sid : Nat) : Sfd D :=
  { sfd with
    startBlockId := sid
    seekPosition := p
    size := c.length
    lastBlockSize := (overlay c p d).length % cryptBlockSize
    updateBackup := false }

/-- A file that is shorter than `len`, or ends there while the descriptor has a part of a block. -/
structure Torn (X : View D) (len : Nat) (sfd : Sfd D) (f : RawFile D) : Prop where
  nfd_eq : sfd.nfd = X.fd
  name_eq : sfd.metaData.curEncryptedFileId = X.name
  header : f.header.isSome
  ids : Numbered sfd.firstBlock
  nonempty : sfd.firstBlock ≠ []
  short : f.data.length < len ∨
    f.data.length = len ∧ 0 < sfd.lastBlockSize ∧ sfd.lastBlockSize < cryptBlockSize

/-- The failures are accepted; those for want of the right to write leave the file torn. -/
abbrev Tears {α : Type} (X : View D) (len : Nat) (Q : Post D α) : Prop :=
  ∀ e sfd' g q, (X.writable = false → Torn X len sfd' g) → Q (.error e, sfd') (X.state g q)

theorem Rep.torn {len : Nat} (h : Rep K X c sfd f) (hlen : f.data.length < len) :
    Torn X len sfd f :=
  { h.toStored, h.hashed with short := .inl hlen }

theorem isSome_clearMac (h : f.header.isSome) : (clearMac f).header.isSome := by
  unfold clearMac
  rwa [Option.isSome_map]

/-- What a refused write leaves. -/
theorem Rep.torn_refusal {len sid : Nat} (h : Rep K X c sfd f)
    (hlen : f.data.length < len ∨ f.data.length = len ∧ 0 < (overlay c p d).length % B) :
    Torn X len (afterRefusal sfd c p d sid) (clearMac f) :=
  { h.toStored, h.hashed with
    header := isSome_clearMac h.header
    short := hlen.imp_right fun hl => ⟨hl.1, hl.2, mod_lt _ cryptBlockSize_pos⟩ }

theorem wp_ssaResetMac {Q : Post D Unit} {pos : Nat}
    (hn : sfd.metaData.curEncryptedFileId = X.name) (hh : f.header.isSome) (hJ : J (X.files f))
    (hJ' : J (X.files (clearMac f))) (hQ : Q (.ok (), sfd) (X.state (clearMac f) pos)) :
    wp (agent bad) J (ssaResetMac sfd) Q (X.state f pos) := by
  obtain ⟨m, hm⟩ := Option.isSome_iff_exists.mp hh
  have hclear : clearMac f = { f with header := some { m with dataHmac := none } } := by
    unfold clearMac
    rw [hm]
    rfl
  rw [hclear] at hJ' hQ
  exact wp_putDataHmac hn hm hJ hJ' hQ

theorem Rep.u32_limit (h : Rep K X c sfd f) : u32 (maxFileSize + sfd.attrSize) =
    maxFileSize + sfd.attrSize := by
  have := h.attr_le
  refine u32_of_lt ?_
  simp only [maxFileSize] at *
  omega

variable {fill : Nat → Nat → SsaM D Unit} {Q : Post D Nat}

/-- Inside the file, the start of a write only resets the stored HMAC and the caches. -/
theorem wp_ssaInitWriteInfo {Q : Post D RwInfo} (h : Rep K X c sfd f) (hp : p ≤ c.length)
    (hmax : p + d.length ≤ maxFileSize + sfd.attrSize) (hJ : J (X.files f))
    (hJ' : J (X.files (clearMac f)))
    (hQ : Q (.ok (rwInfo p d.length), { sfd with
        seekPosition := p
        size := c.length
        lastBlockSize := (overlay c p d).length % B
        updateBackup := false })
      (X.seek (clearMac f) p)) :
    wp (agent bad) J (ssaInitWriteInfo fill d.length sfd) Q (X.seek f p) := by
  have hlim := h.u32_limit
  have hb : p + d.length < 4294967296 := by
    have := h.attr_le
    simp only [maxFileSize] at *
    omega
  unfold ssaInitWriteInfo getFileInfoFillHole
  rw [wp_seq, wp_seq]
  refine wp_ssaInfo h.legible hJ ?_
  rw [next_ok]
  rw [wp_get_bind]
  rw [u32_of_lt hb, hlim, if_neg (by omega), when_neg (by omega), wp_pure_bind, wp_pure, next_ok]
  have hlast : (if u32 (p + d.length) > c.length then
        { sfd with
          seekPosition := p
          size := c.length
          lastBlockSize := u32 (d.length + p) % B }
      else sfd.cached p c.length) =
      { sfd with
        seekPosition := p
        size := c.length
        lastBlockSize := (overlay c p d).length % B } := by
    rw [add_comm d.length p, u32_of_lt hb, length_overlay]
    by_cases hgt : p + d.length > c.length
    · rw [if_pos hgt, max_eq_right (by omega)]
    · rw [if_neg hgt, max_eq_left (by omega), ← h.last_eq]
  rw [wp_modify_bind, wp_seq]
  rw [hlast]
  refine wp_ssaResetMac h.name_eq h.header hJ hJ' ?_
  exact hQ

theorem transferTimes_eq (hd : d ≠ []) (hb : p + d.length + B < 4294967296) :
    transferTimes (actualCount (rwInfo p d.length) d.length) = blocks B (p + d.length) - p/B := by
  rw [actualCount_eq (length_pos_iff.mpr hd) hb, transferTimes_mul]

theorem Rep.round_zero (h : Rep K X c sfd f) (hp : p ≤ c.length) (lastBlockSize : Nat) :
    Round K X c p d (p/B) { sfd with
        seekPosition := p
        size := c.length
        lastBlockSize := lastBlockSize
        updateBackup := false }
      (clearMac f) (pad B c) := by
  refine ⟨{ h with header := isSome_clearMac h.header }, ?_, fun i => ?_, rfl⟩
  · rw [length_pad, max_eq_left]
    refine mul_le_mul_right _ ?_
    simp only [blocks, B]
    omega
  · rw [cell_pad cryptBlockSize_pos, if_neg (by omega)]

variable [DecidableEq D]

/-- All rounds of a write, from the start. -/
theorem wp_writeContentToFile {Q : Post D (Except TeeResult Unit × Nat)} {plain : List UInt8}
    (h : Round K X c p d (p/B) sfd f plain) (hp : p ≤ c.length)
    (hb : p + d.length + B < 4294967296) (hd : d ≠ []) (hw : X.writable = true)
    (hJ : ∀ data, J (X.files { f with data := data }))
    (hQ : ∀ sid l data, l.length = max sfd.firstBlock.length (blocks B (p + d.length)) →
      Stored K X (pad B (overlay c p d))
        { sfd with startBlockId := sid, firstBlock := l } { f with data := data } →
      Q (.ok (.ok (), d.length), { sfd with startBlockId := sid, firstBlock := l })
        (X.seek { f with data := data } (blocks B (p + d.length)*B))) :
    wp (agent bad) J (writeContentToFile K (rwInfo p d.length) d sfd) Q (X.seek f p) := by
  have hfirst := first_lt_blocks (p := p) hd
  have hzero : p/B*B ≤ p := div_mul_le_self p B
  unfold writeContentToFile
  rw [transferTimes_eq hd hb]
  refine wp_writeContentLoop hp (by omega) hd hw h (le_refl _) (by omega) (by omega) ?_ ?_ ?_ hJ hQ
  · rw [Nat.sub_eq_zero_of_le hzero, drop_zero]
  · rw [addBefore, if_pos rfl]
    omega
  · rw [max_eq_left hzero]

theorem wp_ssaWriteWith_nil {s : Fs D} (hQ : Q (.ok 0, sfd) s) :
    wp (agent bad) J (ssaWriteWith K fill [] sfd) Q s := hQ

/-- A write past the limit is refused before anything changes. -/
theorem wp_ssaWriteWith_overflow (h : Rep K X c sfd f) (hd : d ≠ [])
    (hlt : p + d.length < 4294967296) (hbig : maxFileSize + sfd.attrSize < p + d.length)
    (hJ : J (X.files f))
    (hQ : Q (.error .overflow, sfd.cached p c.length) (X.seek f p)) :
    wp (agent bad) J (ssaWriteWith K fill d sfd) Q (X.seek f p) := by
  have hlim := h.u32_limit
  have hpos := length_pos_iff.mpr hd
  unfold ssaWriteWith
  rw [if_neg (by omega), wp_seq]
  unfold ssaInitWriteInfo getFileInfoFillHole
  rw [wp_seq, wp_seq]
  refine wp_ssaInfo h.legible hJ ?_
  rw [next_ok]
  rw [wp_get_bind]
  rw [u32_of_lt hlt, hlim, if_pos (by omega), wp_throw]
  exact hQ

variable (h : Rep K X c sfd f) (hp : p ≤ c.length) (hd : d ≠ [])
  (hmax : p + d.length ≤ maxFileSize + sfd.attrSize) (hJ : J (X.files f))
include h hp hd hmax hJ

/-- `ssa_write` inside the file, on a descriptor opened for writing. -/
theorem wp_ssaWriteWith (hw : X.writable = true) (hJ' : Unsealing J X f) (hQ : ∀ sid l data,
      l.length = max sfd.firstBlock.length (blocks B (p + d.length)) →
      Rep K X (overlay c p d) (afterWrite sfd c p d sid l) (f.unsealed data) →
      Q (.ok d.length, afterWrite sfd c p d sid l) (X.seek (f.unsealed data) ((p + d.length)))) :
    wp (agent bad) J (ssaWriteWith K fill d sfd) Q (X.seek f p) := by
  have hattr := h.attr_le
  have hlen := h.length_le
  have hb : p + d.length + B < 4294967296 := by
    simp only [maxFileSize, B] at *
    omega
  have hpos := length_pos_iff.mpr hd
  unfold ssaWriteWith
  rw [if_neg (by omega), wp_seq]
  refine wp_ssaInitWriteInfo h hp hmax hJ (hJ' f.data) ?_
  rw [next_ok, wp_seq]
  refine wp_writeContentToFile (h.round_zero hp _) hp hb hd hw hJ' ?_
  intro sid l data hl hstored
  have hrep : Rep K X (overlay c p d) (afterWrite sfd c p d sid l) (f.unsealed data) := by
    refine ⟨⟨h.nfd_eq, h.name_eq, hstored.header, hstored.encrypts, hstored.hashed⟩, rfl, ?_, hattr⟩
    rw [length_overlay]
    omega
  rw [next_ok]
  unfold ssaWriteOut
  rw [wp_get_bind, wp_attempt_bind, wp_seq, wp_ofExcept_ok, next_ok, rwInfo_eq (by omega)]
  by_cases hend : (p + d.length) % B ≠ 0
  · rw [when_pos hend]
    refine wp_ssaFsFseek h.nfd_eq (q := sfsMetadataSize + (p + d.length))
      (hJ' data) (by simp only [Fs.seekBase]; omega) ?_
    exact hQ sid l data hl hrep
  · have hstop : blocks B (p + d.length)*B = p + d.length := by
      simp only [blocks, B] at *
      omega
    rw [when_neg hend, wp_pure, hstop]
    exact hQ sid l data hl hrep

/-- A write through a descriptor opened for reading fails, after the stored HMAC was reset. -/
theorem wp_ssaWriteWith_readonly (hw : X.writable = false) (hJ' : J (X.files (clearMac f)))
    (hQ : ∀ sid q, Q (.error .badParameters, afterRefusal sfd c p d sid) (X.state (clearMac f) q)) :
    wp (agent bad) J (ssaWriteWith K fill d sfd) Q (X.seek f p) := by
  have hattr := h.attr_le
  have hb : p + d.length + B < 4294967296 := by
    simp only [maxFileSize, B] at *
    omega
  have hfirst := first_lt_blocks (p := p) hd
  have hzero : p/B*B ≤ p := div_mul_le_self p B
  have hpos := length_pos_iff.mpr hd
  have hround := h.round_zero (d := d) hp ((overlay c p d).length % B)
  obtain ⟨n, hn⟩ : ∃ n, blocks B (p + d.length) - p/B = n+1 :=
    ⟨_, (succ_pred_eq_of_pos (by omega)).symm⟩
  have hsrc : d = d.drop (p/B*B - p) := by
    rw [Nat.sub_eq_zero_of_le hzero, drop_zero]
  unfold ssaWriteWith
  rw [if_neg (by omega), wp_seq]
  refine wp_ssaInitWriteInfo h hp hmax hJ hJ' ?_
  rw [next_ok, wp_seq]
  unfold writeContentToFile
  rw [transferTimes_eq hd hb, hn]
  unfold writeContentLoop
  rw [wp_attempt_bind]
  nth_rewrite 2 [hsrc]
  refine wp_sendBlock_readonly hp (by omega) ?_ hround hw (le_refl _) hfirst ?_ hJ' ?_
  · rw [beq_iff_eq]
    omega
  · rw [beq_iff_eq]
    omega
  · intro sid q
    exact hQ sid q

end TeeOs.Ssa
