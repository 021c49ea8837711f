import TeeOs.Ssa.Read

/-!
# Truncation

`ssa_truncate` of `sfs.c`: read back the partial block, prune the block list,
cut the raw file to whole blocks, write the tail again through the encrypting
writer, and seek back to the old position, which can extend the file again.
-/

namespace TeeOs.Ssa

open Lib.Calls Lib.Bytes List Proc Nat
open TeeOs.Ssa renaming cryptBlockSize → B

section Model

variable {D : Type} [DecidableEq D]

/-- The list part of `ssa_truncate_handle`. Its walk stops at the block `headBlocks`, unless that
is the last one, or at the last one; a last block of no bytes is dropped, but never the only one. -/
def pruneBlocks (headBlocks appendSize : Nat) (l : List (BlockInfo D)) : List (BlockInfo D) :=
  let head := l.dropLast.findIdx fun b => b.blockId = headBlocks
  let l := if head < l.length - 1 then l.take (head+1) else l
  if appendSize = 0 ∧ head ≠ 0 then l.take head else l

variable (K : Crypto D)

/-- `handle_truncation`; the result is the buffer. A short read without an error skips the cut. -/
def handleTruncation (endOffset headBlocks : Nat) : SsaM D (List UInt8) := do
  if cryptBlockSize * headBlocks > int32Max then throw .badParameters
  else do
    ssaSeek K (cryptBlockSize * headBlocks : Nat) 0
    let data ← ssaRead K endOffset
    let buffer := overlay (replicate cryptBlockSize 0) 0 data
    if data.length < endOffset then pure buffer
    else do
      let sfd ← get
      ssaFsFtruncate (getSpecErrno · .truncateObject) sfd.metaData.curEncryptedFileId
        (cryptBlockSize * headBlocks + sfsMetadataSize)
      modify fun sfd => { sfd with lastBlockSize := 0 }
      pure buffer

/-- The writes of `handle_supplement`: whole blocks, the first from the buffer and the others of
zeros, and the rest. -/
def supplementLoop (K : Crypto D) : Nat → List UInt8 → Nat → SsaM D Unit
  | 0, _, _ => pure ()
  | fuel+1, buffer, appendSize =>
    if appendSize > cryptBlockSize then do
      let count ← ssaWrite K buffer
      if count ≠ cryptBlockSize then pure ()
      else supplementLoop K fuel (replicate cryptBlockSize 0) (appendSize - cryptBlockSize)
    else do
      let _ ← ssaWrite K (buffer.take appendSize)
      pure ()

def handleSupplement (buffer : List UInt8) (headBlocks appendSize : Nat) : SsaM D Unit := do
  if cryptBlockSize * headBlocks > int32Max then throw .badParameters
  else do
    ssaSeek K (cryptBlockSize * headBlocks : Nat) 0
    if appendSize = 0 then modify fun sfd => { sfd with needUpdateHmac := true }
    else supplementLoop K (appendSize / cryptBlockSize + 1) buffer appendSize

def handleTruncationSupplement (endOffset headBlocks appendSize : Nat) : SsaM D Unit := do
  let buffer ← handleTruncation K endOffset headBlocks
  handleSupplement K buffer headBlocks appendSize

def ssaTruncateHandle (len fileLen : Nat) : SsaM D Unit := do
  if len > fileLen then
    handleTruncationSupplement K (fileLen % cryptBlockSize) (fileLen / cryptBlockSize)
      (len - fileLen + fileLen % cryptBlockSize)
  else do
    modify fun sfd => { sfd with
      firstBlock := pruneBlocks (len / cryptBlockSize) (len % cryptBlockSize) sfd.firstBlock }
    handleTruncationSupplement K (len % cryptBlockSize) (len / cryptBlockSize)
      (len % cryptBlockSize)

def ssaTruncate (len : Nat) : SsaM D Unit := do
  let (curPos, fileLen) ← ssaInfo
  if len = fileLen then pure ()
  else do
    ssaTruncateHandle K len fileLen
    if curPos > int32Max then throw .badParameters
    else do
      ssaSeek K curPos 0
      modify fun sfd => { sfd with seekPosition := curPos, size := len }

end Model

variable {D : Type} {bad : RawFile D → Prop} {J : Files D → Prop}
  {K : Crypto D} {X : View D} {c : List UInt8} {sfd : Sfd D} {f : RawFile D} {p q len b : Nat}

section Prune

variable {l : List (BlockInfo D)}

theorem Numbered.take (ids : Numbered l) (n : Nat) : Numbered (l.take n) := by
  intro i x hx
  rw [getElem?_take] at hx
  split at hx
  · exact ids i x hx
  · cases hx

theorem findIdx_dropLast (ids : Numbered l) {b : Nat} (hb : b < l.length) :
    l.dropLast.findIdx (fun x => decide (x.blockId = b)) = b := by
  have hlen : l.dropLast.length = l.length - 1 := length_dropLast
  have hids : Numbered l.dropLast := by
    rw [dropLast_eq_take]
    exact ids.take _
  by_cases hlt : b < l.length - 1
  · exact findIdx_eq hids (by omega)
  have hnone : l.dropLast.findIdx (fun x => decide (x.blockId = b)) = l.dropLast.length := by
    refine findIdx_eq_length.mpr fun x hx => ?_
    obtain ⟨j, hj, rfl⟩ := mem_iff_getElem.mp hx
    have hid := hids j _ (getElem?_eq_getElem hj)
    simp only [hid, decide_eq_false_iff_not]
    omega
  omega

/-- The walk keeps exactly the blocks of the shorter content, and at least one. -/
theorem pruneBlocks_eq (ids : Numbered l) {n : Nat}
    (hl : l.length = max 1 (blocks B n)) (hlen : len < n) :
    pruneBlocks (len/B) (len % B) l = l.take (max 1 (blocks B len)) := by
  have hhead : len/B < l.length := by
    rw [hl]
    simp only [blocks, B]
    omega
  have hblocks : blocks B len = len/B + if len % B = 0 then 0 else 1 := by
    split
    · simp only [blocks, B] at *
      omega
    · simp only [blocks, B] at *
      omega
  unfold pruneBlocks
  rw [findIdx_dropLast ids hhead, hblocks]
  generalize len/B = b at *
  by_cases h0 : len % B = 0
  · by_cases hb : b = 0
    · subst hb
      rw [if_neg (by omega), if_pos h0]
      by_cases hone : 0 < l.length - 1
      · rw [if_pos hone]
        rfl
      · rw [if_neg hone, take_of_length_le (by omega)]
    · rw [if_pos ⟨h0, hb⟩, if_pos h0, max_eq_right (by omega)]
      by_cases hlast : b < l.length - 1
      · rw [if_pos hlast, take_take, min_eq_left (by omega)]
        rfl
      · rw [if_neg hlast]
        rfl
  · rw [if_neg (by omega), if_neg h0, max_eq_right (by omega)]
    by_cases hlast : b < l.length - 1
    · rw [if_pos hlast]
    · rw [if_neg hlast, take_of_length_le (by omega)]

end Prune

/-- A descriptor whose list has one entry for each block, and one for an empty file. -/
structure Kept (K : Crypto D) (X : View D) (c : List UInt8) (sfd : Sfd D) (f : RawFile D) : Prop
    extends Rep K X c sfd f where
  list_eq : sfd.firstBlock.length = max 1 (blocks cryptBlockSize c.length)

theorem Kept.caches (h : Kept K X c sfd f) (sid pos n : Nat) (due need : Bool) :
    Kept K X c (sfd.caching sid pos n due need) f :=
  ⟨h.toRep.caches _ _ _ _ _, h.list_eq⟩

section Cut

theorem blocks_mul (b : Nat) : blocks B (b*B) = b := by
  simp only [blocks, B]
  omega

theorem pad_resize_mul (c : List UInt8) (b : Nat) : pad B (resize c (b*B)) = resize c (b*B) := by
  unfold pad
  rw [length_resize, blocks_mul]
  exact resize_of_length (length_resize _ _)

/-- Cutting the raw file to `b` whole blocks cuts the content. -/
theorem Legible.cut (h : Legible K X c q sfd f) (hb : b*B ≤ c.length) (hq : b ≤ q)
    (hl : b ≤ sfd.firstBlock.length) (hne : sfd.firstBlock ≠ []) (sid pos size : Nat) :
    Rep K X (resize c (b*B)) { sfd with
        startBlockId := sid, seekPosition := pos, size := size, lastBlockSize := 0 }
      { f with data := resize f.data (b*B) } := by
  have hpad := le_blocks_mul cryptBlockSize_pos c.length
  have hdata := h.data_length
  have hin : ∀ i, i*B + B ≤ b*B → i < b := by
    intro i hi
    rw [← succ_mul] at hi
    exact le_of_mul_le_mul_right hi cryptBlockSize_pos
  refine ⟨⟨h.nfd_eq, h.name_eq, h.header, ?_, ?_⟩, ?_, ?_, h.attr_le⟩
  · rw [pad_resize_mul]
    refine ⟨by rw [length_resize, length_resize], by rw [length_resize, mul_mod_left], ?_⟩
    intro i hi
    rw [length_resize] at hi
    rw [block_resize hi (by omega), block_resize hi (by omega),
      h.encrypts.block_eq i (by rw [length_pad]; omega)]
    unfold pad
    rw [block_resize (by omega) (by omega)]
  · refine ⟨hne, ?_, h.ids, fun i hi => ?_⟩
    · rw [length_resize]
      exact mul_le_mul_right _ hl
    · rw [length_resize] at hi
      rw [block_resize hi (by omega)]
      have hib := hin i hi
      exact h.hash_eq i (by omega)
  · rw [length_resize, mul_mod_left]
  · have := h.length_le
    rw [length_resize]
    omega

end Cut

variable [DecidableEq D] {e a : Nat}

/-- Reading back `e` bytes of block `b` and cutting the file in front of it. -/
theorem wp_handleTruncation {Q : Post D (List UInt8)} (h : Legible K X c q sfd f)
    (hbe : b*B + e ≤ c.length) (hq : blocks B (b*B + e) ≤ q)
    (hl : b ≤ sfd.firstBlock.length) (hne : sfd.firstBlock ≠ []) (hJ : J (X.files f))
    (hJ' : J (X.files { f with data := resize f.data (b*B) }))
    (hQ : ∀ sfd' pos, (∃ sid seekPosition size, sfd' = { sfd with
          startBlockId := sid, seekPosition := seekPosition, size := size, lastBlockSize := 0 }) →
      Rep K X (resize c (b*B)) sfd' { f with data := resize f.data (b*B) } →
      Q (.ok (overlay (replicate B 0) 0 ((c.drop (b*B)).take e)), sfd')
        (X.seek { f with data := resize f.data (b*B) } pos)) :
    wp (agent bad) J (handleTruncation K e b sfd) Q (X.seek f p) := by
  have hlen := h.length_le
  have hb : b ≤ q := by
    refine le_trans ?_ hq
    rw [← blocks_mul b]
    exact blocks_mono (by rw [blocks_mul]; omega)
  have hint : ¬ b*B > int32Max := by
    simp only [int32Max, maxFileSize] at *
    omega
  have hcut : ∀ sfd' pos, (∃ sid seekPosition size, sfd' = { sfd with
        startBlockId := sid, seekPosition := seekPosition, size := size }) →
      wp (agent bad) J ((do
        let sfd ← get
        ssaFsFtruncate (getSpecErrno · .truncateObject) sfd.metaData.curEncryptedFileId
          (b*B + sfsMetadataSize)
        modify fun sfd => { sfd with lastBlockSize := 0 }
        pure (overlay (replicate B 0) 0 ((c.drop (b*B)).take e)) :
          SsaM D (List UInt8)) sfd') Q (X.seek f pos) := by
    rintro sfd' pos ⟨sid, seekPosition, size, rfl⟩
    rw [wp_get_bind, wp_seq]
    refine wp_ssaFsFtruncate h.name_eq (le_add_left _ _) h.header ?_ ?_
    · rw [Nat.add_sub_cancel]
      exact hJ'
    · rw [Nat.add_sub_cancel, next_ok, wp_modify_bind, wp_pure]
      exact hQ _ pos ⟨sid, seekPosition, size, rfl⟩ (h.cut (by omega) hb hl hne _ _ _)
  unfold handleTruncation
  rw [mul_comm B b, if_neg hint, wp_seq]
  refine wp_ssaSeekWith_set h hJ (by omega) ?_
  rw [next_ok, wp_seq]
  have hread : ((c.drop (b*B)).take e).length = e := by
    rw [length_take, length_drop]
    omega
  by_cases he : e = 0
  · subst he
    refine wp_ssaRead_zero (h.caches _ _ _ _ _) hJ (by omega) ?_
    exact hcut _ _ ⟨_, _, _, rfl⟩
  · refine wp_ssaRead (h.caches _ _ _ _ _) hJ (by omega)
      (by omega) (by simp only [maxFileSize] at hlen; omega) ?_ ?_
    · rw [min_eq_left hbe]
      exact hq
    · intro sid
      rw [next_ok]
      rw [hread, if_neg (lt_irrefl e)]
      exact hcut _ _ ⟨_, _, _, rfl⟩

section Supplement

/-- A write at the end of the file, or its refusal. -/
theorem wp_append {Q : Post D Nat} {d : List UInt8}
    (h : Rep K X c sfd f) (hd : d ≠ []) (hlt : c.length + d.length < 4294967296)
    (hlen : X.writable = false → f.data.length < len)
    (hJ : J (X.files f)) (hJ' : Unsealing J X f)
    (hE : (X.writable = false ∨ maxFileSize + sfd.attrSize < c.length + d.length) → Tears X len Q)
    (hQ : X.writable = true → c.length + d.length ≤ maxFileSize + sfd.attrSize →
      ∀ sfd' data, Dirtied sfd sfd' →
      Rep K X (c ++ d) sfd' (f.unsealed data) →
      sfd'.firstBlock.length = max sfd.firstBlock.length (blocks B (c.length + d.length)) →
      Q (.ok d.length, sfd') (X.seek (f.unsealed data) ((c.length + d.length)))) :
    wp (agent bad) J (ssaWrite K d sfd) Q (X.seek f c.length) := by
  cases lt_or_ge (maxFileSize + sfd.attrSize) (c.length + d.length) with
  | inl hbig =>
    refine wp_ssaWriteWith_overflow h hd hlt hbig hJ (hE (.inr hbig) _ _ _ _ fun hw => ?_)
    exact (h.caches _ _ _ _ _).torn (hlen hw)
  | inr hfit =>
    cases hw : X.writable with
    | false =>
      exact wp_ssaWriteWith_readonly h (le_refl _) hd hfit hJ hw (hJ' f.data)
        fun sid q => hE (.inl hw) _ _ _ _ fun _ => h.torn_refusal (.inl (hlen hw))
    | true =>
      refine wp_ssaWriteWith h (le_refl _) hd hfit hJ hw hJ' fun sid l data hl hrep => ?_
      rw [overlay_length] at hrep
      exact hQ hw hfit _ _ (dirtied_afterWrite _ _ _ _ _ _) hrep hl

theorem resize_zeros (n a : Nat) :
    resize (replicate n (0 : UInt8)) a = replicate a 0 := by
  refine ext_cell (by rw [length_resize, length_replicate]) fun i _ => ?_
  rw [cell_resize, cell_zeros, cell_zeros]
  split <;> rfl

theorem wp_supplementLoop {Q : Post D Unit} {fuel : Nat} {buffer : List UInt8} (h : Rep K X c sfd f)
    (hfuel : a/B < fuel) (ha : 0 < a) (hbuf : buffer.length = B)
    (hlt : c.length + a < 4294967296) (hlen : X.writable = false → f.data.length < len)
    (hJ : J (X.files f)) (hJ' : Unsealing J X f)
    (hE : (X.writable = false ∨ maxFileSize + sfd.attrSize < c.length + a) → Tears X len Q)
    (hQ : X.writable = true → c.length + a ≤ maxFileSize + sfd.attrSize →
      ∀ sfd' data, Dirtied sfd sfd' → Rep K X (c ++ resize buffer a) sfd' { clearMac f with data := data } →
      sfd'.firstBlock.length = max sfd.firstBlock.length (blocks B (c.length + a)) →
      Q (.ok (), sfd') (X.seek { clearMac f with data := data } ((c.length + a)))) :
    wp (agent bad) J (supplementLoop K fuel buffer a sfd) Q (X.seek f c.length) := by
  induction fuel generalizing c sfd f buffer a with
  | zero => exact absurd hfuel (not_lt_zero _)
  | succ fuel ih =>
    unfold supplementLoop
    by_cases hbig : a > B
    · rw [if_pos hbig, wp_seq]
      refine wp_append h (length_pos_iff.mp (by rw [hbuf]; exact cryptBlockSize_pos))
        (by omega) hlen hJ hJ' ?_ ?_
      · intro hno e sfd' g q
        exact hE (hno.imp_right fun hb => by omega) _ _ _ _
      · intro hw hfit sfd' data hd hrep hl
        have hlen : (c ++ buffer).length = c.length + B := by
          rw [length_append, hbuf]
        have hsplit : c ++ buffer ++ resize (replicate B 0) (a - B) =
            c ++ resize buffer a := by
          rw [resize_zeros, append_assoc]
          unfold resize
          rw [take_of_length_le (by omega), hbuf]
        rw [next_ok, if_neg (by rw [hbuf]; simp), hbuf, ← hlen]
        refine ih hrep ?_ (by omega) length_replicate (by rw [hlen]; omega)
          (fun hw' => absurd (hw'.symm.trans hw) Bool.false_ne_true) (hJ' data)
          (hJ'.again data) ?_ ?_
        · simp only [B] at hfuel hbig ⊢
          omega
        · rw [hlen, hd.attr_eq]
          intro hno
          exact hE (hno.imp_right fun hb => by omega)
        · rw [hlen, hd.attr_eq]
          intro _ hfit' sfd'' data' hd' hrep' hl'
          rw [clearMac_clearMac, hsplit] at hrep'
          have hq := hQ hw (by omega) sfd'' data' (hd.trans hd') hrep' ?_
          · rw [clearMac_clearMac]
            rw [show c.length + B + (a - B) = c.length + a by omega]
            exact hq
          · rw [hl', hl, hbuf, show c.length + B + (a - B) = c.length + a
              by omega, max_assoc]
            congr 1
            exact max_eq_right (blocks_mono (by omega))
    · have htake : resize buffer a = buffer.take a := by
        unfold resize
        rw [Nat.sub_eq_zero_of_le (by omega), replicate_zero, append_nil]
      have hta : (buffer.take a).length = a := by
        rw [length_take]
        omega
      rw [if_neg hbig, wp_seq]
      refine wp_append h (length_pos_iff.mp (by omega)) (by omega) hlen hJ hJ' ?_ ?_
      · rw [hta]
        intro hno e sfd' g q
        exact hE hno _ _ _ _
      · rw [hta]
        intro hw hfit sfd' data hd hrep hl
        rw [← htake] at hrep
        exact hQ hw hfit sfd' data hd hrep hl

end Supplement

/-- The content was cut or extended to `len` bytes, and no HMAC covers that yet. -/
structure Truncated (K : Crypto D) (X : View D) (c : List UInt8) (len : Nat) (sfd : Sfd D)
    (f : RawFile D) (sfd' : Sfd D) (f' : RawFile D) : Prop where
  kept : Kept K X (resize c len) sfd' f'
  flags_eq : sfd'.flags = sfd.flags
  attr_eq : sfd'.attrSize = sfd.attrSize
  meta_eq : sfd'.metaData = sfd.metaData
  need_hmac : sfd'.needUpdateHmac = true
  backup : sfd'.updateBackup = true → sfd.updateBackup = true
  file_eq : (len ≤ c.length ∧
      f' = { f with data := resize f.data (len/cryptBlockSize*cryptBlockSize) }) ∨
    f' = { clearMac f with data := f'.data }

section Handle

omit [DecidableEq D] in
theorem Truncated.clear_eq {sfd' : Sfd D} {f' : RawFile D}
    (h : Truncated K X c len sfd f sfd' f') (data : List UInt8) :
    f'.unsealed data = f.unsealed data := by
  rcases h.file_eq with ⟨-, hf⟩ | hf
  · rw [hf]
    rfl
  · rw [hf]
    exact clearMac_clearMac f f'.data data

/-- The cut content and the tail written behind it are the resized content. -/
theorem resize_append_tail (hbe : b*B + e ≤ c.length) (hea : e = a ∨ (b*B + e = c.length ∧ e ≤ a)) :
    resize c (b*B) ++ resize (overlay (replicate B 0) 0 ((c.drop (b*B)).take e)) a =
      resize c (b*B + a) := by
  refine ext_cell (by rw [length_append, length_resize, length_resize, length_resize]) ?_
  intro i hi
  rw [length_append, length_resize, length_resize] at hi
  have hseg : ((c.drop (b*B)).take e).length = e := by
    rw [length_take, length_drop]
    omega
  rw [cell_append, length_resize, cell_resize c (b*B + a), if_pos hi]
  by_cases hib : i < b*B
  · rw [if_pos hib, cell_resize, if_pos hib]
  rw [if_neg hib, cell_resize, if_pos (by omega), cell_overlay, hseg, cell_zeros, cell_take,
    cell_drop]
  by_cases hie : i - b*B < e
  · rw [if_pos (by omega), if_pos (by omega)]
    congr 1
    omega
  · rw [if_neg (by omega)]
    exact (cell_of_le (by omega)).symm

variable {Q : Post D Unit}

theorem wp_handleTruncationSupplement (h : Legible K X c q sfd f)
    (hbe : b*B + e ≤ c.length) (he : e < B)
    (hea : e = a ∨ (b*B + e = c.length ∧ e ≤ a))
    (hq : blocks B (b*B + e) ≤ q) (hl : b ≤ sfd.firstBlock.length)
    (hne : sfd.firstBlock ≠ [])
    (hlist : max sfd.firstBlock.length (blocks B (b*B + a)) = max 1 (blocks B (b*B + a)))
    (hlt : b*B + a < 4294967296) (hJ : J (X.files f))
    (hcut : J (X.files { f with data := resize f.data (b*B) })) (hJ' : Unsealing J X f)
    (hE : a ≠ 0 → (X.writable = false ∨ maxFileSize + sfd.attrSize < b*B + a) →
      Tears X (b*B + a) Q)
    (hQ : ∀ sfd' f', (X.writable = false → a = 0) → Truncated K X c (b*B + a) sfd f sfd' f' →
      Q (.ok (), sfd') (X.seek f' ((b*B + a)))) :
    wp (agent bad) J (handleTruncationSupplement K e b a sfd) Q (X.seek f p) := by
  have hlen := h.length_le
  have hint : ¬ b*B > int32Max := by
    simp only [int32Max, maxFileSize] at *
    omega
  have htail := resize_append_tail hbe hea
  have hbuf : (overlay (replicate B (0 : UInt8)) 0
      ((c.drop (b*B)).take e)).length = B := by
    rw [length_overlay, length_replicate, length_take, length_drop]
    omega
  unfold handleTruncationSupplement
  rw [wp_seq]
  refine wp_handleTruncation h hbe hq hl hne hJ hcut ?_
  rintro sfd₁ pos ⟨sid, seekPosition, size, rfl⟩ hrep
  rw [next_ok]
  generalize overlay (replicate B (0 : UInt8)) 0 ((c.drop (b*B)).take e) = buffer at *
  unfold handleSupplement
  rw [mul_comm B b, if_neg hint, wp_seq]
  refine wp_ssaSeekWith_set hrep.legible hcut (by rw [length_resize]) ?_
  have hrep' := hrep.caches sid (b*B) (resize c (b*B)).length
    sfd.updateBackup sfd.needUpdateHmac
  by_cases ha : a = 0
  · subst ha
    rw [add_zero] at hQ hlist
    refine hQ _ _ (fun _ => rfl)
      ⟨⟨hrep.caches _ _ _ _ _, ?_⟩, rfl, rfl, rfl, rfl, id, .inl ⟨by omega, ?_⟩⟩
    · rw [length_resize, ← hlist, blocks_mul, max_eq_left hl]
    · rw [Nat.mul_div_cancel _ cryptBlockSize_pos]
  · have hlen' : (resize c (b*B)).length = b*B := length_resize _ _
    have hshort : X.writable = false → (resize f.data (b*B)).length < b*B + a := by
      intro _
      rw [length_resize]
      omega
    have hloop : wp (agent bad) J _ Q _ :=
      wp_supplementLoop hrep' (lt_succ_self (a/B)) (pos_of_ne_zero ha) hbuf
        (by rw [hlen']; exact hlt) hshort hcut hJ' (by rw [hlen']; exact hE ha) ?_
    · rw [if_neg ha]
      rw [hlen'] at hloop ⊢
      exact hloop
    · rw [hlen', htail]
      intro hw _ sfd' data hd hr hl'
      refine hQ _ _ (fun hw' => absurd (hw'.symm.trans hw) Bool.false_ne_true)
        { hd with kept := ⟨hr, ?_⟩, backup := ?_, file_eq := .inr rfl }
      · rw [length_resize, hl']
        exact hlist
      · intro hb
        rw [hd.no_backup] at hb
        cases hb

variable (h : Kept K X c sfd f) (hlt : len < 4294967296) (hJ : J (X.files f))
  (hcut : ∀ n, n ≤ c.length → J (X.files { f with data := resize f.data (n/B*B) }))
  (hJ' : Unsealing J X f)
include h hlt hJ hcut hJ'

theorem wp_ssaTruncateHandle (hlen : len ≠ c.length)
    (hE : ¬ (len < c.length ∧ len % B = 0) →
      (X.writable = false ∨ maxFileSize + sfd.attrSize < len) → Tears X len Q)
    (hQ : ∀ sfd' f', (X.writable = false → len < c.length ∧ len % B = 0) →
      Truncated K X c len sfd f sfd' f' → Q (.ok (), sfd') (X.seek f' len)) :
    wp (agent bad) J (ssaTruncateHandle K len c.length sfd) Q (X.seek f p) := by
  have hdiv : ∀ n, n/B*B + n % B = n := by
    intro n
    rw [mul_comm]
    exact div_add_mod n B
  have hmod : ∀ n, n % B < B := fun n => mod_lt n cryptBlockSize_pos
  have hne := h.hashed.nonempty
  unfold ssaTruncateHandle
  by_cases hgt : len > c.length
  · have hc := hdiv c.length
    have hsum : c.length/B*B + (len - c.length + c.length % B) = len := by omega
    have hhead : c.length/B ≤ sfd.firstBlock.length := by
      rw [h.list_eq]
      simp only [blocks, B]
      omega
    rw [if_pos hgt]
    have hrule : wp (agent bad) J _ Q _ :=
      wp_handleTruncationSupplement (p := p) h.legible (le_of_eq hc) (hmod _)
        (.inr ⟨hc, le_add_left _ _⟩) (by rw [hc]) hhead hne ?_ (by rw [hsum]; exact hlt) hJ
        (hcut _ (le_refl _)) hJ' ?_ ?_
    · exact hrule
    · rw [hsum, h.list_eq, max_assoc, max_eq_right (blocks_mono (by omega))]
    · rw [hsum]
      exact fun _ => hE (by omega)
    · rw [hsum]
      exact fun sfd' f' hw => hQ sfd' f' fun hro => absurd (hw hro) (by omega)
  · have hl := hdiv len
    have hlt' : len < c.length := by omega
    have hprune := pruneBlocks_eq h.hashed.ids h.list_eq hlt'
    have hplen : (sfd.firstBlock.take (max 1 (blocks B len))).length = max 1 (blocks B len) := by
      have hmono : blocks B len ≤ blocks B c.length :=
        blocks_mono (by omega)
      rw [length_take, h.list_eq]
      omega
    rw [if_neg hgt, wp_modify_bind, hprune]
    have hleg : Legible K X c (blocks B len) { sfd with
        firstBlock := sfd.firstBlock.take (max 1 (blocks B len)) } f := by
      refine { h with ids := h.hashed.ids.take _, hash_eq := fun i hi => ?_ }
      have hmono : blocks B len ≤ blocks B c.length :=
        blocks_mono (by omega)
      rw [getElem?_take, if_pos (by omega)]
      exact h.legible.hash_eq i (by omega)
    have hhead : len/B ≤ (sfd.firstBlock.take (max 1 (blocks B len))).length := by
      rw [hplen]
      simp only [blocks, B]
      omega
    have hpne := length_pos_iff.mp (by rw [hplen]; omega)
    have hrule : wp (agent bad) J _ Q _ :=
      wp_handleTruncationSupplement (p := p) hleg (hl.trans_le hlt'.le) (hmod _) (.inl rfl)
        (le_of_eq (congrArg _ hl)) hhead hpne ?_ (hl.trans_lt hlt) hJ (hcut len hlt'.le) hJ' ?_ ?_
    · exact hrule
    · rw [hl, hplen]
      omega
    · rw [hl]
      exact fun ha => hE fun hal => ha hal.2
    · rw [hl]
      intro sfd' f' hw ht
      exact hQ _ _ (fun hro => ⟨hlt', hw hro⟩) { ht with }

/-- `ssa_truncate`: nothing to do, a new length with the position inside it, or a new length that
the seek back to the old position extends. Without the right to write it can only cut off whole
blocks. -/
theorem wp_ssaTruncate (hp : p ≤ c.length)
    (hE : len ≠ c.length → (X.writable = false ∧ ¬ (len < c.length ∧ len % B = 0 ∧ p ≤ len) ∨
      maxFileSize + sfd.attrSize < len ∨ (len < p ∧ maxFileSize + sfd.attrSize < p)) →
      ∀ e sfd' g q, (X.writable = false → p ≤ maxFileSize + sfd.attrSize → Torn X len sfd' g) →
        Q (.error e, sfd') (X.state g q))
    (hsame : len = c.length → Q (.ok (), sfd.cached p c.length)
      (X.seek f p))
    (hQ : len ≠ c.length → p ≤ len → (X.writable = true ∨ len < c.length ∧ len % B = 0 ∧ p ≤ len) →
      ∀ sfd' f', Truncated K X c len sfd f sfd' f' →
      Q (.ok (), sfd'.cached p len) (X.seek f' p))
    (hgrow : len < p → X.writable = true → ∀ sfd' f' sfd'' data, Truncated K X c len sfd f sfd' f' →
      Grown K X (resize c len) p sfd' f' sfd'' data →
      Q (.ok (), sfd''.cached p len)
        (X.seek { clearMac f with data := data } p)) :
    wp (agent bad) J (ssaTruncate K len sfd) Q (X.seek f p) := by
  have hbound := h.length_le
  unfold ssaTruncate
  rw [wp_seq]
  refine wp_ssaInfo h.legible hJ ?_
  rw [next_ok]
  dsimp only
  by_cases heq : len = c.length
  · rw [if_pos heq, wp_pure]
    exact hsame heq
  · rw [if_neg heq, wp_seq]
    refine wp_ssaTruncateHandle (h.caches _ _ _ _ _) hlt hJ hcut hJ' heq ?_ ?_
    · intro hwhole hno e sfd' g q htorn
      refine hE heq (hno.imp (⟨·, fun hal => hwhole ⟨hal.1, hal.2.1⟩⟩) .inl) _ _ _ _ ?_
      exact fun hw _ => htorn hw
    · intro sfd' f' hwhole ht
      have ht' : Truncated K X c len sfd f sfd' f' :=
        { ht with }
      have hjf : J (X.files f') := by
        rcases ht.file_eq with ⟨hle, hf⟩ | hf
        · rw [hf]
          exact hcut len hle
        · rw [hf]
          exact hJ' _
      have hint : ¬ p > int32Max := by
        simp only [int32Max, maxFileSize] at *
        omega
      rw [next_ok, if_neg hint, wp_seq]
      by_cases hin : p ≤ len
      · refine wp_ssaSeekWith_set ht.kept.legible hjf (by rw [length_resize]; exact hin) ?_
        refine hQ heq hin ?_ sfd' f' ht'
        cases hw : X.writable with
        | true => exact .inl rfl
        | false => exact .inr ⟨(hwhole hw).1, (hwhole hw).2, hin⟩
      · have hpl : (resize c len).length < p := by
          rw [length_resize]
          omega
        cases hw : X.writable with
        | false =>
          refine wp_ssaSeekWith_ok ht.kept.legible hjf rfl (seekTarget_set _ _ _ _) ?_
          rw [when_pos hpl]
          refine wp_fillFileHole_readonly (ht.kept.toRep.caches _ _ _ _ _) hjf hw hpl ?_
            fun e sfd'' g q htorn => ?_
          · rw [show clearMac f' = f'.unsealed f'.data from rfl, ht.clear_eq]
            exact hJ' _
          · refine hE heq (.inl ⟨hw, fun hal => hin hal.2.2⟩) _ _ _ _ fun _ hfit => ?_
            rw [length_resize] at htorn
            exact htorn (hwhole hw).2 (ht.attr_eq ▸ hfit)
        | true =>
          refine wp_ssaSeek_hole ht.kept.toRep hjf rfl (seekTarget_set _ _ _ _) hw hpl
            (by simp only [maxFileSize] at hbound; omega) ?_ ?_ ?_
          · intro data
            rw [ht.clear_eq]
            exact hJ' _
          · intro hbig sfd'' g q
            rw [ht.attr_eq] at hbig
            exact hE heq (.inr (.inr ⟨by omega, hbig⟩)) _ _ _ _
              fun _ hfit => absurd hfit (not_le.mpr hbig)
          · intro _ sfd'' data hg
            rw [next_ok, ht.clear_eq]
            exact hgrow (by omega) hw sfd' f' sfd'' data ht' hg

end Handle

end TeeOs.Ssa
