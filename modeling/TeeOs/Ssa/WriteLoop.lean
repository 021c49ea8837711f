import TeeOs.Ssa.WriteSpec

/-!
# The loop of a write

`Round` is the state before the transfer of block `j`: blocks in front of it hold
the new content. One round leads from `j` to `j+1`, and all rounds together to
the overlaid content. On a descriptor that was opened for reading only, the
first transfer fails.
-/

namespace TeeOs.Ssa

open Lib.Calls Lib.Bytes List Proc Nat
open TeeOs.Ssa renaming cryptBlockSize → B

variable {D : Type} {bad : RawFile D → Prop}
  {J : Files D → Prop} {K : Crypto D} {X : View D} {c : List UInt8}
  {sfd : Sfd D} {f : RawFile D} {plain : List UInt8} {p j : Nat} {d : List UInt8}

/-- The state of a write of `d` at `p` before the transfer of block `j`. -/
structure Round (K : Crypto D) (X : View D) (c : List UInt8) (p : Nat) (d : List UInt8) (j : Nat)
    (sfd : Sfd D) (f : RawFile D) (plain : List UInt8) : Prop
    extends Stored K X plain sfd f where
  length_eq : plain.length = max (pad cryptBlockSize c).length (j*cryptBlockSize)
  cells : ∀ i, cell plain i =
    if p/cryptBlockSize*cryptBlockSize ≤ i ∧ i < j*cryptBlockSize then cell (overlay c p d) i
    else cell c i
  size_eq : sfd.size = c.length

theorem Round.cells_behind (h : Round K X c p d j sfd f plain) (i : Nat)
    (hi : j*B ≤ i) : cell plain i = cell c i := by
  rw [h.cells i, if_neg (by omega)]

variable {startFlag endFlag seekFirst : Bool} {n pos total : Nat} {e : List UInt8}
  {Q : Post D Unit}

theorem startAdd_eq (ht : Touched p n j startFlag endFlag) :
    (if startFlag = true then p - p/B*B else 0) = p - j*B := by
  by_cases hflag : startFlag = true
  · rw [if_pos hflag, (ht.start.mp hflag).1]
  · rw [if_neg hflag]
    rw [ht.start] at hflag
    have hj := ht.ge
    simp only [B] at *
    omega

theorem endAdd_eq (ht : Touched p n j startFlag endFlag) :
    (if endFlag = true then B - (p + n) % B else 0) = j*B + B - (p + n) := by
  by_cases hflag : endFlag = true
  · obtain ⟨hl, hm⟩ := ht.last.mp hflag
    rw [if_pos hflag]
    have := last_block_eq hl hm
    omega
  · rw [if_neg hflag]
    have := full_block_le ht.lt (mt ht.last.mpr hflag)
    omega

/-- The number of data bytes in block `j`. -/
def copySize (p n j : Nat) : Nat :=
  min cryptBlockSize (p + n - j*cryptBlockSize) - (p - j*cryptBlockSize)

theorem cryptBlocks_encrypt (he : e.length = B) : cryptBlocks K.encrypt 1 j e = K.encrypt j e := by
  simp only [cryptBlocks]
  rw [take_of_length_le (le_of_eq he), drop_of_length_le (le_of_eq he), append_nil]

/-- The file after block `j` was replaced by the encryption of `e`. -/
def putBlock (K : Crypto D) (f : RawFile D) (j : Nat) (e : List UInt8) : RawFile D :=
  { f with data := overlay f.data (j*cryptBlockSize) (K.encrypt j e) }

section

variable (h : Stored K X plain sfd f)
include h

theorem Stored.block_id_le (hj : j*B ≤ plain.length) : j ≤ sfd.firstBlock.length := by
  have hc := h.hashed.covers
  rw [h.encrypts.length_eq] at hc
  exact le_of_mul_le_mul_right (hj.trans hc) cryptBlockSize_pos

theorem wp_writeDataProcess {w : RwInfo} (hw : X.writable = true) (he : e.length = B)
    (hj : j*B ≤ plain.length) (htotal : w.startPos + total = j*B)
    (hpos : seekFirst = false → pos = sfsMetadataSize + j*B) (hJ : J (X.files f))
    (hJ' : J (X.files (putBlock K f j e))) (hQ : ∀ l, l.length = max sfd.firstBlock.length (j+1) →
      Stored K X (overlay plain (j*B) e)
        { sfd with startBlockId := j, firstBlock := l } (putBlock K f j e) →
      Q (.ok (), { sfd with startBlockId := j, firstBlock := l })
        (X.seek (putBlock K f j e) ((j+1)*B))) :
    wp (agent bad) J (writeDataProcess K w seekFirst e total sfd) Q (X.state f pos) := by
  have hlen := K.length_encrypt j e he
  have hdata : j*B ≤ f.data.length := by rw [h.encrypts.length_eq]; exact hj
  obtain ⟨l, hl, hll, hlg⟩ := updateBlockHash_spec K h.hashed.ids h.hashed.nonempty
    (K.encrypt j e) (h.block_id_le hj)
  have hstored : Stored K X (overlay plain (j*B) e)
      { sfd with startBlockId := j, firstBlock := l } (putBlock K f j e) :=
    ⟨h.nfd_eq, h.name_eq, h.header, h.encrypts.write hj he, h.hashed.write hdata hlen hll hlg⟩
  unfold writeDataProcess
  rw [wp_modify_bind, wp_get_bind, htotal, Nat.mul_div_cancel j cryptBlockSize_pos, he,
    Nat.div_self cryptBlockSize_pos, wp_seq]
  rw [cryptBlocks_encrypt he]
  have hwrite : wp (agent bad) J
      ((ssaFsFwrite (getSpecErrno · .writeData) sfd.nfd (K.encrypt j e) >>= fun _ =>
          ofExcept (updateBlockHash K sfd.firstBlock (K.encrypt j e) j) >>= fun l =>
            Proc.modify fun sfd => { sfd with firstBlock := l })
        { sfd with startBlockId := j }) Q
      (X.seek f (j*B)) := by
    have hsub : sfsMetadataSize + j*B - sfsMetadataSize = j*B := by omega
    have hend : sfsMetadataSize + j*B + (K.encrypt j e).length = sfsMetadataSize + (j+1)*B := by
      rw [hlen, succ_mul]
      omega
    rw [wp_seq]
    refine wp_ssaFsFwrite h.nfd_eq hw (le_add_right _ _) h.header (by rw [hsub]; exact hJ') ?_
    rw [next_ok, hl, wp_seq, wp_ofExcept_ok, next_ok, hsub, hend]
    exact hQ l hll hstored
  cases hflag : seekFirst with
  | false =>
    rw [when_neg Bool.false_ne_true, wp_pure, next_ok, hpos hflag]
    exact hwrite
  | true =>
    refine wp_ssaFsFseek h.nfd_eq (q := sfsMetadataSize + j*B)
      hJ (by simp only [Fs.seekBase]; omega) ?_
    exact hwrite

/-- On a read-only descriptor the write is refused and nothing changes. -/
theorem wp_writeDataProcess_readonly {w : RwInfo} (hw : X.writable = false) (hJ : J (X.files f))
    (hQ : ∀ sid q, Q (.error .badParameters, { sfd with startBlockId := sid }) (X.state f q)) :
    wp (agent bad) J (writeDataProcess K w seekFirst e total sfd) Q (X.state f pos) := by
  unfold writeDataProcess
  rw [wp_modify_bind, wp_get_bind, wp_seq]
  cases hflag : seekFirst with
  | false =>
    rw [when_neg Bool.false_ne_true, wp_pure, next_ok, wp_seq]
    refine wp_ssaFsFwrite_readonly h.nfd_eq hJ hw ?_
    exact hQ _ _
  | true =>
    refine wp_ssaFsFseek h.nfd_eq (q := w.startPos + total + sfsMetadataSize)
      hJ (by simp only [Fs.seekBase]; omega) ?_
    rw [next_ok, wp_seq]
    refine wp_ssaFsFwrite_readonly h.nfd_eq hJ hw ?_
    exact hQ _ _

end

theorem block_in_overlay (hj : j < blocks B (p + d.length)) :
    j*B + B ≤ (pad B (overlay c p d)).length := by
  rw [length_pad, length_overlay]
  simp only [blocks, B] at *
  omega

theorem Round.advance {sfd' : Sfd D} {f' : RawFile D} (h : Round K X c p d j sfd f plain)
    (hj : p/B ≤ j) (hj' : j < blocks B (p + d.length))
    (hs : Stored K X (overlay plain (j*B) (block B j (pad B (overlay c p d)))) sfd' f')
    (hsize : sfd'.size = sfd.size) :
    Round K X c p d (j+1) sfd' f' (overlay plain (j*B) (block B j (pad B (overlay c p d)))) := by
  have hbl := length_block (block_in_overlay (c := c) hj')
  have hmul : p/B*B ≤ j*B := mul_le_mul_right _ hj
  refine ⟨hs, ?_, fun i => ?_, hsize.trans h.size_eq⟩
  · rw [length_overlay, hbl, h.length_eq, succ_mul]
    omega
  · rw [cell_overlay, hbl, h.cells i, succ_mul]
    by_cases hi : j*B ≤ i ∧ i < j*B + B
    · rw [if_pos hi, if_pos (by omega), cell_block, if_pos (by omega), cell_pad cryptBlockSize_pos]
      congr 1
      omega
    · rw [if_neg hi]
      by_cases hi' : p/B*B ≤ i ∧ i < j*B
      · rw [if_pos hi', if_pos (by omega)]
      · rw [if_neg hi', if_neg (by omega)]

/-- After the last round the file holds the overlaid content. -/
theorem Round.finish (h : Round K X c p d j sfd f plain) (hj : j = blocks B (p + d.length)) :
    plain = pad B (overlay c p d) := by
  have hle := le_blocks_mul cryptBlockSize_pos (p + d.length)
  refine ext_cell ?_ fun i _ => ?_
  · rw [h.length_eq, length_pad, length_pad, length_overlay, hj]
    simp only [blocks, B] at *
    omega
  · have hp : p/B*B ≤ p := div_mul_le_self p B
    rw [h.cells i, cell_pad cryptBlockSize_pos, cell_overlay, hj]
    by_cases hi : p ≤ i ∧ i < p + d.length
    · rw [if_pos (by omega)]
    · rw [if_neg hi, ite_self]

/-- The bytes that complete the blocks sent before block `j`. -/
def addBefore (p j : Nat) : Nat :=
  if j = p/cryptBlockSize then 0 else p - p/cryptBlockSize*cryptBlockSize

theorem copyCount_eq (ht : Touched p d.length j startFlag endFlag)
    (hb : p + d.length < 4294967296) :
    sub32 (B - if startFlag = true then (rwInfo p d.length).startOffset else 0)
      (if endFlag = true then B - (rwInfo p d.length).endOffset else 0) =
      copySize p d.length j := by
  have h₁ := startAdd_eq ht
  have h₂ := endAdd_eq ht
  have h₄ : j*B ≤ p + d.length := by
    have hj := ht.lt
    simp only [blocks, B] at *
    omega
  rw [rwInfo_eq hb]
  rw [h₁, h₂, sub32_of_le (by omega) (by simp only [B]; omega)]
  unfold copySize
  omega

variable [DecidableEq D] {add : Nat}

theorem wp_fillTransBuff {Q : Post D (List UInt8)} (h : Round K X c p d j sfd f plain)
    (hp : p ≤ c.length) (hb : p + d.length < 4294967296)
    (ht : Touched p d.length j startFlag endFlag) (hJ : J (X.files f))
    (hQ : ∀ sid q, (startFlag = false → endFlag = false → q = pos) →
      Q (.ok (block B j (pad B (overlay c p d))), { sfd with startBlockId := sid }) (X.state f q)) :
    wp (agent bad) J
      (fillTransBuff K (rwInfo p d.length) startFlag endFlag (d.drop (j*B - p))
        (copySize p d.length j) sfd) Q (X.state f pos) := by
  have hlen : (pad B c).length ≤ plain.length := by
    rw [h.length_eq]
    exact le_max_left _ _
  have hlt : p - j*B < B := by
    have hj := ht.ge
    simp only [B] at *
    omega
  have hcopy : copySize p d.length j ≤ B - (p - j*B) := by
    unfold copySize
    omega
  have hmem : memmoveRefuses (B - (p - j*B)) (copySize p d.length j) = false := by
    refine memmoveRefuses_eq_false (by omega) ?_ hcopy
    simp only [securecMemMaxLen, B]
    omega
  unfold fillTransBuff
  rw [wp_seq]
  refine wp_startPart h.toStored h.size_eq hlen h.cells_behind hb ht hJ hp ?_
  intro buf sid q hbl hbuf hq
  have hoff : (rwInfo p d.length).startOffset = p - p/B*B := rfl
  rw [next_ok, hoff, startAdd_eq ht, hmem, if_neg Bool.false_ne_true]
  have htake : ((d.drop (j*B - p)).take (copySize p d.length j)).length =
      copySize p d.length j := by
    rw [length_take, length_drop]
    unfold copySize
    omega
  have h' := h.toStored.startBlock sid
  refine wp_endPart h' h.size_eq hlen h.cells_behind hb ht hJ ?_ (fun x => ?_) ?_
  · rw [length_overlay, htake, hbl]
    omega
  · rw [cell_overlay, htake, hbuf x, cell_take, cell_drop]
    by_cases hx : x < p - j*B
    · rw [if_neg (by omega), if_pos hx, if_pos hx]
    by_cases hx' : x < p + d.length - j*B ∧ x < B
    · have hin : x - (p - j*B) < copySize p d.length j := by
        unfold copySize
        omega
      rw [if_pos (by omega), if_pos hin, if_neg hx, if_pos hx']
      congr 1
      omega
    · have hout : ¬ (p - j*B ≤ x ∧ x < p - j*B + copySize p d.length j) := by
        unfold copySize
        omega
      rw [if_neg hout, if_neg hx, if_neg hx, if_neg hx']
  · intro sid' q' hq'
    exact hQ sid' q' fun hs he => (hq' he).trans (hq hs)

section Rounds

variable (hp : p ≤ c.length) (hb : p + d.length < 4294967296)
include hp hb

variable {first last : Bool} {Q : Post D (List UInt8 × Nat)}

omit hp in
theorem startFlag_iff (hfirst : first = true ↔ j = p/B) :
    (first && (rwInfo p d.length).startOffset != 0) = true ↔
      j = p/B ∧ p % B ≠ 0 := by
  rw [Bool.and_eq_true, hfirst, bne_iff_ne, rwInfo_eq hb]
  have := div_add_mod p B
  rw [mul_comm] at this
  dsimp only
  constructor
  · rintro ⟨h₁, h₂⟩
    exact ⟨h₁, by omega⟩
  · rintro ⟨h₁, h₂⟩
    exact ⟨h₁, by omega⟩

variable (hlast : last = true ↔ j+1 = blocks B (p + d.length))
include hlast

omit hp in
theorem endFlag_iff :
    (last && (rwInfo p d.length).endOffset != 0) = true ↔
      j+1 = blocks B (p + d.length) ∧ (p + d.length) % B ≠ 0 := by
  rw [Bool.and_eq_true, hlast, bne_iff_ne, rwInfo_eq hb]

theorem wp_sendBlock {total : Nat} (h : Round K X c p d j sfd f plain) (hw : X.writable = true)
    (hj : p/B ≤ j) (hj' : j < blocks B (p + d.length))
    (hfirst : first = true ↔ j = p/B)
    (htotal : p/B*B + total = j*B)
    (hJ : ∀ data, J (X.files { f with data := data }))
    (hQ : ∀ l data plain', l.length = max sfd.firstBlock.length (j+1) →
      Round K X c p d (j+1) { sfd with startBlockId := j, firstBlock := l }
        { f with data := data } plain' →
      Q (.ok (d.drop ((j+1)*B - p), add + (p - j*B) + ((j+1)*B - (p + d.length))),
          { sfd with startBlockId := j, firstBlock := l })
        (X.seek { f with data := data } ((j+1)*B))) :
    wp (agent bad) J
      (sendBlock K (rwInfo p d.length) first last (d.drop (j*B - p)) total add sfd) Q
      (X.seek f (max p (j*B))) := by
  have ht : Touched p d.length j _ _ := ⟨hj, hj', startFlag_iff hb hfirst, endFlag_iff hb hlast⟩
  have hbl := length_block (block_in_overlay (c := c) hj')
  have hle : j*B ≤ plain.length := by
    rw [h.length_eq]
    exact le_max_right _ _
  unfold sendBlock
  rw [copyCount_eq ht hb, wp_seq]
  generalize hsf : (first && (rwInfo p d.length).startOffset != 0) = startFlag at ht ⊢
  generalize hef : (last && (rwInfo p d.length).endOffset != 0) = endFlag at ht ⊢
  refine wp_fillTransBuff h hp hb ht (hJ f.data) ?_
  intro sid q hq
  rw [next_ok, wp_seq]
  have h' := h.toStored.startBlock sid
  refine wp_writeDataProcess h' hw hbl hle htotal ?_ (hJ _) (hJ _) ?_
  · intro hno
    rw [Bool.or_eq_false_iff] at hno
    have hmax : max p (j*B) = j*B := by
      have := startAdd_eq ht
      rw [if_neg (by rw [hno.1]; exact Bool.false_ne_true)] at this
      omega
    rw [hq hno.1 hno.2, hmax]
  · intro l hl hstored
    have hrest : (d.drop (j*B - p)).drop (copySize p d.length j) = d.drop ((j+1)*B - p) := by
      rw [drop_drop, succ_mul]
      by_cases hend : j*B + B ≤ p + d.length
      · congr 1
        unfold copySize
        omega
      · rw [drop_of_length_le, drop_of_length_le]
        · omega
        · unfold copySize
          omega
    have hadd : (if startFlag = true then (rwInfo p d.length).startOffset else 0) =
        p - j*B := startAdd_eq ht
    have hend : (if endFlag = true then B - (rwInfo p d.length).endOffset else 0) =
        (j+1)*B - (p + d.length) := by
      rw [rwInfo_eq hb, succ_mul]
      exact endAdd_eq ht
    rw [next_ok, wp_pure, hrest, hadd, hend]
    exact hQ l _ _ hl (h.advance hj hj' hstored rfl)

theorem wp_sendBlock_readonly {total pos : Nat} (h : Round K X c p d j sfd f plain)
    (hw : X.writable = false) (hj : p/B ≤ j)
    (hj' : j < blocks B (p + d.length)) (hfirst : first = true ↔ j = p/B)
    (hJ : J (X.files f))
    (hQ : ∀ sid q, Q (.error .badParameters, { sfd with startBlockId := sid }) (X.state f q)) :
    wp (agent bad) J
      (sendBlock K (rwInfo p d.length) first last (d.drop (j*B - p)) total add sfd) Q
      (X.state f pos) := by
  have ht : Touched p d.length j _ _ := ⟨hj, hj', startFlag_iff hb hfirst, endFlag_iff hb hlast⟩
  unfold sendBlock
  rw [copyCount_eq ht hb, wp_seq]
  refine wp_fillTransBuff h hp hb ht hJ ?_
  intro sid q _
  rw [next_ok, wp_seq]
  have h' := h.toStored.startBlock sid
  refine wp_writeDataProcess_readonly h' hw hJ ?_
  intro sid' q'
  exact hQ sid' q'

end Rounds

theorem addBefore_step (hj : p/B ≤ j) : addBefore p j + (p - j*B) = addBefore p (j+1) := by
  unfold addBefore
  by_cases h : j = p/B
  · rw [if_pos h, if_neg (by omega), h, zero_add]
  have := mul_le_mul_right B (show p/B + 1 ≤ j by omega)
  have hlt : p < p/B*B + B := by
    simp only [B]
    omega
  rw [succ_mul] at this
  rw [if_neg h, if_neg (by omega)]
  omega

/-- The blocks a write touches. -/
theorem first_lt_blocks (hd : d ≠ []) : p/B < blocks B (p + d.length) := by
  have := length_pos_iff.mpr hd
  simp only [blocks, B]
  omega

/-- All rounds from block `j` on: the file ends up with the overlaid content, and the count is
the number of data bytes. -/
theorem wp_writeContentLoop {Q : Post D (Except TeeResult Unit × Nat)} (hp : p ≤ c.length)
    (hb : p + d.length < 4294967296) (hd : d ≠ []) (hw : X.writable = true) {src : List UInt8}
    (h : Round K X c p d j sfd f plain) (hj : p/B ≤ j)
    (hn : j + n = blocks B (p + d.length))
    (htotal : p/B*B + total = j*B)
    (hsrc : src = d.drop (j*B - p))
    (hadd : add = addBefore p j + (j*B - (p + d.length)))
    (hpos : pos = sfsMetadataSize + max p (j*B))
    (hJ : ∀ data, J (X.files { f with data := data })) (hQ : ∀ sid l data,
      l.length = max sfd.firstBlock.length (blocks B (p + d.length)) →
      Stored K X (pad B (overlay c p d))
        { sfd with startBlockId := sid, firstBlock := l } { f with data := data } →
      Q (.ok (.ok (), d.length), { sfd with startBlockId := sid, firstBlock := l })
        (X.seek { f with data := data } (blocks B (p + d.length)*B))) :
    wp (agent bad) J (writeContentLoop K (rwInfo p d.length)
        (blocks B (p + d.length) - p/B) n src total add sfd) Q
      (X.state f pos) := by
  have hfirst := first_lt_blocks (p := p) hd
  have hend := le_blocks_mul cryptBlockSize_pos (p + d.length)
  induction n generalizing j sfd f plain total add pos src with
  | zero =>
    rw [add_zero] at hn
    have hplain := h.finish hn
    have hlen := h.toStored.block_id_le (j := j) (by rw [h.length_eq]; exact le_max_right _ _)
    have hcount : total - add = d.length := by
      have := div_mul_le_self p B
      rw [hadd, addBefore, if_neg (by omega)]
      subst hn
      omega
    have hmax : pos = sfsMetadataSize + blocks B (p + d.length)*B := by
      rw [hpos, hn]
      omega
    unfold writeContentLoop
    rw [wp_pure, hcount, hmax]
    subst hplain
    exact hQ sfd.startBlockId sfd.firstBlock f.data (by omega) h.toStored
  | succ n ih =>
    have hj' : j < blocks B (p + d.length) := by omega
    have hin : j*B ≤ p + d.length := by
      simp only [blocks, B] at *
      omega
    have hnext : p ≤ (j+1)*B := by
      simp only [B] at *
      omega
    subst hsrc hpos
    unfold writeContentLoop
    rw [wp_attempt_bind]
    refine wp_sendBlock hp hb ?_ h hw hj hj' ?_ htotal hJ ?_
    · rw [beq_iff_eq]
      omega
    · rw [beq_iff_eq]
      omega
    · intro l data plain' hl hround
      refine ih hround (by omega) (by omega) ?_ rfl ?_ ?_ hJ ?_
      · rw [succ_mul]
        omega
      · rw [hadd, ← addBefore_step hj]
        omega
      · rw [max_eq_right hnext]
      · intro sid l' data' hl' hstored
        dsimp only at hl'
        exact hQ sid l' data' (by omega) hstored

end TeeOs.Ssa
