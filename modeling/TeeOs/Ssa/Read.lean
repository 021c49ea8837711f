import TeeOs.Ssa.Refine

/-!
# Reading

One round of `read_data_out` takes the bytes of the request out of one block;
the whole loop returns the requested segment. At the end of the file `ssa_read`
returns nothing, but it has already gone back to the start of the block.
-/

namespace TeeOs.Ssa

open Lib.Calls Lib.Bytes List Proc Nat
open TeeOs.Ssa renaming cryptBlockSize → B

variable {D : Type} [DecidableEq D] {bad : RawFile D → Prop}
  {J : Files D → Prop} {K : Crypto D} {X : View D} {c : List UInt8}
  {sfd : Sfd D} {f : RawFile D} {p q m k n : Nat}

section Arithmetic

theorem startCut_eq {N : Nat} (hk : p/B + k + (n+1) = N) :
    (if (n+1 == N - p/B) = true then p - p/B*B else 0) = max p ((p/B + k)*B) - (p/B + k)*B := by
  by_cases h0 : k = 0
  · rw [if_pos (by rw [beq_iff_eq]; omega)]
    simp only [B] at *
    omega
  · rw [if_neg (by rw [beq_iff_eq]; omega)]
    simp only [B] at *
    omega

variable {j e : Nat} (hk : j + (n+1) = blocks B e) (hp : p < e)
  (hj : p < (j+1)*B)
include hk hp hj

theorem recvCopy_eq (he : e < 4294967296) :
    sub32 (sub32 B (max p (j*B) - j*B)) (if (n == 0 && e % B != 0) = true then B - e % B
        else 0) =
      min e ((j+1)*B) - max p (j*B) := by
  by_cases hlast : n = 0 ∧ e % B ≠ 0
  · rw [if_pos (by simpa using hlast)]
    simp only [sub32, blocks, B] at *
    omega
  · rw [if_neg (by simpa using hlast)]
    simp only [sub32, blocks, B] at *
    omega

/-- The bytes of a round lie inside the request and there are some. -/
theorem round_bounds : max p (j*B) < min e ((j+1)*B) := by
  simp only [blocks, B] at *
  omega

end Arithmetic

section

variable (h : Legible K X c q sfd f)
  {Q : Except TeeResult (Except TeeResult (List UInt8) × Bool) × Sfd D → Fs D → Prop}
include h

/-- The bytes a read of `n` at `p` takes, after the check against the end of the file. -/
def clipped (len p n : Nat) : Nat := if u32 (p + n) > len then sub32 len p else n

variable (hJ : J (X.files f))
include hJ

theorem wp_readBlock {Q : Post D (Nat × List UInt8)} {j : Nat}
    (hj : j < blocks B c.length) (hq : j < q)
    (hQ : Q (.ok (B, block B j (pad B c)), { sfd with startBlockId := j })
      (X.seek f ((j+1)*B))) :
    wp (agent bad) J ((do
        let buff ← ssaFsFread (getSpecErrno · .readData) sfd.nfd B
        let plain ← decryptDataBlock K buff j
        pure (buff.length, plain) : SsaM D (Nat × List UInt8)) sfd) Q
      (X.seek f (j*B)) := by
  have hi : j*B + B ≤ (pad B c).length := by
    rw [length_pad, ← succ_mul]
    exact mul_le_mul_right _ hj
  have hl : (block B j f.data).length = B :=
    length_block (by rw [h.encrypts.length_eq]; exact hi)
  rw [wp_seq]
  refine wp_ssaFsFread h.nfd_eq hJ (le_add_right _ _) ?_
  rw [next_ok, Nat.add_sub_cancel_left, wp_seq]
  change wp _ _ (decryptDataBlock K (block B j f.data) j sfd) _
    (X.state f (_ + (block B j f.data).length))
  rw [hl, add_assoc, ← succ_mul]
  refine wp_decryptDataBlock hi h.encrypts h.ids (h.hash_eq j hq) ?_
  change Q (.ok ((block B j f.data).length, _), _) _
  rw [hl]
  exact hQ

section

variable (hq : blocks B (p + m) ≤ q)
include hq

section

variable (he : p + m ≤ c.length) (hk : p/B + k + (n+1) = blocks B (p + m))
  (hm : 0 < m)
include he hk hm

/-- One round of the read loop: the segment grows by the bytes of one block. -/
theorem wp_readRound (hQ : wp (agent bad) J ((if n = 0 then pure (.ok ((c.drop p).take
            (min (p + m) ((p/B + k + 1)*B) - p)),
          n == 0 && (p + m) % B != 0)
        else readDataLoop K (rwInfo p m) m (blocks B (p + m) - p/B) n ((k+1)*B) ((c.drop p).take
            (min (p + m) ((p/B + k + 1)*B) - p)) :
        SsaM D (Except TeeResult (List UInt8) × Bool))
        { sfd with startBlockId := p/B + k }) Q
      (X.seek f ((p/B + k + 1)*B))) :
    wp (agent bad) J (readDataLoop K (rwInfo p m) m (blocks B (p + m) - p/B) (n+1)
        (k*B) ((c.drop p).take ((p/B + k)*B - p)) sfd) Q
      (X.seek f ((p/B + k)*B)) := by
  have hlen := h.length_le
  have hb : p + m + B < 4294967296 := by
    simp only [maxFileSize, B] at *
    omega
  have hpj : p < (p/B + k + 1)*B := by
    simp only [B]
    omega
  have hjc : p/B + k < blocks B c.length := by
    simp only [blocks, B] at *
    omega
  have hrecv : k*B + B ≤ (blocks B (p + m) - p/B)*B := by
    rw [← succ_mul]
    exact mul_le_mul_right _ (by omega)
  have hid : (p/B*B + k*B)/B = p/B + k := by
    rw [← Nat.add_mul, Nat.mul_div_cancel _ cryptBlockSize_pos]
  have hround := round_bounds hk (by omega) hpj
  have hcopy := recvCopy_eq hk (by omega) hpj (by omega)
  unfold readDataLoop
  rw [actualCount_eq hm hb]
  dsimp only
  rw [if_pos hrecv, wp_get_bind, wp_attempt_bind, rwInfo_eq (by omega)]
  rw [hid]
  refine wp_readBlock h hJ hjc (by omega) ?_
  dsimp only
  rw [startCut_eq hk, hcopy]
  generalize hj : p/B + k = j at *
  have hout : ((c.drop p).take (j*B - p)).length = max p (j*B) - p := by
    rw [length_take, length_drop]
    omega
  have hsucc : (j+1)*B = j*B + B := succ_mul _ _
  have hseg : (c.drop p).take (j*B - p) ++ ((block B j (pad B c)).drop
        (max p (j*B) - j*B)).take
        (min (p + m) ((j+1)*B) - max p (j*B)) =
      (c.drop p).take (min (p + m) ((j+1)*B) - p) := by
    rw [take_drop_block _ (by omega) (by omega),
      take_drop_pad cryptBlockSize_pos c (by omega) (by omega),
      show j*B - p = max p (j*B) - p by omega]
    exact take_drop_append c (by omega) (by omega)
  have hmem : memmoveRefuses (sub32 m (max p (j*B) - p))
      (min (p + m) ((j+1)*B) - max p (j*B)) = false := by
    rw [sub32_of_le (by omega) (by omega)]
    refine memmoveRefuses_eq_false (by omega) ?_ (by omega)
    simp only [maxFileSize, securecMemMaxLen] at *
    omega
  rw [hout, hmem, if_neg Bool.false_ne_true, hseg]
  by_cases hn : n = 0
  · rw [if_pos (Or.inr hn)]
    rw [if_pos hn] at hQ
    exact hQ
  · rw [if_neg (by omega), ← succ_mul]
    rw [if_neg hn, rwInfo_eq (by omega)] at hQ
    exact hQ

/-- The rounds from block `p/B + k` on complete the requested segment. -/
theorem wp_readDataLoop (hQ : ∀ sid, Q (.ok (.ok ((c.drop p).take m), (p + m) % B != 0),
        { sfd with startBlockId := sid })
      (X.seek f (blocks B (p + m)*B))) :
    wp (agent bad) J (readDataLoop K (rwInfo p m) m (blocks B (p + m) - p/B) (n+1)
        (k*B) ((c.drop p).take ((p/B + k)*B - p)) sfd) Q
      (X.seek f ((p/B + k)*B)) := by
  induction n generalizing k sfd with
  | zero =>
    have hlast : blocks B (p + m) = p/B + k + 1 := hk.symm
    refine wp_readRound h hJ hq he hk hm ?_
    rw [if_pos rfl, ← hlast, min_eq_left (le_blocks_mul cryptBlockSize_pos _),
      Nat.add_sub_cancel_left, wp_pure]
    exact hQ _
  | succ n ih =>
    have hinside : (p/B + k + 1)*B ≤ p + m := by
      simp only [blocks, B] at *
      omega
    refine wp_readRound h hJ hq he hk hm ?_
    rw [if_neg (succ_ne_zero n), min_eq_right hinside]
    exact ih (h.caches _ _ _ _ _) (by omega) fun sid => hQ sid

end

/-- All rounds of the read loop. -/
theorem wp_readDataOut (hm : 0 < m) (he : p + m ≤ c.length)
    (hQ : ∀ sid, Q (.ok (.ok ((c.drop p).take m), (p + m) % B != 0),
        { sfd with startBlockId := sid })
      (X.seek f (blocks B (p + m)*B))) :
    wp (agent bad) J (readDataLoop K (rwInfo p m) m (blocks B (p + m) - p/B)
        (blocks B (p + m) - p/B) 0 [] sfd) Q
      (X.seek f (p/B*B)) := by
  have hfirst : p/B < blocks B (p + m) := by
    simp only [blocks, B]
    omega
  obtain ⟨t, ht⟩ : ∃ t, blocks B (p + m) = p/B + 0 + (t+1) :=
    ⟨blocks B (p + m) - p/B - 1, by omega⟩
  have hstart : (c.drop p).take ((p/B + 0)*B - p) = [] := by
    have hdown : p/B*B ≤ p := div_mul_le_self _ _
    rw [Nat.add_zero, Nat.sub_eq_zero_of_le hdown, take_zero]
  have hloop : wp (agent bad) J _ Q _ := wp_readDataLoop h hJ hq he ht.symm hm hQ
  rw [hstart, zero_mul, add_zero] at hloop
  have htimes : t+1 = blocks B (p + m) - p/B := by omega
  rw [htimes] at hloop
  exact hloop

end

/-- The start of a read: the request is clipped, and the descriptor stands at its first block. -/
theorem wp_ssaReadInitData {Q : Post D (RwInfo × Nat)} (hp : p ≤ c.length)
    (hQ : Q (.ok (rwInfo p (clipped c.length p n), clipped c.length p n),
        sfd.cached (p/B*B) c.length)
      (X.seek f (p/B*B))) :
    wp (agent bad) J (ssaReadInitData K n sfd) Q (X.seek f p) := by
  have hdown : p/B*B ≤ p := div_mul_le_self _ _
  unfold ssaReadInitData
  rw [wp_seq]
  refine wp_ssaInfo h hJ ?_
  change wp _ _ ((Proc.when ((rwInfo p (clipped c.length p n)).startOffset ≠ 0)
    (ssaSeek K (p/B*B : Nat) 0) >>= fun _ =>
      pure (rwInfo p (clipped c.length p n), clipped c.length p n)) _) _ _
  rw [wp_seq]
  by_cases h0 : p - p/B*B = 0
  · have heq : p/B*B = p := by omega
    rw [when_neg (by simpa [rwInfo] using h0), wp_pure, next_ok, wp_pure]
    rw [heq] at hQ
    exact hQ
  · rw [when_pos (by simpa [rwInfo] using h0)]
    refine wp_ssaSeekWith_set (h.caches _ _ _ _ _) hJ (by omega) ?_
    exact hQ

end

variable {Q : Post D (List UInt8)}

section

variable (h : Legible K X c q sfd f) (hJ : J (X.files f))
include h hJ

/-- A read inside the file returns the requested segment and stands behind it. -/
theorem wp_ssaRead (hp : p < c.length) (hn : 0 < n) (hb : p + n < 4294967296)
    (hq : blocks B (min (p + n) c.length) ≤ q)
    (hQ : ∀ sid, Q (.ok ((c.drop p).take n), sfd.standing sid
        (if min (p + n) c.length % B ≠ 0 then min (p + n) c.length else p/B*B) c.length)
      (X.seek f (min (p + n) c.length))) :
    wp (agent bad) J (ssaRead K n sfd) Q (X.seek f p) := by
  have hlen := h.length_le
  obtain ⟨m, hm, hm0, hend⟩ : ∃ m, clipped c.length p n = m ∧ 0 < m ∧ p + m = min (p + n) c.length := by
    refine ⟨min (p + n) c.length - p, ?_, by omega, by omega⟩
    unfold clipped
    rw [u32_of_lt hb]
    by_cases hgt : p + n > c.length
    · rw [if_pos hgt, sub32_of_le (by omega) (by simp only [maxFileSize] at hlen; omega)]
      omega
    · rw [if_neg hgt]
      omega
  have hseg : (c.drop p).take n = (c.drop p).take m := by
    rw [take_eq_take_iff, length_drop]
    omega
  have hb' : p + m + B < 4294967296 := by
    simp only [maxFileSize, B] at *
    omega
  rw [← hend, hseg] at hQ
  unfold ssaRead
  rw [wp_seq]
  refine wp_ssaReadInitData h hJ (by omega) ?_
  rw [hm, next_ok]
  rw [wp_get_bind, if_neg (by simp only [rwInfo]; omega), actualCount_eq hm0 hb',
    transferTimes_mul, wp_seq]
  refine wp_readDataOut (h.caches _ _ _ _ _) hJ (by rwa [hend]) hm0 (by omega) fun sid => ?_
  rw [next_ok]
  rw [wp_seq]
  by_cases hmod : (p + m) % B = 0
  · rw [when_neg (by simpa using hmod), wp_pure, next_ok, wp_ofExcept_ok]
    have hQ' := hQ sid
    rw [if_neg (by omega)] at hQ'
    have hwhole : blocks B (p + m)*B = p + m := by
      simp only [blocks, B] at *
      omega
    rw [hwhole]
    exact hQ'
  · rw [when_pos (by simpa using hmod), rwInfo_eq (by omega)]
    refine wp_ssaSeekWith_set (h.caches _ _ _ _ _) hJ (show p + m ≤ c.length by omega) ?_
    have hQ' := hQ sid
    rw [if_pos hmod] at hQ'
    exact hQ'

/-- At the end of the file nothing is read, and the descriptor stands at the start of the block. -/
theorem wp_ssaRead_end (hQ : Q (.ok [], sfd.cached (c.length/B*B) c.length)
      (X.seek f (c.length/B*B))) :
    wp (agent bad) J (ssaRead K n sfd) Q (X.seek f c.length) := by
  unfold ssaRead
  rw [wp_seq]
  refine wp_ssaReadInitData h hJ (le_refl _) ?_
  rw [next_ok]
  rw [wp_get_bind, if_pos (by exact le_refl _), wp_pure]
  exact hQ

theorem wp_ssaRead_zero {b : Nat} (hb : b*B ≤ c.length) (hQ : Q (.ok [], sfd.cached (b*B) c.length)
      (X.seek f (b*B))) :
    wp (agent bad) J (ssaRead K 0 sfd) Q (X.seek f (b*B)) := by
  have hlen := h.length_le
  have hlt : b*B < 4294967296 := by
    simp only [maxFileSize] at hlen
    omega
  have hdiv : b*B/B = b := Nat.mul_div_cancel _ cryptBlockSize_pos
  have hclip : clipped c.length (b*B) 0 = 0 := by
    unfold clipped
    rw [Nat.add_zero, u32_of_lt hlt, if_neg (by omega)]
  have hactual : actualCount (rwInfo (b*B) 0) 0 = 0 := by
    rw [rwInfo_eq (by omega)]
    simp only [actualCount, hdiv, Nat.add_zero, Nat.mul_mod_left, Nat.sub_self, ne_eq,
      not_true_eq_false, if_false]
    rfl
  unfold ssaRead
  rw [wp_seq]
  refine wp_ssaReadInitData h hJ hb ?_
  rw [next_ok, hclip, hdiv]
  rw [wp_get_bind, hactual]
  by_cases hend : b*B ≥ c.length
  · rw [if_pos (by exact hend), wp_pure]
    exact hQ
  · rw [if_neg (by exact hend), wp_seq]
    exact hQ

end

/-- A read of no bytes inside a block is refused, by the copy into a buffer of no bytes. -/
theorem wp_ssaRead_nothing
    (h : Rep K X c sfd f) (hp : p < c.length) (hmod : p % B ≠ 0) (hJ : J (X.files f))
    (hQ : Q (.error .security, sfd.standing (p/B) p c.length)
      (X.seek f p)) :
    wp (agent bad) J (ssaRead K 0 sfd) Q (X.seek f p) := by
  have hlen := h.length_le
  have hlt : p < 4294967296 := by
    simp only [maxFileSize] at hlen
    omega
  have hclip : clipped c.length p 0 = 0 := by
    unfold clipped
    rw [add_zero, u32_of_lt hlt, if_neg (by omega)]
  have hactual : actualCount (rwInfo p 0) 0 = B := by
    rw [rwInfo_eq (by omega)]
    unfold actualCount
    rw [add_zero, if_pos hmod]
    simp only [u32, B] at *
    omega
  have hjc : p/B < blocks B c.length := by
    simp only [blocks, B]
    omega
  have hflag : (0 == 0 && (rwInfo p 0).endOffset != 0) = true := by
    rw [rwInfo_eq (by omega)]
    simpa using hmod
  have hid : (rwInfo p 0).startPos/B = p/B :=
    Nat.mul_div_cancel _ cryptBlockSize_pos
  have hend : (rwInfo p 0).endPos = p := u32_of_lt hlt
  unfold ssaRead
  rw [wp_seq]
  refine wp_ssaReadInitData h.legible hJ (by omega) ?_
  rw [next_ok, hclip]
  rw [wp_get_bind, if_neg (by simp only [rwInfo]; omega), hactual,
    show transferTimes B = 1 from rfl, wp_seq]
  unfold readDataLoop
  dsimp only
  rw [hactual, if_pos (by omega), wp_get_bind, wp_attempt_bind, add_zero, hid]
  refine wp_readBlock (h.caches _ _ _ _ _).legible hJ hjc hjc ?_
  dsimp only
  rw [if_pos (by rfl), wp_pure, next_ok]
  rw [when_pos hflag, wp_seq, hend]
  refine wp_ssaSeekWith_set (h.caches _ _ _ _ _).legible hJ hp.le ?_
  exact hQ

section Wrap

variable (hp : p < c.length) (hn : n < 4294967296) (hw : 4294967296 ≤ p + n)

include hp hn hw

omit [DecidableEq D] in
/-- When the end of the request wraps, it is not clipped. -/
theorem clipped_wrap (h : Rep K X c sfd f) : clipped c.length p n = n := by
  unfold clipped u32
  have hlen := h.length_le
  rw [if_neg (by simp only [maxFileSize] at hlen; omega)]

omit [DecidableEq D] in
theorem actualCount_wrap (h : Rep K X c sfd f) : actualCount (rwInfo p n) n = u32 (4294967296 +
      blocks B (p + n - 4294967296)*B -
        p/B*B) := by
  have hlen := h.length_le
  have hdown : p/B*B ≤ p := div_mul_le_self _ _
  have hsum : u32 (p + n) = p + n - 4294967296 := by
    unfold u32
    simp only [maxFileSize] at hlen
    omega
  unfold actualCount rwInfo
  dsimp only
  have hcover := le_blocks_mul cryptBlockSize_pos (p + n - 4294967296)
  rw [hsum, endPadding_eq]
  refine congrArg u32 ?_
  omega

variable {Q : Post D (List UInt8)}

/-- A wrapped request that ends at the start of its own first block reads nothing. -/
theorem wp_ssaRead_wrap_empty (h : Rep K X c sfd f)
    (hblk : blocks B (p + n - 4294967296) = p/B) (hJ : J (X.files f))
    (hQ : Q (.ok [], sfd.cached (p/B*B) c.length)
      (X.seek f (p/B*B))) :
    wp (agent bad) J (ssaRead K n sfd) Q (X.seek f p) := by
  have hactual : actualCount (rwInfo p n) n = 0 := by
    rw [actualCount_wrap hp hn hw h, hblk, Nat.add_sub_cancel]
    rfl
  unfold ssaRead
  rw [wp_seq]
  refine wp_ssaReadInitData h.legible hJ (by omega) ?_
  rw [next_ok, clipped_wrap hp hn hw h]
  rw [wp_get_bind, if_neg (by simp only [rwInfo]; omega), hactual, wp_seq]
  exact hQ

/-- Any other wrapped request is refused by the copy into the caller's buffer. -/
theorem wp_ssaRead_wrap_refused (h : Rep K X c sfd f)
    (hblk : blocks B (p + n - 4294967296) ≠ p/B) (hJ : J (X.files f))
    (hQ : ∀ sfd' q, Q (.error .security, sfd') (X.state f q)) :
    wp (agent bad) J (ssaRead K n sfd) Q (X.seek f p) := by
  have hlen := h.length_le
  have hactual : B ≤ actualCount (rwInfo p n) n := by
    rw [actualCount_wrap hp hn hw h]
    rcases lt_or_gt_of_ne hblk with hlt | hgt
    · rw [u32_of_lt]
      · simp only [blocks, B, maxFileSize] at *
        omega
      · simp only [blocks, B, maxFileSize] at *
        omega
    · have hnext : blocks B (p + n - 4294967296) = p/B + 1 := by
        simp only [blocks, B] at *
        omega
      rw [hnext, Nat.succ_mul, ← Nat.add_assoc, Nat.add_right_comm, Nat.add_sub_cancel]
      decide
  have hjc : p/B < blocks B c.length := by
    simp only [blocks, B]
    omega
  obtain ⟨t, ht⟩ : ∃ t, transferTimes (actualCount (rwInfo p n) n) = t+1 := by
    refine ⟨transferTimes (actualCount (rwInfo p n) n) - 1, ?_⟩
    have hpos := div_pos hactual cryptBlockSize_pos
    unfold transferTimes
    omega
  have hmem : ∀ count, memmoveRefuses (sub32 n ([] : List UInt8).length) count = true := by
    intro count
    refine memmoveRefuses_of_big ?_
    rw [length_nil, sub32_of_le (zero_le n) hn]
    simp only [securecMemMaxLen, maxFileSize] at *
    omega
  unfold ssaRead
  rw [wp_seq]
  refine wp_ssaReadInitData h.legible hJ (by omega) ?_
  rw [next_ok, clipped_wrap hp hn hw h]
  rw [wp_get_bind, if_neg (by simp only [rwInfo]; omega), ht, wp_seq]
  unfold readDataLoop
  dsimp only
  rw [if_pos (by omega), wp_get_bind, wp_attempt_bind, add_zero]
  have hid : (rwInfo p n).startPos/B = p/B :=
    Nat.mul_div_cancel _ cryptBlockSize_pos
  rw [hid]
  refine wp_readBlock (h.caches _ _ _ _ _).legible hJ hjc hjc ?_
  dsimp only
  rw [hmem, if_pos rfl, wp_pure, next_ok]
  rw [wp_seq]
  by_cases hflag : (t == 0 && (rwInfo p n).endOffset != 0) = true
  · have hend : (rwInfo p n).endPos ≤ c.length := by
      simp only [rwInfo, u32, maxFileSize] at *
      omega
    rw [when_pos hflag]
    refine wp_ssaSeekWith_set (h.caches _ _ _ _ _).legible hJ hend ?_
    exact hQ _ _
  · rw [when_neg hflag, wp_pure, next_ok, wp_ofExcept_error]
    exact hQ _ _

end Wrap

end TeeOs.Ssa
