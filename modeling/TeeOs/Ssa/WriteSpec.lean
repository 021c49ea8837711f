import TeeOs.Ssa.SeekSpec

/-!
# One block of a write

The three parts of a transfer buffer and the block it replaces. Throughout, a
write of `d` at `p` into the content `c` is at block `j`; the blocks in front of
`j` already hold the new content, the others still the old one.
-/

namespace TeeOs.Ssa

open Lib.Calls Lib.Bytes List Proc Nat
open TeeOs.Ssa renaming cryptBlockSize → B

variable {D : Type} [DecidableEq D] {bad : RawFile D → Prop}
  {J : Files D → Prop} {K : Crypto D} {X : View D} {c : List UInt8}
  {sfd : Sfd D} {f : RawFile D} {plain : List UInt8}

variable {data : List UInt8} {i n j : Nat} {Q : Post D (List UInt8)}

theorem checkBlockIntegrity_block (hd : i*B + B ≤ data.length) (ids : Numbered sfd.firstBlock)
    (hb : sfd.firstBlock[i]? = some ⟨i, K.hash (block B i data)⟩) :
    checkBlockIntegrity K sfd 1 (block B i data) i = .ok () := by
  have ht := take_of_length_le (le_of_eq (length_block hd))
  unfold checkBlockIntegrity
  rw [findBlock_eq ids, hb]
  simp only [ht, if_true]
  rfl

section

variable (hi : i*B + B ≤ plain.length)
include hi

omit [DecidableEq D] in
theorem Encrypts.decrypt_block (h : Encrypts K plain data) :
    cryptBlocks K.decrypt 1 i (block B i data) = block B i plain := by
  have hl := length_block (B := B) (l := data) (by rw [h.length_eq]; exact hi)
  simp only [cryptBlocks]
  rw [take_of_length_le (le_of_eq hl), drop_of_length_le (le_of_eq hl),
    append_nil, h.block_eq i hi, K.decrypt_encrypt i _ (length_block hi)]

/-- A block with its hash in the list passes the check and decrypts to the plain block. -/
theorem wp_decryptDataBlock {s : Fs D} (h : Encrypts K plain data) (ids : Numbered sfd.firstBlock)
    (hb : sfd.firstBlock[i]? = some ⟨i, K.hash (block B i data)⟩)
    (hQ : Q (.ok (block B i plain), { sfd with startBlockId := i }) s) :
    wp (agent bad) J (decryptDataBlock K (block B i data) i sfd) Q s := by
  have hd : i*B + B ≤ data.length := by
    rw [h.length_eq]
    exact hi
  have hcheck : checkBlockIntegrity K { sfd with startBlockId := i } 1
      (block B i data) i = .ok () := checkBlockIntegrity_block hd ids hb
  unfold decryptDataBlock
  rw [wp_modify_bind, wp_get_bind, length_block hd, Nat.div_self cryptBlockSize_pos,
    hcheck, wp_seq, wp_ofExcept_ok, next_ok,
    h.decrypt_block hi, wp_pure]
  exact hQ

theorem wp_readOriginBlock {pos : Nat} (h : Stored K X plain sfd f) (hJ : J (X.files f))
    (hQ : ∀ q, Q (.ok (block B i plain), { sfd with startBlockId := i }) (X.state f q)) :
    wp (agent bad) J (readOriginBlock K (i*B) sfd) Q (X.state f pos) := by
  unfold readOriginBlock
  rw [wp_get_bind, wp_seq]
  refine wp_ssaFsFseek h.nfd_eq (q := i*B + sfsMetadataSize)
    hJ (by simp only [Fs.seekBase]; omega) ?_
  rw [next_ok, wp_seq]
  refine wp_ssaFsFread h.nfd_eq hJ (by omega) ?_
  rw [next_ok, Nat.add_sub_cancel, Nat.mul_div_cancel i cryptBlockSize_pos]
  have hb := h.hashed.hash_eq i (by rw [h.encrypts.length_eq]; exact hi)
  exact wp_decryptDataBlock hi h.encrypts h.hashed.ids hb (hQ _)

end

theorem partial_block_le {p : Nat} (hp : p ≤ n) (h : p % B ≠ 0) : p/B*B + B ≤ blocks B n*B := by
  simp only [blocks, B] at *
  omega

theorem full_block_le (hj : j < blocks B n) (h : ¬ (j+1 = blocks B n ∧ n % B ≠ 0)) :
    j*B + B ≤ n := by
  simp only [blocks, B] at *
  omega

theorem last_block_eq (hj : j+1 = blocks B n) (h : n % B ≠ 0) : n = j*B + n % B := by
  simp only [blocks, B] at *
  omega

section Buffer

variable {p j : Nat} {d : List UInt8}

variable {n pos : Nat} {Q : Post D (List UInt8)} {buf : List UInt8}

theorem rwInfo_eq (hb : p + n < 4294967296) :
    rwInfo p n = ⟨p, p/B*B, p - p/B*B, p + n, (p + n) % B⟩ := by
  simp only [rwInfo, u32_of_lt hb]

theorem endPadding_eq (e : Nat) : (if e % B ≠ 0 then B - e % B else 0) = blocks B e*B - e := by
  by_cases h : e % B ≠ 0
  · rw [if_pos h]
    simp only [blocks, B] at *
    omega
  · rw [if_neg h]
    simp only [blocks, B] at *
    omega

/-- A transfer of `n` bytes moves all blocks it touches. -/
theorem actualCount_eq (hn : 0 < n) (hb : p + n + B < 4294967296) :
    actualCount (rwInfo p n) n = (blocks B (p + n) - p/B)*B := by
  unfold actualCount
  rw [rwInfo_eq (by omega)]
  rw [endPadding_eq, u32_of_lt]
  · simp only [blocks, B]
    omega
  · simp only [blocks, B] at *
    omega

theorem transferTimes_mul (k : Nat) : transferTimes (k*B) = k := by
  unfold transferTimes
  rw [Nat.mul_div_cancel _ cryptBlockSize_pos, Nat.mul_mod_left, if_neg (by simp), Nat.add_zero]

/-- The block that a round of the write leaves is the block of the overlaid content. -/
theorem buffer_eq (hl : buf.length = B) (hj : j < blocks B (p + d.length))
    (hc : ∀ x, x < B → cell buf x = if x < p - j*B then cell c (j*B + x)
      else if x < p + d.length - j*B then cell d (j*B + x - p)
      else cell c (j*B + x)) :
    buf = block B j (pad B (overlay c p d)) := by
  have hle : j*B + B ≤ (pad B (overlay c p d)).length := by
    rw [length_pad, length_overlay]
    simp only [blocks, B] at *
    omega
  refine ext_cell (by rw [hl, length_block hle]) fun x hx => ?_
  rw [hl] at hx
  rw [hc x hx, cell_block, if_pos hx, cell_pad cryptBlockSize_pos, cell_overlay]
  by_cases h₁ : x < p - j*B
  · rw [if_pos h₁, if_neg (by omega)]
  · rw [if_neg h₁]
    by_cases h₂ : x < p + d.length - j*B
    · rw [if_pos h₂, if_pos (by omega)]
    · rw [if_neg h₂, if_neg (by omega)]

/-- Block `j` is one of those that `n` bytes at `p` touch, and the flags say whether it is the
first or the last and not all of it is written. -/
structure Touched (p n j : Nat) (startFlag endFlag : Bool) : Prop where
  ge : p/cryptBlockSize ≤ j
  lt : j < blocks cryptBlockSize (p + n)
  start : startFlag = true ↔ j = p/cryptBlockSize ∧ p % cryptBlockSize ≠ 0
  last : endFlag = true ↔ j+1 = blocks cryptBlockSize (p + n) ∧ (p + n) % cryptBlockSize ≠ 0

variable {startFlag endFlag : Bool}

variable (h : Stored K X plain sfd f) (hsize : sfd.size = c.length)
  (hlen : (pad B c).length ≤ plain.length)
  (hcells : ∀ i, j*B ≤ i → cell plain i = cell c i) (hb : p + d.length < 4294967296)
  (ht : Touched p d.length j startFlag endFlag) (hJ : J (X.files f))
include h hsize hlen hcells hb ht hJ

/-- The part of the buffer in front of the data. -/
theorem wp_startPart (hp : p ≤ c.length) (hQ : ∀ buf sid q, buf.length = B →
      (∀ x, cell buf x = if x < p - j*B then cell c (j*B + x) else 0) →
      (startFlag = false → q = pos) →
      Q (.ok buf, { sfd with startBlockId := sid }) (X.state f q)) :
    wp (agent bad) J ((if startFlag = true then fillStartBlockOrigin K (rwInfo p d.length)
          (List.replicate B 0)
        else pure (List.replicate B 0) : SsaM D (List UInt8)) sfd) Q
      (X.state f pos) := by
  cases hflag : startFlag with
  | false =>
    have hnot := mt ht.start.mpr (by rw [hflag]; exact Bool.false_ne_true)
    have hj := ht.ge
    refine hQ _ sfd.startBlockId pos (length_replicate) (fun x => ?_) (fun _ => rfl)
    rw [cell_zeros, if_neg]
    simp only [B] at *
    omega
  | true =>
    obtain ⟨rfl, hp0⟩ := ht.start.mp hflag
    have hle : p/B*B + B ≤ plain.length := by
      rw [length_pad] at hlen
      exact (partial_block_le hp hp0).trans hlen
    rw [if_pos rfl]
    unfold fillStartBlockOrigin
    rw [rwInfo_eq hb, wp_get_bind]
    dsimp only
    rw [if_pos (by rw [hsize]; simp only [B] at *; omega), wp_seq]
    refine wp_readOriginBlock hle h hJ fun q => ?_
    have hbl := length_block hle
    refine hQ _ _ q ?_ (fun x => ?_) (fun hf => by rw [hflag] at hf; cases hf)
    · rw [length_overlay, length_replicate, length_take, hbl]
      omega
    · rw [cell_overlay, cell_zeros, length_take, hbl, cell_take, Nat.sub_zero, cell_block]
      by_cases hx : x < p - p/B*B
      · have hxB : x < B := by
          simp only [B] at *
          omega
        rw [if_pos ⟨zero_le x, by omega⟩, if_pos hx, if_pos hxB, if_pos hx,
          hcells _ (le_add_right _ _)]
      · rw [if_neg (by omega), if_neg hx]

/-- The part of the buffer behind the data, which completes the block. -/
theorem wp_endPart (hbl : buf.length = B)
    (hbuf : ∀ x, cell buf x = if x < p - j*B then cell c (j*B + x)
      else if x < p + d.length - j*B ∧ x < B
        then cell d (j*B + x - p) else 0) (hQ : ∀ sid q, (endFlag = false → q = pos) →
      Q (.ok (block B j (pad B (overlay c p d))), { sfd with startBlockId := sid }) (X.state f q)) :
    wp (agent bad) J ((if endFlag = true then fillEndBlockOrigin K (rwInfo p d.length) buf
        else pure buf : SsaM D (List UInt8)) sfd) Q (X.state f pos) := by
  have hj := ht.lt
  cases hflag : endFlag with
  | false =>
    have hnot := mt ht.last.mpr (by rw [hflag]; exact Bool.false_ne_true)
    have hfull := full_block_le hj hnot
    have heq : buf = block B j (pad B (overlay c p d)) := by
      refine buffer_eq hbl hj fun x hx => ?_
      rw [hbuf x, if_pos (c := x < p + d.length - j*B ∧ x < B)
        ⟨by omega, hx⟩, if_pos (c := x < p + d.length - j*B) (by omega)]
    rw [if_neg Bool.false_ne_true, wp_pure, heq]
    exact hQ sfd.startBlockId pos fun _ => rfl
  | true =>
    obtain ⟨hlast, hmod⟩ := ht.last.mp hflag
    have hend := last_block_eq hlast hmod
    have hq : ∀ q : Nat, endFlag = false → q = pos := fun q hf => by rw [hflag] at hf; cases hf
    have hlt : (p + d.length) % B < B := mod_lt _ cryptBlockSize_pos
    rw [if_pos rfl]
    unfold fillEndBlockOrigin
    rw [rwInfo_eq hb, wp_get_bind]
    generalize hr : (p + d.length) % B = r at *
    by_cases hin : p + d.length < c.length
    · have hle : j*B + B ≤ plain.length := by
        rw [length_pad] at hlen
        have := (blocks_le_iff cryptBlockSize_pos c.length j).not.mpr (by omega)
        have := mul_le_mul_right B (show j+1 ≤ blocks B c.length by omega)
        rw [succ_mul] at this
        omega
      rw [if_pos (by rw [hsize]; exact hin), wp_seq, show p + d.length - r = j*B by omega]
      refine wp_readOriginBlock hle h hJ fun q => ?_
      rw [next_ok, wp_pure]
      have hol := length_block hle
      have heq : overlay buf r ((block B j plain).drop r) = block B j (pad B (overlay c p d)) := by
        refine buffer_eq ?_ hj fun x hx => ?_
        · rw [length_overlay, hbl, length_drop, hol]
          omega
        · rw [cell_overlay, length_drop, hol, cell_drop, cell_block, hbuf x]
          by_cases hxr : r ≤ x
          · rw [if_pos (by omega), if_pos (by omega), if_neg (by omega), if_neg (by omega),
              hcells _ (le_add_right _ _)]
            congr 2
            omega
          · rw [if_neg (by omega)]
            by_cases hxp : x < p - j*B
            · rw [if_pos hxp, if_pos hxp]
            · rw [if_neg hxp, if_neg hxp, if_pos (by omega), if_pos (by omega)]
      rw [heq]
      exact hQ _ q (hq q)
    · have hz : ∀ x, r ≤ x → cell c (j*B + x) = 0 := fun x hx => cell_of_le (by omega)
      have hcomp : ∀ x, x < B → cell buf x = if x < p - j*B then cell c (j*B + x)
          else if x < p + d.length - j*B then cell d (j*B + x - p)
          else cell c (j*B + x) := by
        intro x hx
        rw [hbuf x]
        by_cases hxr : r ≤ x
        · rw [if_neg (c := x < p + d.length - j*B) (by omega), hz x hxr,
            if_neg (c := _ ∧ _) (by omega)]
        · rw [if_pos (c := x < p + d.length - j*B) (by omega), if_pos (c := _ ∧ _) (by omega)]
      have hzero : overlay buf r (List.replicate (B - r) 0) = buf := by
        refine ext_cell ?_ fun x _ => ?_
        · rw [length_overlay, hbl, length_replicate]
          omega
        · rw [cell_overlay, cell_zeros, length_replicate]
          by_cases hxr : r ≤ x ∧ x < r + (B - r)
          · rw [if_pos hxr, hbuf x, if_neg (by omega), if_neg (by omega)]
          · rw [if_neg hxr]
      rw [if_neg (by rw [hsize]; exact hin), hzero, ite_self, wp_pure, buffer_eq hbl hj hcomp]
      exact hQ _ pos (hq pos)

end Buffer

end TeeOs.Ssa
