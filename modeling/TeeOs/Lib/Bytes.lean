import Mathlib

/-!
# Arrays with zero fill, and their blocks

`resize` and `overlay` are the two ways a file changes; a cell past the end
reads as zero, so both are determined by a length and by their cells. `block`
and `pad` cut an array into whole blocks. The block size is a parameter.
-/

namespace TeeOs.Lib.Bytes

open List Nat

variable {α : Type} [Zero α]

/-- The cell at `i`, zero past the end. -/
def cell (l : List α) (i : Nat) : α := l.getD i 0

/-- Cut to `n` cells or extend with zeros to `n` cells. -/
def resize (l : List α) (n : Nat) : List α := l.take n ++ List.replicate (n-l.length) 0

/-- Write `d` at `p`; a gap in front of `p` is filled with zeros. -/
def overlay (l : List α) (p : Nat) (d : List α) : List α :=
  resize l p ++ d ++ l.drop (p+d.length)

def block {β : Type} (B i : Nat) (l : List β) : List β := (l.drop (i*B)).take B

/-- The number of blocks that hold `n` cells. -/
def blocks (B n : Nat) : Nat := (n+B-1)/B

/-- The array extended with zeros to whole blocks. -/
def pad (B : Nat) (l : List α) : List α := resize l (blocks B l.length*B)

variable {i p lo hi : Nat} {l : List α} {β : Type}

theorem cell_of_le (h : l.length ≤ i) : cell l i = 0 :=
  getD_eq_default _ _ h

theorem cell_append (l m : List α) (i : Nat) :
    cell (l++m) i = if i < l.length then cell l i else cell m (i-l.length) := by
  split
  case isTrue h => exact getD_append _ _ _ _ h
  case isFalse h => exact getD_append_right _ _ _ _ (by omega)

theorem cell_take (l : List α) (n i : Nat) : cell (l.take n) i = if i < n then cell l i else 0 := by
  unfold cell
  simp only [getD_eq_getElem?_getD, getElem?_take]
  split <;> rfl

theorem cell_drop (l : List α) (n i : Nat) : cell (l.drop n) i = cell l (n+i) := by
  unfold cell
  simp only [getD_eq_getElem?_getD, getElem?_drop]

theorem cell_zeros (n i : Nat) : cell (List.replicate n (0 : α)) i = 0 := by
  unfold cell
  by_cases h : i < n
  · simp [getD_eq_getElem?_getD, h]
  · simp [getD_eq_getElem?_getD, h]

theorem ext_cell {m : List α} (hl : l.length = m.length)
    (hc : ∀ i, i < l.length → cell l i = cell m i) : l = m := by
  refine ext_getElem hl fun i h h' => ?_
  have := hc i h
  unfold cell at this
  rwa [getD_eq_getElem _ _ h, getD_eq_getElem _ _ h'] at this

@[simp] theorem length_resize (l : List α) (n : Nat) : (resize l n).length = n := by
  simp only [resize, length_append, length_take, length_replicate]
  omega

theorem cell_resize (l : List α) (n i : Nat) :
    cell (resize l n) i = if i < n then cell l i else 0 := by
  unfold resize
  rw [cell_append, cell_zeros, cell_take, length_take]
  by_cases h : i < n
  · by_cases h' : i < l.length
    · rw [if_pos (by omega), if_pos h]
    · rw [if_neg (by omega), if_pos h, cell_of_le (by omega)]
  · rw [if_neg (by omega), if_neg h]

@[simp] theorem length_overlay (l : List α) (p : Nat) (d : List α) :
    (overlay l p d).length = max l.length (p+d.length) := by
  simp only [overlay, length_append, length_resize, length_drop]
  omega

theorem cell_overlay (l : List α) (p : Nat) (d : List α) (i : Nat) : cell (overlay l p d) i =
      if p ≤ i ∧ i < p+d.length then cell d (i-p) else cell l i := by
  unfold overlay
  rw [cell_append, cell_append, cell_resize, cell_drop, length_append, length_resize]
  by_cases h : i < p
  · rw [if_pos (by omega), if_pos h, if_pos h, if_neg (by omega)]
  · by_cases h' : i < p+d.length
    · rw [if_pos h', if_neg h, if_pos ⟨by omega, h'⟩]
    · rw [if_neg h', if_neg (by omega)]
      congr 1
      omega

theorem resize_of_length {n : Nat} (h : l.length = n) : resize l n = l := by
  subst h
  simp [resize]

/-- Appending zeros is resizing upwards. -/
theorem overlay_zeros (l : List α) (n : Nat) :
    overlay l l.length (List.replicate n 0) = resize l (l.length+n) := by
  refine ext_cell (by simp) fun i hi => ?_
  simp only [length_overlay, length_replicate] at hi
  have hn : i < l.length+n := by omega
  rw [cell_overlay, cell_resize, cell_zeros, length_replicate, if_pos hn]
  by_cases h : l.length ≤ i
  · rw [if_pos ⟨h, hn⟩, cell_of_le h]
  · rw [if_neg (by omega)]

theorem overlay_nil (l : List α) (h : p ≤ l.length) : overlay l p [] = l := by
  refine ext_cell (by simpa using h) fun i _ => ?_
  rw [cell_overlay, if_neg (by simp only [length_nil]; omega)]

theorem overlay_length (l d : List α) : overlay l l.length d = l ++ d := by
  unfold overlay
  rw [resize_of_length rfl, drop_of_length_le (le_add_right _ _), append_nil]

section Blocks

variable {B : Nat}

theorem cell_block (i : Nat) (l : List α) (j : Nat) :
    cell (block B i l) j = if j < B then cell l (i*B+j) else 0 := by
  unfold block
  rw [cell_take, cell_drop]

variable {i j n : Nat} {l e : List α}

theorem length_block {l : List β} (h : i*B+B ≤ l.length) : (block B i l).length = B := by
  simp only [block, length_take, length_drop]
  omega

theorem block_le_of_lt (h : i < j) : i*B+B ≤ j*B := by
  rw [← succ_mul]
  exact mul_le_mul_right B h

theorem block_index_ne {k : Nat} (h : j ≠ i) (hk : k < B) : ¬ (i*B ≤ j*B+k ∧ j*B+k < i*B+B) := by
  rintro ⟨h₁, h₂⟩
  rcases lt_or_gt_of_ne h with h | h
  · have := block_le_of_lt (B := B) h
    omega
  · have := block_le_of_lt (B := B) h
    omega

/-- A block that ends inside an array grown by block `j` ended inside it before. -/
theorem block_le_of_ne (hij : i ≠ j) (hi : i*B+B ≤ max n (j*B+B)) (hj : j*B ≤ n) : i*B+B ≤ n := by
  rcases lt_or_gt_of_ne hij with h | h
  · have := block_le_of_lt (B := B) h
    omega
  · have := block_le_of_lt (B := B) h
    omega

theorem block_overlay_self (he : e.length = B) : block B i (overlay l (i*B) e) = e := by
  have hl : (block B i (overlay l (i*B) e)).length = B :=
    length_block (by rw [length_overlay, he]; exact le_max_right _ _)
  refine ext_cell (by rw [hl, he]) fun j hj => ?_
  rw [hl] at hj
  rw [cell_block, if_pos hj, cell_overlay, he, if_pos (by omega)]
  congr 1
  omega

theorem block_overlay_of_ne (he : e.length = B) (hij : j ≠ i)
    (hj : j*B+B ≤ l.length) : block B j (overlay l (i*B) e) = block B j l := by
  have hl : (block B j (overlay l (i*B) e)).length = B :=
    length_block (by rw [length_overlay]; omega)
  refine ext_cell (by rw [hl, length_block hj]) fun k hk => ?_
  rw [hl] at hk
  rw [cell_block, cell_block, if_pos hk, if_pos hk, cell_overlay, he,
    if_neg (block_index_ne hij hk)]

theorem block_resize (h : i*B+B ≤ n) (hl : i*B+B ≤ l.length) :
    block B i (resize l n) = block B i l := by
  have hlen : (block B i (resize l n)).length = B := length_block (by rwa [length_resize])
  refine ext_cell (by rw [hlen, length_block hl]) fun k hk => ?_
  rw [hlen] at hk
  rw [cell_block, cell_block, if_pos hk, if_pos hk, cell_resize, if_pos (by omega)]

theorem le_blocks_mul (hB : 0 < B) (n : Nat) : n ≤ blocks B n*B := by
  have h := div_add_mod (n+B-1) B
  have hm := mod_lt (n+B-1) hB
  rw [mul_comm] at h
  unfold blocks
  omega

theorem blocks_le_iff (hB : 0 < B) (n k : Nat) : blocks B n ≤ k ↔ n ≤ k*B := by
  unfold blocks
  rw [div_le_iff_le_mul_add_pred hB, mul_comm]
  omega

theorem blocks_mono {m : Nat} (h : m ≤ n) : blocks B m ≤ blocks B n := by
  exact Nat.div_le_div_right (by omega)

theorem cell_pad (hB : 0 < B) (l : List α) (i : Nat) : cell (pad B l) i = cell l i := by
  unfold pad
  rw [cell_resize]
  have h := le_blocks_mul hB l.length
  split
  · rfl
  · rw [cell_of_le (by omega)]

@[simp] theorem length_pad (l : List α) : (pad B l).length = blocks B l.length*B := by
  exact length_resize _ _

end Blocks

theorem take_drop_block (l : List β) (hlo : i*B ≤ lo) (hhi : hi ≤ i*B+B) :
    ((block B i l).drop (lo - i*B)).take (hi-lo) = (l.drop lo).take (hi-lo) := by
  unfold block
  rw [drop_take, drop_drop, take_take, Nat.add_sub_cancel' hlo, min_eq_left (by omega)]

theorem take_drop_append (l : List β) (hp : p ≤ lo) (hlo : lo ≤ hi) :
    (l.drop p).take (lo-p) ++ (l.drop lo).take (hi-lo) = (l.drop p).take (hi-p) := by
  have hsplit : hi - p = (lo-p) + (hi-lo) := by omega
  rw [hsplit, take_add, drop_drop, Nat.add_sub_cancel' hp]

theorem take_drop_pad (hB : 0 < B) (l : List α) (hlo : lo ≤ hi) (hhi : hi ≤ l.length) :
    ((pad B l).drop lo).take (hi-lo) = (l.drop lo).take (hi-lo) := by
  unfold pad resize
  rw [take_of_length_le (le_blocks_mul hB _), drop_append_of_le_length (by omega),
    take_append_of_le_length (by rw [length_drop]; omega)]

end TeeOs.Lib.Bytes
