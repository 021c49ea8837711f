import Mathlib

/-!
# Bitmaps of numbers in use

Setting and clearing one bit, and the search for a clear bit.
-/

namespace TeeOs.Lib.Bitmap

open BitVec

variable {w : Nat} {b : BitVec w} {i j : Nat}

def set (b : BitVec w) (i : Nat) : BitVec w := if i < w then b ||| twoPow w i else b

def clear (b : BitVec w) (i : Nat) : BitVec w := if i < w then b &&& ~~~twoPow w i else b

/-- The first clear bit. -/
def free? (b : BitVec w) : Option Nat := (List.range w).find? fun i => !b.getLsbD i

theorem getLsbD_set (hi : i < w) : (set b i).getLsbD j = (b.getLsbD j || decide (i = j)) := by
  rw [set, if_pos hi, getLsbD_or, getLsbD_twoPow]
  by_cases hij : i = j
  · simp only [← hij, hi, decide_true, Bool.true_and]
  · simp only [hij, decide_false, Bool.and_false]

theorem getLsbD_clear : (clear b i).getLsbD j = (b.getLsbD j && !decide (i = j)) := by
  unfold clear
  by_cases hj : j < w
  · split
    · rw [getLsbD_and, getLsbD_not, getLsbD_twoPow]
      simp only [hj, decide_true, Bool.true_and]
      by_cases hij : i = j
      · simp only [hij, decide_true, Bool.and_true, hj]
      · simp only [hij, decide_false, Bool.and_false]
    · have hij : i ≠ j := by omega
      simp only [hij, decide_false, Bool.not_false, Bool.and_true]
  · have hge := Nat.le_of_not_lt hj
    simp only [getLsbD_of_ge _ _ hge, Bool.false_and]

theorem free?_spec (h : free? b = some i) : i < w ∧ b.getLsbD i = false := by
  have hmem := List.mem_range.mp (List.mem_of_find?_eq_some h)
  have hclear := List.find?_some h
  exact ⟨hmem, by simpa using hclear⟩

end TeeOs.Lib.Bitmap
