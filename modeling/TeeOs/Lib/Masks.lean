import Mathlib

/-!
# Sets of names as masks

Each name has a mask, a set is the union of the masks of its names, and a name is
looked up by a test for common bits. The test is right for a name as soon as the
masks tell it apart from every name of the set.
-/

namespace TeeOs.Lib.Masks

variable {α : Type} {w : Nat} {mask : α → BitVec w}

/-- The masks of a list of names joined to `m`. -/
def join (mask : α → BitVec w) (m : BitVec w) (l : List α) : BitVec w :=
  l.foldl (fun m a => m ||| mask a) m

theorem and_or_ne_zero (x y z : BitVec w) : x &&& (y ||| z) ≠ 0#w ↔ x &&& y ≠ 0#w ∨ x &&& z ≠ 0#w := by
  have hdist : x &&& (y ||| z) = (x &&& y) ||| (x &&& z) := by
    ext i
    simp only [BitVec.getElem_and, BitVec.getElem_or, Bool.and_or_distrib_left]
  rw [hdist, Ne, BitVec.or_eq_zero_iff, not_and_or]

theorem and_eq_right_iff (x y : BitVec w) :
    x &&& y = y ↔ ∀ i (hi : i < w), y[i] = true → x[i] = true := by
  constructor
  · intro h i hi hy
    have hbit := congrArg (fun v : BitVec w => v[i]) h
    simp only [BitVec.getElem_and, hy, Bool.and_true] at hbit
    exact hbit
  · intro h
    ext i hi
    cases hy : y[i] with
    | false => simp only [BitVec.getElem_and, hy, Bool.and_false]
    | true => simp only [BitVec.getElem_and, hy, h i hi hy, Bool.and_true]

/-- A union is contained in a set if both parts are. -/
theorem and_or_eq_iff (x y z : BitVec w) : x &&& (y ||| z) = y ||| z ↔ x &&& y = y ∧ x &&& z = z := by
  simp only [and_eq_right_iff, BitVec.getElem_or, Bool.or_eq_true]
  constructor
  · intro h
    exact ⟨fun i hi hy => h i hi (Or.inl hy), fun i hi hz => h i hi (Or.inr hz)⟩
  · rintro ⟨hy, hz⟩ i hi (h | h)
    · exact hy i hi h
    · exact hz i hi h

/-- A common bit with a union is a common bit with one of its parts. -/
theorem and_join_ne_zero (x m : BitVec w) (l : List α) :
    x &&& join mask m l ≠ 0#w ↔ x &&& m ≠ 0#w ∨ ∃ a ∈ l, x &&& mask a ≠ 0#w := by
  induction l generalizing m with
  | nil => simp only [join, List.foldl_nil, List.not_mem_nil, false_and, exists_false, or_false]
  | cons b l ih =>
    have hstep := ih (m ||| mask b)
    simp only [join, List.foldl_cons] at hstep ⊢
    rw [hstep, and_or_ne_zero]
    simp only [List.mem_cons, exists_eq_or_imp, or_assoc]

/-- The test finds exactly the names of the set. -/
theorem and_join_iff_mem {a : α} {l : List α} (h : ∀ b ∈ l, mask a &&& mask b ≠ 0#w ↔ a = b) :
    mask a &&& join mask 0#w l ≠ 0#w ↔ a ∈ l := by
  rw [and_join_ne_zero]
  constructor
  · rintro (hzero | ⟨b, hb, hab⟩)
    · exact absurd BitVec.and_zero hzero
    · rw [(h b hb).mp hab]
      exact hb
  · intro ha
    exact Or.inr ⟨a, ha, (h a ha).mpr rfl⟩

end TeeOs.Lib.Masks
