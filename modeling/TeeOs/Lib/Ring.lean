import Mathlib

/-!
# Ring buffers

A ring of `n` slots with a place to write and a place to read, and no counter:
a slot is free when it holds `none`. `Represents` relates it to the list of
waiting elements, the oldest first. Writing to a free slot appends and emptying
the slot at the read place drops the head.
-/

namespace TeeOs.Lib.Ring

open List Function Nat

variable {α : Type} {n : Nat} {slot : Nat → Option α} {i o : Nat} {q : List α}

/-- The place behind `i`. -/
def next (n i : Nat) : Nat := if i+1 ≥ n then 0 else i+1

/-- The ring holds the list `q`, from the read place `o` to the write place `i`. -/
structure Represents (n : Nat) (slot : Nat → Option α) (i o : Nat) (q : List α) : Prop where
  out_lt : o < n
  length_le : q.length ≤ n
  in_eq : i = (o + q.length) % n
  slot_eq : ∀ k, k < n → slot ((o + k) % n) = q[k]?

theorem represents_empty (hn : 0 < n) (hs : ∀ k, slot k = none) : Represents n slot 0 0 [] where
  out_lt := hn
  length_le := zero_le n
  in_eq := (zero_mod n).symm
  slot_eq := fun _ _ => hs _

theorem next_eq (h : i < n) : next n i = (i+1) % n := by
  unfold next
  by_cases hw : i+1 ≥ n
  · have heq : i+1 = n := by omega
    rw [if_pos hw, heq, mod_self]
  · rw [if_neg hw, mod_eq_of_lt (by omega)]

/-- Two places of the ring are the same only at the same distance. -/
theorem place_inj {j k : Nat} (hj : j < n) (hk : k < n) (h : (o + j) % n = (o + k) % n) : j = k := by
  have hmod : j % n = k % n := Nat.ModEq.add_left_cancel' o h
  rwa [mod_eq_of_lt hj, mod_eq_of_lt hk] at hmod

namespace Represents

section

variable (h : Represents n slot i o q)
include h

theorem in_lt : i < n := by
  rw [h.in_eq]
  exact mod_lt _ (zero_lt_of_lt h.out_lt)

theorem slot_out : slot o = q.head? := by
  have h0 := h.slot_eq 0 (zero_lt_of_lt h.out_lt)
  rw [add_zero, mod_eq_of_lt h.out_lt] at h0
  rw [h0, head?_eq_getElem?]

/-- The slot to write to is free unless the ring is full. -/
theorem slot_in_none : slot i = none ↔ q.length < n := by
  constructor
  · intro hfree
    rcases lt_or_ge q.length n with hlt | hge
    · exact hlt
    have hfull : q.length = n := le_antisymm h.length_le hge
    have hio : i = o := by
      rw [h.in_eq, hfull, add_mod_right, mod_eq_of_lt h.out_lt]
    rw [hio, h.slot_out, head?_eq_none_iff] at hfree
    have hpos := h.out_lt
    rw [hfree, length_nil] at hfull
    omega
  · intro hlt
    rw [h.in_eq, h.slot_eq _ hlt]
    exact getElem?_eq_none (le_rfl)

theorem push (hlt : q.length < n) (a : α) :
    Represents n (Function.update slot i (some a)) (next n i) o (q ++ [a]) := by
  refine ⟨h.out_lt, ?_, ?_, fun k hk => ?_⟩
  · rw [length_append]
    exact hlt
  · rw [next_eq h.in_lt, h.in_eq, length_append, length_singleton, mod_add_mod, add_assoc]
  · by_cases hkq : k = q.length
    · subst hkq
      rw [← h.in_eq, update_self, getElem?_append_right (le_rfl), Nat.sub_self]
      rfl
    · have hne : (o + k) % n ≠ i := by
        rw [h.in_eq]
        intro heq
        exact hkq (place_inj hk hlt heq)
      rw [update_of_ne hne, h.slot_eq k hk]
      rcases lt_or_ge k q.length with hin | hout
      · rw [getElem?_append_left hin]
      · rw [getElem?_eq_none hout, getElem?_eq_none]
        rw [length_append, length_singleton]
        omega

end

theorem pop {a : α} (h : Represents n slot i o (a :: q)) :
    Represents n (Function.update slot o none) i (next n o) q := by
  have hlen := h.length_le
  have hn := h.out_lt
  rw [length_cons] at hlen
  refine ⟨?_, by omega, ?_, fun k hk => ?_⟩
  · rw [next_eq hn]
    exact mod_lt _ (by omega)
  · rw [next_eq hn, h.in_eq, length_cons, mod_add_mod]
    congr 1
    omega
  · rw [next_eq hn, mod_add_mod, add_assoc, add_comm 1 k]
    by_cases hlast : k+1 = n
    · -- the emptied slot is the last one now
      rw [hlast, add_mod_right, mod_eq_of_lt hn, update_self, getElem?_eq_none (by omega)]
    · have hne : (o + (k+1)) % n ≠ o := by
        intro heq
        have h0 : (o + (k+1)) % n = (o + 0) % n := by
          rw [heq, add_zero, mod_eq_of_lt hn]
        exact succ_ne_zero k (place_inj (by omega) (by omega) h0)
      rw [update_of_ne hne, h.slot_eq (k+1) (by omega), getElem?_cons_succ]

end Represents

end TeeOs.Lib.Ring
