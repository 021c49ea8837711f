import TeeOs.Lib.Keyed

/-!
# Counting over tables

`tally f l` adds up `f` over a list. References are counted this way: the counter
of an object is the tally of its holders. The lemmas say how a tally changes when a
record is added, edited or deleted by its key.
-/

namespace TeeOs.Lib.Tally

open TeeOs.Lib.Keyed List

variable {α κ : Type} [DecidableEq κ] {key : α → κ} {k : κ} {f : α → Nat} {g : α → α}
  {l m : List α} {a : α}

def tally (f : α → Nat) (l : List α) : Nat := (l.map f).sum

@[simp] theorem tally_nil : tally f [] = 0 := rfl

@[simp] theorem tally_cons : tally f (a :: l) = f a + tally f l := sum_cons

@[simp] theorem tally_append : tally f (l++m) = tally f l + tally f m := by
  rw [tally, map_append, sum_append, tally, tally]

theorem tally_perm (h : l.Perm m) : tally f l = tally f m := (h.map f).sum_eq

theorem tally_eq_zero (h : ∀ a ∈ l, f a = 0) : tally f l = 0 := by
  induction l with
  | nil => rfl
  | cons a l ih =>
    rw [tally_cons, h a mem_cons_self, ih fun b hb => h b (mem_cons_of_mem a hb)]

theorem le_tally (h : a ∈ l) : f a ≤ tally f l := by
  induction l with
  | nil => exact absurd h not_mem_nil
  | cons b l ih =>
    rcases mem_cons.mp h with rfl | hl
    · exact Nat.le_add_right _ _
    · exact Nat.le_trans (ih hl) (Nat.le_add_left _ _)

theorem tally_le {f' : α → Nat} (h : ∀ a ∈ l, f a ≤ f' a) : tally f l ≤ tally f' l := by
  induction l with
  | nil => exact Nat.le_refl 0
  | cons a l ih =>
    have hhead := h a mem_cons_self
    have htail := ih fun b hb => h b (mem_cons_of_mem a hb)
    rw [tally_cons, tally_cons]
    omega

theorem exists_of_tally_pos (h : 0 < tally f l) : ∃ a ∈ l, 0 < f a := by
  by_contra hnone
  have hzero : tally f l = 0 := tally_eq_zero fun a ha =>
    Nat.eq_zero_of_not_pos fun hpos => hnone ⟨a, ha, hpos⟩
  omega

/-- Lists that together weigh at least as much as `l`, whatever is counted, have its
elements. -/
theorem mem_or_of_tally {m' : List α} (h : ∀ w : α → Nat, tally w l ≤ tally w m + tally w m')
    (ha : a ∈ l) : a ∈ m ∨ a ∈ m' := by
  classical
  by_contra hno
  rw [not_or] at hno
  have hle := h fun b => if b = a then 1 else 0
  have hpos := le_tally (f := fun b => if b = a then 1 else 0) ha
  rw [if_pos rfl] at hpos
  have hm : ∀ {l : List α}, a ∉ l → tally (fun b => if b = a then 1 else 0) l = 0 :=
    fun hl => tally_eq_zero fun b hb => if_neg (ne_of_mem_of_not_mem hb hl)
  rw [hm hno.1, hm hno.2] at hle
  omega

variable (hn : (l.map key).Nodup) (ha : a ∈ l)
include hn ha

/-- An edit of one record changes the tally by what it changes of that record. -/
theorem tally_edit : tally f (edit key (key a) g l) + f a = tally f l + f (g a) := by
  obtain ⟨s, t, rfl, hs, ht⟩ := split_of_mem hn ha
  rw [edit, map_append, map_cons, if_pos rfl, ← edit, ← edit, edit_of_forall_ne hs,
    edit_of_forall_ne ht, tally_append, tally_append, tally_cons, tally_cons]
  omega

theorem tally_delete : tally f (delete key (key a) l) + f a = tally f l := by
  rw [← tally_perm (cons_delete_perm hn ha), tally_cons, Nat.add_comm]

/-- Under distinct keys the tally of one key is what the record with that key counts. -/
theorem tally_key : tally (fun b => if key b = key a then f b else 0) l = f a := by
  have hdel := tally_delete (f := fun b => if key b = key a then f b else 0) hn ha
  have hrest : tally (fun b => if key b = key a then f b else 0) (delete key (key a) l) = 0 :=
    tally_eq_zero fun b hb => if_neg (mem_delete.mp hb).2
  simp only [hrest, if_true, Nat.zero_add] at hdel
  exact hdel.symm

end TeeOs.Lib.Tally
