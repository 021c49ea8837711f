import Mathlib

/-!
# Lists of records with a key

A table kept as a list: records are found, edited and deleted by their key. The
order is that of insertion.
-/

namespace TeeOs.Lib.Keyed

open List Function

variable {α β κ : Type} [DecidableEq κ] {key : α → κ} {k : κ} {f f' : α → α} {g : α → β}
  {l : List α} {a : α}

/-- Apply `f` to the records with key `k`. -/
def edit (key : α → κ) (k : κ) (f : α → α) (l : List α) : List α :=
  l.map fun a => if key a = k then f a else a

def delete (key : α → κ) (k : κ) (l : List α) : List α :=
  l.filter fun a => key a ≠ k

theorem mem_edit : a ∈ edit key k f l ↔ ∃ b ∈ l, a = if key b = k then f b else b := by
  simp only [edit, mem_map, eq_comm]

/-- What `f` leaves of every record with that key, the edit leaves of the table. -/
theorem map_edit (h : ∀ a ∈ l, key a = k → g (f a) = g a) : (edit key k f l).map g = l.map g := by
  simp only [edit, map_map]
  refine map_congr_left fun a ha => ?_
  by_cases hk : key a = k
  · simp only [comp_apply, if_pos hk, h a ha hk]
  · simp only [comp_apply, if_neg hk]

/-- Two edits that a view `g` does not tell apart. -/
theorem map_edit_congr (h : ∀ a, g (f a) = g (f' a)) :
    (edit key k f l).map g = (edit key k f' l).map g := by
  simp only [edit, map_map]
  refine map_congr_left fun a _ => ?_
  by_cases hk : key a = k
  · simp only [comp_apply, if_pos hk, h a]
  · simp only [comp_apply, if_neg hk]

/-- An edit seen through a view `g` that keeps the key. -/
theorem map_edit_comm {key' : β → κ} {f' : β → β} (hf : ∀ a, g (f a) = f' (g a))
    (hk : ∀ a, key' (g a) = key a) : (edit key k f l).map g = edit key' k f' (l.map g) := by
  simp only [edit, map_map]
  refine map_congr_left fun a _ => ?_
  by_cases h : key a = k
  · simp only [comp_apply, if_pos h, hk a, hf a]
  · simp only [comp_apply, if_neg h, hk a]

theorem edit_edit (h : ∀ a, key (f a) = key a) :
    edit key k f' (edit key k f l) = edit key k (f' ∘ f) l := by
  rw [edit, edit, edit, map_map]
  refine map_congr_left fun a _ => ?_
  by_cases hk : key a = k
  · simp only [comp_apply, if_pos hk, h a]
  · simp only [comp_apply, if_neg hk]

@[simp] theorem length_edit : (edit key k f l).length = l.length := length_map _

theorem find?_edit (h : ∀ a, key (f a) = key a) :
    (edit key k f l).find? (fun a => key a = k) = (l.find? fun a => key a = k).map f := by
  induction l with
  | nil => rfl
  | cons a l ih =>
    rw [edit] at ih
    by_cases hk : key a = k
    · simp [edit, hk, h]
    · simp only [edit, map_cons, hk, if_false, decide_false, Bool.false_eq_true,
        not_false_eq_true, find?_cons_of_neg, ih]

theorem mem_delete : a ∈ delete key k l ↔ a ∈ l ∧ key a ≠ k := by
  simp only [delete, mem_filter, decide_eq_true_eq]

theorem delete_sublist : (delete key k l).Sublist l := filter_sublist

section

variable (h : ∀ a ∈ l, key a ≠ k)
include h

theorem edit_of_forall_ne : edit key k f l = l := by
  have hid : ∀ a ∈ l, (if key a = k then f a else a) = a := fun a ha => if_neg (h a ha)
  rw [edit, map_congr_left hid, map_id']

theorem delete_of_forall_ne : delete key k l = l :=
  filter_eq_self.2 fun a ha => decide_eq_true (h a ha)

theorem edit_append (ha : key a = k) : edit key k f (l ++ [a]) = l ++ [f a] := by
  rw [edit, map_append, map_singleton, if_pos ha, ← edit, edit_of_forall_ne h]

theorem delete_append (ha : key a = k) : delete key k (l ++ [a]) = l := by
  rw [delete, filter_append, ← delete, delete_of_forall_ne h,
    filter_cons_of_neg (by simpa using ha), filter_nil, append_nil]

end

section

variable (hn : (l.map key).Nodup)
include hn

theorem nodup_edit (h : ∀ a, key a = k → key (f a) = key a) : ((edit key k f l).map key).Nodup := by
  rwa [map_edit fun a _ => h a]

omit [DecidableEq κ] in
/-- Under distinct keys the table splits at a record into records of other keys. -/
theorem split_of_mem (ha : a ∈ l) : ∃ s t, l = s ++ a :: t ∧
    (∀ b ∈ s, key b ≠ key a) ∧ ∀ b ∈ t, key b ≠ key a := by
  obtain ⟨s, t, rfl⟩ := append_of_mem ha
  rw [map_append, map_cons, nodup_middle, nodup_cons, mem_append, not_or] at hn
  exact ⟨s, t, rfl, fun b hb hk => hn.1.1 (hk ▸ mem_map_of_mem hb),
    fun b hb hk => hn.1.2 (hk ▸ mem_map_of_mem hb)⟩

theorem find?_of_mem (ha : a ∈ l) : l.find? (fun b => key b = key a) = some a := by
  obtain ⟨s, t, rfl, hs, -⟩ := split_of_mem hn ha
  have hnone : s.find? (fun b => key b = key a) = none := find?_eq_none.mpr (by simpa using hs)
  rw [find?_append, hnone, Option.none_or]
  exact find?_cons_of_pos (decide_eq_true rfl)

/-- A listed record and the rest make up the table. -/
theorem cons_delete_perm (ha : a ∈ l) : (a :: delete key (key a) l).Perm l := by
  obtain ⟨s, t, rfl, hs, ht⟩ := split_of_mem hn ha
  rw [delete, filter_append, filter_cons_of_neg (by simp), ← delete, ← delete,
    delete_of_forall_ne hs, delete_of_forall_ne ht]
  exact perm_middle.symm

end

/-- Deleting the key of a listed record deletes one record. -/
theorem length_delete (h : (l.map key).Nodup) (ha : a ∈ l) :
    (delete key (key a) l).length + 1 = l.length := (cons_delete_perm h ha).length_eq

end TeeOs.Lib.Keyed
