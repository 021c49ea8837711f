import Mathlib

/-!
# Folds and maps that may fail

What a fold computes step by step, and what a map that succeeds says of a search
in its result.
-/

namespace TeeOs.Lib.Folds

open Option

variable {α β σ τ υ : Type} {l : List α}

/-- A fold that succeeds is followed by two folds that cannot fail, if each step is. -/
theorem foldlM_rel {R : σ → τ → υ → Prop} {f : σ → α → Option σ} {g : τ → α → τ} {k : υ → α → υ}
    (hstep : ∀ s t u a s', R s t u → f s a = some s' → R s' (g t a) (k u a)) {s s' : σ} {t : τ}
    {u : υ} (hR : R s t u) (h : l.foldlM f s = some s') : R s' (l.foldl g t) (l.foldl k u) := by
  induction l generalizing s t u with
  | nil =>
    obtain rfl : s = s' := by simpa using h
    exact hR
  | cons a l ih =>
    simp only [List.foldlM_cons, bind_eq_bind, bind_eq_some_iff] at h
    obtain ⟨s₁, hfirst, hrest⟩ := h
    exact ih (hstep s t u a s₁ hR hfirst) hrest

theorem forall₂_of_mapM {f : α → Option β} {m : List β} (h : l.mapM f = some m) :
    List.Forall₂ (fun a b => f a = some b) l m := by
  induction l generalizing m with
  | nil =>
    obtain rfl : [] = m := by simpa using h
    exact .nil
  | cons a l ih =>
    simp only [List.mapM_cons, bind_eq_bind, bind_eq_some_iff, pure_def,
      some.injEq] at h
    obtain ⟨b, hb, m', hm, rfl⟩ := h
    exact .cons hb (ih hm)

/-- The first hit in the result of a map comes from the first hit in its source. -/
theorem find?_forall₂ {R : α → β → Prop} {p : α → Bool} {q : β → Bool} {m : List β}
    (h : List.Forall₂ R l m) (hpq : ∀ a b, R a b → q b = p a) :
    Option.Rel R (l.find? p) (m.find? q) := by
  induction h with
  | nil => exact .none
  | @cons a b l m hab _ ih =>
    have hq := hpq a b hab
    cases ha : p a with
    | true =>
      rw [List.find?_cons_of_pos ha, List.find?_cons_of_pos (hq.trans ha)]
      exact .some hab
    | false =>
      rw [List.find?_cons_of_neg (by simp [ha]), List.find?_cons_of_neg (by simp [hq, ha])]
      exact ih

end TeeOs.Lib.Folds
