import TeeOs.Lib.Act

/-!
# Two runs of one computation

`Alike P x Q E` compares two runs of the computation `x` from states that `P` relates: they
give the same answer, and the states they leave are related by `Q` after a success and by
`E` after a failure. The rules follow the computation step by step, so that a state has to
agree in what is read only.
-/

namespace TeeOs.Lib

open Act

section Alike

variable {σ ε α β : Type}

/-- The ends of two runs with one answer. -/
inductive SameEnd (Q : α → σ → σ → Prop) (E : σ → σ → Prop) :
    Except ε α × σ → Except ε α × σ → Prop
  | ok {a : α} {s t : σ} : Q a s t → SameEnd Q E (.ok a, s) (.ok a, t)
  | error {e : ε} {s t : σ} : E s t → SameEnd Q E (.error e, s) (.error e, t)

def Alike (P : σ → σ → Prop) (x : Act σ ε α) (Q : α → σ → σ → Prop) (E : σ → σ → Prop) : Prop :=
  ∀ s t, P s t → SameEnd Q E (x s) (x t)

variable {P P' : σ → σ → Prop} {Q Q' : α → σ → σ → Prop} {E : σ → σ → Prop} {x y : Act σ ε α}
  {k : β → Act σ ε α} {e : ε} {f : σ → β}

theorem SameEnd.imp {r r' : Except ε α × σ} (h : SameEnd Q E r r')
    (hQ : ∀ a s t, Q a s t → Q' a s t) : SameEnd Q' E r r' := by
  cases h with
  | ok hq => exact .ok (hQ _ _ _ hq)
  | error he => exact .error he

theorem Alike.weaken (h : Alike P x Q E) (hP : ∀ s t, P' s t → P s t)
    (hQ : ∀ a s t, Q a s t → Q' a s t) : Alike P' x Q' E :=
  fun s t hst => (h s t (hP s t hst)).imp hQ

/-- The run from a given state can be referred to behind the computation. -/
theorem Alike.tracked (h : Alike P x Q E) (s₀ : σ) :
    Alike (fun s t => P s t ∧ s = s₀) x (fun a s t => Q a s t ∧ x s₀ = (.ok a, s)) E := by
  rintro s t ⟨hst, rfl⟩
  have hend := h s t hst
  generalize x t = after at hend ⊢
  generalize x s = before at hend ⊢
  cases hend with
  | ok hq => exact .ok ⟨hq, rfl⟩
  | error he => exact .error he

theorem Alike.pure {a : α} (h : ∀ s t, P s t → Q a s t) : Alike P (Pure.pure a : Act σ ε α) Q E :=
  fun s t hst => .ok (h s t hst)

theorem Alike.fail (h : ∀ s t, P s t → E s t) : Alike P (Act.fail e : Act σ ε α) Q E :=
  fun s t hst => .error (h s t hst)

theorem Alike.bind {R : β → σ → σ → Prop} {z : Act σ ε β} {f : β → Act σ ε α}
    (hz : Alike P z R E) (hf : ∀ b, Alike (R b) (f b) Q E) : Alike P (z >>= f) Q E := by
  intro s t hst
  cases hs : z s with
  | mk r s' =>
    have hend := hz s t hst
    cases ht : z t with
    | mk r' t' =>
      rw [hs, ht] at hend
      cases hend with
      | ok hq =>
        rw [bind_ok hs, bind_ok ht]
        exact hf _ _ _ hq
      | error he =>
        rw [bind_error hs, bind_error ht]
        exact .error he

/-- What is read has to be the same in both states, and the rest is done with its value. -/
theorem Alike.readsEq (h : ∀ s t, P s t → f s = f t)
    (hk : ∀ b, Alike (fun s t => P s t ∧ f s = b) (k b) Q E) : Alike P (Act.reads f >>= k) Q E := by
  refine .bind ?_ hk
  intro s t hst
  show SameEnd _ _ (.ok (f s), s) (.ok (f t), t)
  rw [← h s t hst]
  exact .ok ⟨hst, rfl⟩

theorem Alike.reads (h : ∀ s t, P s t → f s = f t) (hk : ∀ b, Alike P (k b) Q E) :
    Alike P (Act.reads f >>= k) Q E :=
  Alike.readsEq h fun b => (hk b).weaken (fun _ _ hst => hst.1) fun _ _ _ hq => hq

theorem Alike.change {f : σ → σ} {k : Unit → Act σ ε α} {R : σ → σ → Prop}
    (h : ∀ s t, P s t → R (f s) (f t)) (hk : Alike R (k ()) Q E) :
    Alike P (Act.change f >>= k) Q E :=
  Alike.bind (fun s t hst => .ok (h s t hst)) fun _ => hk

theorem Alike.failIf {c : Prop} [Decidable c] {k : Unit → Act σ ε α} (h : ∀ s t, P s t → E s t)
    (hk : ¬ c → Alike P (k ()) Q E) : Alike P (Act.failIf c e >>= k) Q E := by
  by_cases hc : c
  · rw [Act.failIf, if_pos hc]
    intro s t hst
    exact .error (h s t hst)
  · rw [Act.failIf, if_neg hc]
    intro s t hst
    exact hk hc s t hst

theorem Alike.get? {o : Option β} (h : ∀ s t, P s t → E s t)
    (hk : ∀ b, o = some b → Alike P (k b) Q E) : Alike P (Act.get? o e >>= k) Q E := by
  intro s t hst
  cases o with
  | none => exact .error (h s t hst)
  | some b => exact hk b rfl s t hst

theorem Alike.ite {c : Prop} [Decidable c] (hx : Alike P x Q E) (hy : Alike P y Q E) :
    Alike P (if c then x else y) Q E := by
  split
  · exact hx
  · exact hy

end Alike

end TeeOs.Lib
