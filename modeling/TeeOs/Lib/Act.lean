import Mathlib

/-!
# Computations that change a state and may fail

An `Act` changes a state and may fail; what it changed before it fails stays changed.
`Ends x Q E s` says how the run of `x` from `s` ends: in a value and a state with `Q`, or in
an error and a state with `E`. The rules rewrite it step by step.
-/

namespace TeeOs.Lib

def Act (σ ε α : Type) : Type := σ → Except ε α × σ

namespace Act

variable {σ ε α β : Type} {f : α → Act σ ε β}

instance : Monad (Act σ ε) where
  pure a := fun s => (.ok a, s)
  bind x f := fun s =>
    match x s with
    | (.ok a, s) => f a s
    | (.error e, s) => (.error e, s)

def fail (e : ε) : Act σ ε α := fun s => (.error e, s)

def reads (f : σ → α) : Act σ ε α := fun s => (.ok (f s), s)

def change (f : σ → σ) : Act σ ε Unit := fun s => (.ok (), f s)

/-- Fails where the condition holds. -/
def failIf (c : Prop) [Decidable c] (e : ε) : Act σ ε Unit := if c then fail e else pure ()

/-- The value, or a failure where there is none. -/
def get? (o : Option α) (e : ε) : Act σ ε α :=
  match o with
  | some a => pure a
  | none => fail e

variable (x : Act σ ε α)

/-- Changes the state of a failure, as the cleanup behind an error label does. -/
def onError (f : σ → σ) : Act σ ε α := fun s =>
  match x s with
  | (.ok a, s) => (.ok a, s)
  | (.error e, s) => (.error e, f s)

/-- Changes the state at the end, of a success and of a failure. -/
def always (f : σ → σ) : Act σ ε α := fun s => ((x s).1, f (x s).2)

/-- Goes on behind a failure, with the state changed. -/
def rescue (x : Act σ ε Unit) (f : σ → σ) : Act σ ε Unit := fun s =>
  match x s with
  | (.ok (), s) => (.ok (), s)
  | (.error _, s) => (.ok (), f s)

/-- Goes on with another computation behind one failure. -/
def elseOn [DecidableEq ε] (x : Act σ ε α) (e : ε) (y : Act σ ε α) : Act σ ε α := fun s =>
  match x s with
  | (.ok a, s) => (.ok a, s)
  | (.error e', s) => if e' = e then y s else (.error e', s)

/-- A check that reads no state. -/
def ofExcept (r : Except ε α) : Act σ ε α := fun s => (r, s)

theorem ok_of_bind {x : Except ε α} {g : α → Except ε β} {b : β} (h : (x >>= g) = .ok b) :
    ∃ a, x = .ok a ∧ g a = .ok b := by
  cases x with
  | error e => cases h
  | ok a => exact ⟨a, rfl, h⟩

theorem bind_ok {x : Act σ ε α} {s s' : σ} {a : α} (h : x s = (.ok a, s')) :
    (x >>= f) s = f a s' := by
  show (match x s with | (.ok a, s) => f a s | (.error e, s) => (.error e, s)) = f a s'
  rw [h]

theorem bind_error {x : Act σ ε α} {s s' : σ} {e : ε} (h : x s = (.error e, s')) :
    (x >>= f) s = (.error e, s') := by
  show (match x s with | (.ok a, s) => f a s | (.error e, s) => (.error e, s)) = (.error e, s')
  rw [h]

theorem bind_apply (f : α → Act σ ε β) (s : σ) :
    (x >>= f) s = match x s with | (.ok a, s) => f a s | (.error e, s) => (.error e, s) := rfl

theorem failIf_apply (c : Prop) [Decidable c] (e : ε) (s : σ) :
    (failIf c e : Act σ ε Unit) s = if c then (.error e, s) else (.ok (), s) := by
  unfold failIf
  split <;> rfl

end Act

section Ends

variable {σ ε α β : Type} {Q Q' : α → σ → Prop} {E E' : ε → σ → Prop} {s : σ}

/-- The run from `s` ends in a success with `Q` or in a failure with `E`. -/
def Ends (x : Act σ ε α) (Q : α → σ → Prop) (E : ε → σ → Prop) (s : σ) : Prop :=
  match x s with
  | (.ok a, t) => Q a t
  | (.error e, t) => E e t

theorem Ends.imp {x : Act σ ε α} (h : Ends x Q E s) (hQ : ∀ a t, Q a t → Q' a t)
    (hE : ∀ e t, E e t → E' e t) : Ends x Q' E' s := by
  unfold Ends at h ⊢
  generalize x s = r at h ⊢
  obtain ⟨a | a, t⟩ := r
  · exact hE _ _ h
  · exact hQ _ _ h

@[simp] theorem ends_pure (a : α) : Ends (pure a : Act σ ε α) Q E s ↔ Q a s := .rfl

@[simp] theorem ends_fail (e : ε) : Ends (Act.fail e : Act σ ε α) Q E s ↔ E e s := .rfl

@[simp] theorem ends_reads (f : σ → α) : Ends (Act.reads f) Q E s ↔ Q (f s) s := .rfl

@[simp] theorem ends_change {Q : Unit → σ → Prop} (f : σ → σ) :
    Ends (Act.change f) Q E s ↔ Q () (f s) := .rfl

@[simp] theorem ends_bind (x : Act σ ε β) (f : β → Act σ ε α) :
    Ends (x >>= f) Q E s ↔ Ends x (fun b t => Ends (f b) Q E t) E s := by
  unfold Ends
  rw [Act.bind_apply]
  rcases x s with ⟨a | a, t⟩
  · exact .rfl
  · exact .rfl

@[simp] theorem ends_ite (c : Prop) [Decidable c] (x y : Act σ ε α) :
    Ends (if c then x else y) Q E s ↔ (c → Ends x Q E s) ∧ (¬ c → Ends y Q E s) := by
  split
  · next hc => simp only [hc, true_imp_iff, not_true_eq_false, false_imp_iff, and_true]
  · next hc => simp only [hc, false_imp_iff, not_false_eq_true, true_imp_iff, true_and]

@[simp] theorem ends_failIf {Q : Unit → σ → Prop} (c : Prop) [Decidable c] (e : ε) :
    Ends (Act.failIf c e) Q E s ↔ (c → E e s) ∧ (¬ c → Q () s) := by
  rw [Act.failIf, ends_ite, ends_fail, ends_pure]

@[simp] theorem ends_get? (o : Option α) (e : ε) :
    Ends (Act.get? o e) Q E s ↔ (o = none → E e s) ∧ ∀ a, o = some a → Q a s := by
  cases o with
  | none | some a => simp [Act.get?]

@[simp] theorem ends_onError (x : Act σ ε α) (f : σ → σ) :
    Ends (Act.onError x f) Q E s ↔ Ends x Q (fun e t => E e (f t)) s := by
  unfold Ends
  rw [Act.onError]
  rcases x s with ⟨a | a, t⟩
  · exact .rfl
  · exact .rfl

@[simp] theorem ends_always (x : Act σ ε α) (f : σ → σ) :
    Ends (Act.always x f) Q E s ↔ Ends x (fun a t => Q a (f t)) (fun e t => E e (f t)) s := by
  unfold Ends
  rw [Act.always]
  rcases x s with ⟨a | a, t⟩
  · exact .rfl
  · exact .rfl

@[simp] theorem ends_rescue {Q : Unit → σ → Prop} (x : Act σ ε Unit) (f : σ → σ) :
    Ends (Act.rescue x f) Q E s ↔ Ends x Q (fun _ t => Q () (f t)) s := by
  unfold Ends
  rw [Act.rescue]
  rcases x s with ⟨a | a, t⟩
  · exact .rfl
  · exact .rfl

@[simp] theorem ends_elseOn [DecidableEq ε] (x y : Act σ ε α) (e : ε) :
    Ends (Act.elseOn x e y) Q E s ↔
      Ends x Q (fun e' t => (e' = e → Ends y Q E t) ∧ (e' ≠ e → E e' t)) s := by
  unfold Ends
  rw [Act.elseOn]
  rcases x s with ⟨e' | a, t⟩
  · by_cases he : e' = e
    · simp [he]
    · simp [he]
  · exact .rfl

@[simp] theorem ends_ofExcept (r : Except ε α) : Ends (Act.ofExcept r : Act σ ε α) Q E s ↔
      (∀ e, r = .error e → E e s) ∧ ∀ a, r = .ok a → Q a s := by
  unfold Ends
  cases r with
  | error e | ok a => simp [Act.ofExcept]

/-- The rules for the parts a call is usually made of, to be used together. -/
theorem ends_steps :
    (∀ {α β : Type} {Q : α → σ → Prop} (x : Act σ ε β) (f : β → Act σ ε α),
      Ends (x >>= f) Q E s ↔ Ends x (fun b t => Ends (f b) Q E t) E s) ∧
    (∀ {α : Type} {Q : α → σ → Prop},
      (∀ a, Ends (pure a) Q E s ↔ Q a s) ∧ (∀ f, Ends (Act.reads f) Q E s ↔ Q (f s) s) ∧
      (∀ c [Decidable c] x y,
        Ends (if c then x else y) Q E s ↔ (c → Ends x Q E s) ∧ (¬ c → Ends y Q E s)) ∧
      (∀ o e, Ends (Act.get? o e) Q E s ↔ (o = none → E e s) ∧ ∀ a, o = some a → Q a s) ∧
      ∀ r, Ends (Act.ofExcept r) Q E s ↔ (∀ e, r = .error e → E e s) ∧ ∀ a, r = .ok a → Q a s) ∧
    ∀ {Q}, (∀ f, Ends (Act.change f) Q E s ↔ Q () (f s)) ∧
      ∀ c [Decidable c] e, Ends (Act.failIf c e) Q E s ↔ (c → E e s) ∧ (¬ c → Q () s) :=
  ⟨ends_bind, ⟨ends_pure, ends_reads, ends_ite, ends_get?, ends_ofExcept⟩, ends_change, ends_failIf⟩

end Ends

end TeeOs.Lib
