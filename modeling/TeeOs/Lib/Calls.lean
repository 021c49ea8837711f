import Mathlib

/-!
# Programs that call a device

A program is a tree of calls to an outside device; the device answers each call
and changes its own state. `run` is the uninterrupted execution, `Cut` relates
the start state to every device state an interruption can leave behind, and
`wp` is the weakest precondition with a crash condition. `Proc` adds a private
state that survives an error. No termination assumption is made: the trees are
well founded.
-/

namespace TeeOs.Lib.Calls

/-- A program with requests `C`, answers `R c` and result `α`. -/
inductive Prog (C : Type) (R : C → Type) (α : Type) where
  | pure (a : α) : Prog C R α
  | call (c : C) (k : R c → Prog C R α) : Prog C R α

/-- A device: what an answered call does, and what a call cut in the middle may leave. -/
structure Device (C : Type) (R : C → Type) (S : Type) where
  step : (c : C) → S → R c × S
  torn : C → S → S → Prop

section Programs

variable {C : Type} {R : C → Type} {S α β : Type}

def Prog.bind : Prog C R α → (α → Prog C R β) → Prog C R β
  | .pure a, f => f a
  | .call c k, f => .call c fun r => (k r).bind f

instance : Monad (Prog C R) where
  pure := Prog.pure
  bind := Prog.bind

/-- A single call. -/
def Prog.ask (c : C) : Prog C R (R c) := .call c .pure

def run (V : Device C R S) : Prog C R α → S → α × S
  | .pure a, s => (a, s)
  | .call c k, s => run V (k (V.step c s).1) (V.step c s).2

/-- The device states an interruption of the program can leave. -/
def Cut (V : Device C R S) : Prog C R α → S → S → Prop
  | .pure _, s, t => t = s
  | .call c k, s, t => t = s ∨ V.torn c s t ∨ Cut V (k (V.step c s).1) (V.step c s).2 t

/-- Every state from the first call on satisfies `I`, and the result satisfies `Q`. -/
def wp (V : Device C R S) (I : S → Prop) : Prog C R α → (α → S → Prop) → S → Prop
  | .pure a, Q, s => Q a s
  | .call c k, Q, s =>
      (∀ t, V.torn c s t → I t) ∧ I (V.step c s).2 ∧ wp V I (k (V.step c s).1) Q (V.step c s).2

variable {V : Device C R S} {I J : S → Prop} {Q : α → S → Prop} {p : Prog C R α}

theorem wp_bind (p : Prog C R α) (f : α → Prog C R β) (Q : β → S → Prop) (s : S) :
    wp V I (p >>= f) Q s = wp V I p (fun a t => wp V I (f a) Q t) s := by
  change wp V I (p.bind f) Q s = _
  induction p generalizing s with
  | pure a => rfl
  | call c k ih => simp only [Prog.bind, wp, ih]

theorem wp_mono {Q' : α → S → Prop} {s : S} (hp : wp V I p Q s) (hI : ∀ t, I t → J t)
    (hQ : ∀ a t, Q a t → Q' a t) : wp V J p Q' s := by
  induction p generalizing s with
  | pure a => exact hQ a s hp
  | call c k ih =>
    obtain ⟨ht, hi, hk⟩ := hp
    exact ⟨fun t h => hI t (ht t h), hI _ hi, ih _ hk⟩

theorem wp_iff_run (p : Prog C R α) (Q : α → S → Prop) (s : S) :
    wp V (fun _ => True) p Q s ↔ Q (run V p s).1 (run V p s).2 := by
  induction p generalizing s with
  | pure a => rfl
  | call c k ih => simp only [wp, run, ih, implies_true, true_and]

theorem run_of_wp {s : S} (hp : wp V I p Q s) : Q (run V p s).1 (run V p s).2 :=
  (wp_iff_run p Q s).mp (wp_mono hp (fun _ _ => trivial) fun _ _ h => h)

theorem run_bind (p : Prog C R α) (f : α → Prog C R β) (s : S) :
    run V (p >>= f) s = run V (f (run V p s).1) (run V p s).2 := by
  induction p generalizing s with
  | pure a => rfl
  | call c k ih => exact ih _ _

/-- An interruption after the last call leaves the final state. -/
theorem cut_run (p : Prog C R α) (s : S) : Cut V p s (run V p s).2 := by
  induction p generalizing s with
  | pure a => rfl
  | call c k ih => exact Or.inr (Or.inr (ih _ _))

theorem cut_of_wp {s t : S} (hp : wp V I p Q s) (hs : I s) (hc : Cut V p s t) : I t := by
  induction p generalizing s with
  | pure a => rw [show t = s from hc]; exact hs
  | call c k ih =>
    obtain ⟨ht, hi, hk⟩ := hp
    rcases hc with rfl | hc | hc
    · exact hs
    · exact ht t hc
    · exact ih _ hk hi hc

end Programs

/-- A procedure: a program over a private state that also survives an error. -/
def Proc (C : Type) (R : C → Type) (ε σ α : Type) : Type := σ → Prog C R (Except ε α × σ)

namespace Proc

variable {C : Type} {R : C → Type} {ε σ S α β : Type}

def bind (m : Proc C R ε σ α) (f : α → Proc C R ε σ β) : Proc C R ε σ β := fun x => do
  match ← m x with
  | (.ok a, y) => f a y
  | (.error e, y) => pure (.error e, y)

instance : Monad (Proc C R ε σ) where
  pure a := fun x => pure (.ok a, x)
  bind := Proc.bind

def get : Proc C R ε σ σ := fun x => pure (.ok x, x)

def modify (f : σ → σ) : Proc C R ε σ Unit := fun x => pure (.ok (), f x)

def throw (e : ε) : Proc C R ε σ α := fun x => pure (.error e, x)

/-- One call, whatever the answer. -/
def ask (c : C) : Proc C R ε σ (R c) := fun x => do
  let r ← Prog.ask c
  pure (.ok r, x)

/-- Run `m` and hand its outcome on instead of leaving early. -/
def attempt (m : Proc C R ε σ α) : Proc C R ε σ (Except ε α) := fun x => do
  let (r, y) ← m x
  pure (.ok r, y)

/-- `m` if the condition holds, nothing otherwise. -/
def when (b : Prop) [Decidable b] (m : Proc C R ε σ Unit) : Proc C R ε σ Unit :=
  if b then m else pure ()

theorem when_pos {b : Prop} [Decidable b] (h : b) (m : Proc C R ε σ Unit) : when b m = m := if_pos h

theorem when_neg {b : Prop} [Decidable b] (h : ¬ b) (m : Proc C R ε σ Unit) :
    when b m = pure () := if_neg h

variable {V : Device C R S} {I : S → Prop} {Q : Except ε β × σ → S → Prop}

/-- What must hold after the first of two procedures. -/
def next (V : Device C R S) (I : S → Prop) (f : α → Proc C R ε σ β)
    (Q : Except ε β × σ → S → Prop) : Except ε α × σ → S → Prop
  | (.ok a, y), t => wp V I (f a y) Q t
  | (.error e, y), t => Q (.error e, y) t

variable (f : α → Proc C R ε σ β)

@[simp] theorem next_ok (a : α) (y : σ) (t : S) :
    next V I f Q (.ok a, y) t = wp V I (f a y) Q t := rfl

@[simp] theorem next_error (e : ε) (y : σ) (t : S) :
    next V I f Q (.error e, y) t = Q (.error e, y) t := rfl

theorem wp_seq (m : Proc C R ε σ α) (f : α → Proc C R ε σ β) (x : σ) (s : S) :
    wp V I ((m >>= f) x) Q s = wp V I (m x) (next V I f Q) s := by
  change wp V I (Proc.bind m f x) Q s = _
  unfold Proc.bind
  rw [Calls.wp_bind]
  congr 1
  funext r t
  rcases r with ⟨_ | _, _⟩ <;> rfl

@[simp] theorem wp_pure (a : β) (x : σ) (s : S) :
    wp V I ((pure a : Proc C R ε σ β) x) Q s = Q (.ok a, x) s := rfl

@[simp] theorem wp_throw (e : ε) (x : σ) (s : S) :
    wp V I ((throw e : Proc C R ε σ β) x) Q s = Q (.error e, x) s := rfl

@[simp] theorem wp_get_bind (f : σ → Proc C R ε σ β) (x : σ) (s : S) :
    wp V I ((get >>= f) x) Q s = wp V I (f x x) Q s := rfl

@[simp] theorem wp_modify_bind (g : σ → σ) (f : Unit → Proc C R ε σ β) (x : σ) (s : S) :
    wp V I ((modify g >>= f) x) Q s = wp V I (f () (g x)) Q s := rfl

@[simp] theorem wp_pure_bind (a : α) (f : α → Proc C R ε σ β) (x : σ) (s : S) :
    wp V I ((pure a >>= f) x) Q s = wp V I (f a x) Q s := rfl

theorem wp_ask_bind (c : C) (f : R c → Proc C R ε σ β) (x : σ) (s : S) :
    wp V I ((ask c >>= f) x) Q s = ((∀ t, V.torn c s t → I t) ∧ I (V.step c s).2 ∧
        wp V I (f (V.step c s).1 x) Q (V.step c s).2) := rfl

theorem wp_attempt {Q : Except ε (Except ε α) × σ → S → Prop} (m : Proc C R ε σ α) (x : σ) (s : S) :
    wp V I (attempt m x) Q s = wp V I (m x) (fun r t => Q (.ok r.1, r.2) t) s := by
  unfold attempt
  rw [Calls.wp_bind]
  rfl

theorem wp_attempt_bind (m : Proc C R ε σ α) (f : Except ε α → Proc C R ε σ β) (x : σ) (s : S) :
    wp V I ((attempt m >>= f) x) Q s = wp V I (m x) (fun r t => wp V I (f r.1 r.2) Q t) s := by
  change wp V I (Proc.bind (attempt m) f x) Q s = _
  unfold Proc.bind attempt
  rw [Calls.wp_bind, Calls.wp_bind]
  rfl

end Proc

end TeeOs.Lib.Calls
