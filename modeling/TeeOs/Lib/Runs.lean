import Mathlib

/-!
# Runs of a state machine

A machine is a function from a state and an event to the next state; whatever
the environment chooses is part of the event. `Along` says that a condition on
the state before a step and its event holds at every step of a run. An invariant
that each such step keeps holds at the end of every such run.
-/

namespace TeeOs.Lib.Runs

variable {S E : Type} {step : S → E → S} {ok : S → E → Prop} {I : S → Prop} {s : S} {e : E}
  {es fs : List E}

def runs (step : S → E → S) (s : S) (es : List E) : S := es.foldl step s

/-- The condition `ok` holds at every step of the run. -/
def Along (step : S → E → S) (ok : S → E → Prop) : S → List E → Prop
  | _, [] => True
  | s, e :: es => ok s e ∧ Along step ok (step s e) es

@[simp] theorem runs_nil : runs step s [] = s := rfl

@[simp] theorem runs_cons : runs step s (e :: es) = runs step (step s e) es := rfl

theorem runs_append : runs step s (es ++ fs) = runs step (runs step s es) fs :=
  List.foldl_append

theorem invariant_run (hstep : ∀ s e, I s → ok s e → I (step s e)) (h : I s)
    (hes : Along step ok s es) : I (runs step s es) := by
  induction es generalizing s with
  | nil => exact h
  | cons e es ih => exact ih (hstep s e h hes.1) hes.2

theorem invariant_runs (hstep : ∀ s e, I s → I (step s e)) (h : I s) (es : List E) :
    I (runs step s es) := by
  induction es generalizing s with
  | nil => exact h
  | cons e es ih => exact ih (hstep s e h)

theorem along_append :
    Along step ok s (es ++ fs) ↔ Along step ok s es ∧ Along step ok (runs step s es) fs := by
  induction es generalizing s with
  | nil => simp [Along]
  | cons e es ih => simp only [List.cons_append, Along, ih, runs_cons, and_assoc]

theorem Along.and {ok' : S → E → Prop} (h : Along step ok s es) (h' : Along step ok' s es) :
    Along step (fun s e => ok s e ∧ ok' s e) s es := by
  induction es generalizing s with
  | nil => trivial
  | cons e es ih => exact ⟨⟨h.1, h'.1⟩, ih h.2 h'.2⟩

/-- A condition on the events alone. -/
theorem Along.of_forall {p : E → Prop} (h : ∀ e ∈ es, p e) : Along step (fun _ e => p e) s es := by
  induction es generalizing s with
  | nil => trivial
  | cons e es ih =>
    constructor
    · exact h e List.mem_cons_self
    · exact ih fun e' he => h e' (List.mem_cons_of_mem e he)

/-- Where a property that the invariant implies tells which steps keep the invariant, it holds at
every point of a run exactly if the condition holds along it. -/
theorem forall_take_iff {R : S → Prop} {p : E → Prop} (hR : ∀ s, I s → R s)
    (hstep : ∀ s e, I s → p e → (ok s e → I (step s e)) ∧ (R (step s e) → ok s e)) (h : I s)
    (hes : ∀ e ∈ es, p e) : (∀ n, R (runs step s (es.take n))) ↔ Along step ok s es := by
  induction es generalizing s with
  | nil =>
    simp only [List.take_nil, runs_nil, forall_const]
    exact iff_of_true (hR s h) trivial
  | cons e es ih =>
    obtain ⟨hkeep, hback⟩ := hstep s e h (hes e List.mem_cons_self)
    have htail : ∀ e' ∈ es, p e' := fun e' he' => hes e' (List.mem_cons_of_mem e he')
    constructor
    · intro hall
      have hok := hback (hall 1)
      exact ⟨hok, (ih (hkeep hok) htail).1 fun n => hall (n+1)⟩
    · rintro ⟨hok, hrest⟩ n
      cases n with
      | zero => exact hR s h
      | succ n => exact (ih (hkeep hok) htail).2 hrest n

instance decidableAlong [∀ s e, Decidable (ok s e)] :
    (s : S) → (es : List E) → Decidable (Along step ok s es)
  | _, [] => .isTrue trivial
  | s, e :: es =>
    have := decidableAlong (step s e) es
    inferInstanceAs (Decidable (ok s e ∧ Along step ok (step s e) es))

end TeeOs.Lib.Runs
