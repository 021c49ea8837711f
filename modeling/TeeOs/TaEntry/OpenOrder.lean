import TeeOs.TaEntry.Threads

/-!
# Sessions are opened after the creation

No thread gets past `tee_task_entry_open_session_main` before `g_init_done` is set, if it is
not woken for nothing; and the flag is set once the create entry point has returned, with
whatever result.
-/

namespace TeeOs.TaEntry

open TeeOs.Lib List Function

variable {routine : Option Routine} {s : State} {t n : Nat} {p : Point}

/-- The history goes on with an action that is in order. -/
theorem Ordered.append {h : List Action} {a : Action} (ho : Ordered routine h)
    (ha : ∀ t n, a = .opened t n →
      .created success ∈ h ∧ (getCallerFlag routine = true → .permitted t n ∈ h)) :
    Ordered routine (h ++ [a]) := by
  have hsplit : ∀ before after t n, h ++ [a] = before ++ .opened t n :: after →
      (h = before ∧ a = .opened t n) ∨ ∃ after', h = before ++ .opened t n :: after' := by
    intro before after t n heq
    rcases eq_nil_or_concat after with rfl | ⟨after', x, rfl⟩
    · obtain ⟨hbefore, ha⟩ := append_inj' heq rfl
      exact Or.inl ⟨hbefore, List.cons.inj ha |>.1⟩
    · have hlast : h ++ [a] = (before ++ .opened t n :: after') ++ [x] := by
        rw [heq, concat_eq_append, append_assoc, cons_append]
      exact Or.inr ⟨after', (append_inj' hlast rfl).1⟩
  constructor
  · intro before after t n heq
    rcases hsplit before after t n heq with ⟨rfl, rfl⟩ | ⟨after', hh⟩
    · exact (ha t n rfl).1
    · exact ho.created before after' t n hh
  · intro hflag before after t n heq
    rcases hsplit before after t n heq with ⟨rfl, rfl⟩ | ⟨after', hh⟩
    · exact (ha t n rfl).2 hflag
    · exact ho.permitted hflag before after' t n hh

/-- The points that a thread reaches only when the creation is over. -/
def Point.late : Point → Bool
  | .receiving | .initializing | .creating | .entering | .testing | .waiting | .gone => false
  | .created _ | .announcing _ | .announced _ | .woken | .leaving | .permitting | .opening => true

/-- What a thread at a point knows of the history. -/
structure Knows (routine : Option Routine) (h : List Action) (t n : Nat) (p : Point) : Prop where
  created : p.late = true → .created success ∈ h
  permitted : p = .opening → getCallerFlag routine = true → .permitted t n ∈ h

open Knows

theorem Knows.early {h : List Action} (hp : p.late = false) : Knows routine h t n p := by
  refine ⟨fun hlate => absurd (hp.symm.trans hlate) nofun, ?_⟩
  rintro rfl
  cases hp

theorem Knows.of_created {h : List Action} (hh : .created success ∈ h) (hp : p ≠ .opening) :
    Knows routine h t n p :=
  ⟨fun _ => hh, fun hopen => absurd hopen hp⟩

theorem Knows.append {h : List Action} (hk : Knows routine h t n p) (a : Action) :
    Knows routine (h ++ [a]) t n p :=
  ⟨fun hlate => mem_append_left _ (hk.created hlate),
    fun hopen hflag => mem_append_left _ (hk.permitted hopen hflag)⟩

structure Invariant (routine : Option Routine) (s : State) : Prop where
  done : s.gInitDone = true → .created success ∈ s.history
  threads : ∀ t, Knows routine s.history t (s.messages t) (s.at_ t)
  ordered : Ordered routine s.history

namespace Invariant

variable (h : Invariant routine s)
include h

theorem go (hp : Knows routine s.history t (s.messages t) p) : Invariant routine (s.go t p) := by
  refine ⟨h.done, fun t' => ?_, h.ordered⟩
  show Knows routine s.history t' (s.messages t') (update s.at_ t p t')
  by_cases ht : t' = t
  · subst ht
    rw [update_self]
    exact hp
  · rw [update_of_ne ht]
    exact h.threads t'

theorem lock : Invariant routine (s.lock t) := ⟨h.done, h.threads, h.ordered⟩

theorem unlock : Invariant routine s.unlock := ⟨h.done, h.threads, h.ordered⟩

theorem record {a : Action} (ha : ∀ t n, a = .opened t n →
      .created success ∈ s.history ∧ (getCallerFlag routine = true → .permitted t n ∈ s.history)) :
    Invariant routine (s.record a) :=
  ⟨fun hdone => mem_append_left _ (h.done hdone), fun t => (h.threads t).append a,
    h.ordered.append ha⟩

theorem broadcast (hdone : s.gInitDone = true) : Invariant routine s.broadcast := by
  refine ⟨h.done, fun t => ?_, h.ordered⟩
  show Knows routine s.history t (s.messages t) (if s.at_ t = .waiting then .woken else s.at_ t)
  split
  · exact of_created (h.done hdone) nofun
  · exact h.threads t

theorem takeLock {code : Nat} (hp : Knows routine s.history t (s.messages t) p) :
    Invariant routine (takeLock t code p s) := by
  unfold TaEntry.takeLock
  split
  · exact h.go (early rfl)
  · split
    · exact h.lock.go hp
    · exact h

end Invariant

theorem receive_invariant {m : Message} {mapped : Bool} (h : Invariant routine s)
    (ht : s.at_ t = .receiving) : Invariant routine (receive t m mapped s) := by
  have hcount : Invariant routine
      { s with messages := update s.messages t (s.messages t + 1) } := by
    refine ⟨h.done, fun t' => ?_, h.ordered⟩
    show Knows routine s.history t' (update s.messages t (s.messages t + 1) t') (s.at_ t')
    by_cases htt : t' = t
    · rw [htt, ht]
      exact early rfl
    · rw [update_of_ne htt]
      exact h.threads t'
  unfold receive
  split
  · exact hcount
  cases m with
  | openSession =>
    dsimp only
    split
    · exact hcount.go (early rfl)
    · exact hcount.go (early rfl)
  | invokeCmd => exact hcount.record nofun
  | closeSession lastSession =>
    have hclosed := hcount.record (a := .closed t (update s.messages t (s.messages t + 1) t))
      nofun
    cases lastSession with
    | false => exact hclosed
    | true => exact hclosed.record nofun
  | other => exact hcount

/-- The creation succeeds when it is first tried, and a thread that waits is only woken when
`g_init_done` is set. -/
def StepOk (s : State) : Event → Prop
  | .proceed t code => s.at_ t = .creating → code = success ∨ .created success ∈ s.history
  | .wake t => s.at_ t = .waiting → s.gInitDone = true
  | _ => True

instance (s : State) : (e : Event) → Decidable (StepOk s e)
  | .proceed t code =>
    inferInstanceAs (Decidable (s.at_ t = .creating → code = success ∨ .created success ∈ s.history))
  | .wake t => inferInstanceAs (Decidable (s.at_ t = .waiting → s.gInitDone = true))
  | .receive _ _ _ | .exit _ => .isTrue trivial

theorem proceed_invariant {code : Nat} (h : Invariant routine s) (hok : StepOk s (.proceed t code)) :
    Invariant routine (proceed routine t code s) := by
  have hthread := h.threads t
  unfold proceed
  cases hpt : s.at_ t with
  | receiving | waiting | gone => exact h
  | initializing =>
    dsimp only
    split
    · exact h.go (early rfl)
    · exact h.go (early rfl)
  | creating =>
    have hrecorded := h.record (a := .created code) nofun
    refine hrecorded.go (of_created ?_ nofun)
    rcases hok hpt with rfl | hbefore
    · exact mem_append_right _ (mem_singleton.mpr rfl)
    · exact mem_append_left _ hbefore
  | created ret =>
    rw [hpt] at hthread
    exact h.takeLock (of_created (hthread.created rfl) nofun)
  | announcing ret =>
    rw [hpt] at hthread
    have hdone : Invariant routine { s with gInitDone := true } :=
      ⟨fun _ => hthread.created rfl, h.threads, h.ordered⟩
    dsimp only
    split
    · exact hdone.unlock.go (early rfl)
    · exact (hdone.broadcast rfl).go (of_created (hthread.created rfl) nofun)
  | announced ret =>
    dsimp only
    split
    · exact h.go (early rfl)
    · split
      · exact h.unlock.go (early rfl)
      · exact h.unlock.go (early rfl)
  | entering => exact h.takeLock (early rfl)
  | testing =>
    dsimp only
    split
    · next hdone => exact h.go (of_created (h.done hdone) nofun)
    · split
      · exact h.unlock.go (early rfl)
      · exact h.unlock.go (early rfl)
  | woken =>
    rw [hpt] at hthread
    dsimp only
    split
    · exact h
    · split
      · exact h.go (early rfl)
      · exact h.lock.go (of_created (hthread.created rfl) nofun)
  | leaving =>
    rw [hpt] at hthread
    dsimp only
    split
    · exact h.go (early rfl)
    · cases hflag : getCallerFlag routine with
      | true => exact h.unlock.go (of_created (hthread.created rfl) nofun)
      | false =>
        refine h.unlock.go ⟨fun _ => hthread.created rfl, fun _ htrue => ?_⟩
        exact absurd (hflag.symm.trans htrue) nofun
  | permitting =>
    rw [hpt] at hthread
    dsimp only
    split
    · exact h.go (early rfl)
    · have hrecorded := h.record (a := .permitted t (s.messages t)) nofun
      refine hrecorded.go ⟨fun _ => mem_append_left _ (hthread.created rfl), fun _ _ => ?_⟩
      exact mem_append_right _ (mem_singleton.mpr rfl)
  | opening =>
    rw [hpt] at hthread
    have hrecorded := h.record (a := .opened t (s.messages t)) fun _ _ heq => by
      cases heq
      exact ⟨hthread.created rfl, hthread.permitted rfl⟩
    exact hrecorded.go (early rfl)

theorem step_invariant {e : Event} (h : Invariant routine s) (hok : StepOk s e) :
    Invariant routine (step routine s e) := by
  cases e with
  | receive t m mapped =>
    unfold step
    dsimp only
    split
    · next ht => exact receive_invariant h ht
    · exact h
  | proceed t code => exact proceed_invariant h hok
  | wake t =>
    unfold step
    dsimp only
    split
    · next ht => exact h.go (of_created (h.done (hok ht)) nofun)
    · exact h
  | exit t =>
    unfold step
    dsimp only
    split
    · exact h.unlock.go (early rfl)
    · exact h.go (early rfl)

theorem init_invariant : Invariant routine State.init := by
  refine ⟨nofun, fun _ => early rfl, ⟨?_, ?_⟩⟩
  · intro before after t n heq
    exact absurd heq (by simp [State.init])
  · intro _ before after t n heq
    exact absurd heq (by simp [State.init])

/-- Sessions are opened in order in every run of the threads in which the first creation
succeeds and no wait ends for nothing. -/
theorem sessions_opened_after_creation (routine : Option Routine) (es : List Event)
    (hes : Runs.Along (step routine) StepOk State.init es) :
    Ordered routine (runs routine es).history :=
  (Runs.invariant_run (fun _ _ => step_invariant) init_invariant hes).ordered

/-- The first thread creates the TA, a second one waits for it; both open a session. -/
def orderly : List Event := [
  .receive 1 .openSession true, .proceed 1 0, .proceed 1 0,
  .receive 0 .openSession true, .proceed 0 0, .proceed 0 0, .proceed 0 0, .proceed 0 0, .proceed 0 0,
  .proceed 0 0, .proceed 0 0, .proceed 0 0, .proceed 0 0, .proceed 0 0,
  .proceed 1 0, .proceed 1 0, .proceed 1 0, .proceed 1 0]

theorem sessions_opened_after_creation_orderly : (runs none orderly).history =
        [.created 0, .permitted 0 1, .opened 0 1, .permitted 1 1, .opened 1 1] ∧
      Ordered none (runs none orderly).history :=
  ⟨by decide, sessions_opened_after_creation none orderly (by decide)⟩

/-- The same, but the create entry point fails. -/
def uncreated : List Event := [
  .receive 1 .openSession true, .proceed 1 0, .proceed 1 0,
  .receive 0 .openSession true, .proceed 0 0, .proceed 0 7, .proceed 0 0, .proceed 0 0, .proceed 0 0,
  .proceed 1 0, .proceed 1 0, .proceed 1 0, .proceed 1 0]

/-- The wait of the second thread ends before anything is done. -/
def wokenEarly : List Event := [
  .receive 1 .openSession true, .proceed 1 0, .proceed 1 0, .wake 1,
  .proceed 1 0, .proceed 1 0, .proceed 1 0, .proceed 1 0]

/-- A session is opened in a TA whose creation has failed, or has not begun. -/
theorem session_opened_without_creation :
    ¬ Ordered none (runs none uncreated).history ∧ ¬ Ordered none (runs none wokenEarly).history := by
  constructor
  · intro h
    exact absurd (h.created [.created 7, .permitted 1 1] [] 1 1 (by decide)) (by decide)
  · intro h
    exact absurd (h.created [.permitted 1 1] [] 1 1 (by decide)) (by decide)

end TeeOs.TaEntry
