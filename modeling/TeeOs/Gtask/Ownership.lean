import TeeOs.Gtask.Bookkeeping

/-!
# Session ownership over whole runs

Whatever gtask sends to a session is sent on behalf of the one who opened it, as long as
the normal world names none of the sessions that tasks have opened: the lookup compares
the file of a session, and a session opened by a task has the file of its caller.
-/

namespace TeeOs.Gtask

open TeeOs.Lib TeeOs.Lib.Runs List

variable {g : Globals} {uuid : Nat} {es : List (Env × Event)}

/-- What is asked of a round: its task is a new one with a number of its own, an OPEN
names no session and a command of the normal world none that a task or gtask opened. -/
structure Ordered (g : Globals) (e : Env × Event) : Prop where
  fresh : FreshTask g e
  kernel : KernelTask e.1
  opens : OpensNew g e
  own : NamesOwn g e

instance (env : Env) : Decidable (KernelTask env) :=
  match h : env.taskCreate with
  | .ok t => decidable_of_iff (t ≠ smcmgrPid ∧ t ≠ ⟨0, 0⟩) (by
      unfold KernelTask
      rw [h]
      exact ⟨fun ht t' he => Except.ok.inj he ▸ ht, fun ht => ht t rfl⟩)
  | .error _ => .isTrue fun t ht => by rw [h] at ht; nomatch ht

instance (g : Globals) (e : Env × Event) : Decidable (NamesOwn g e) :=
  match e with
  | (_, .nsCmd cmd) => inferInstanceAs (Decidable (isAbortCmd cmd ∨ cmd.isAgentAnswer ∨
      ∀ s, g.lookup cmd = some s → s.opener.isNormalWorld))
  | (_, .taMsg ..) | (_, .ta2ta ..) | (_, .agentRequest ..) | (_, .setCallerInfo ..)
  | (_, .registerElf) | (_, .taskCrash ..) | (_, .registerService ..)
  | (_, .startInternalTask _) => .isTrue trivial

instance (g : Globals) (e : Env × Event) : Decidable (Ordered g e) :=
  decidable_of_iff (FreshTask g e ∧ KernelTask e.1 ∧ OpensNew g e ∧ NamesOwn g e)
    ⟨fun ⟨a, b, c, d⟩ => ⟨a, b, c, d⟩, fun h => ⟨h.fresh, h.kernel, h.opens, h.own⟩⟩

theorem good_gtaskInit : Good True (gtaskInit uuid) :=
  ⟨books_gtaskInit, fun _ =>
    ⟨fun _ h => absurd h not_mem_nil, fun _ h => absurd h not_mem_nil,
      fun _ h => absurd h not_mem_nil, fun _ h => absurd h not_mem_nil⟩⟩

theorem Ordered.served {env : Env} {e : Event} (h : Ordered g (env, e)) (hb : Good True g) :
    Served True (Globals.step.reset g) (g.step env e) :=
  (served_step hb h.fresh h.opens (fun _ => h.kernel) fun _ => h.own).1

theorem good_runs (h : Along gtaskStep Ordered (gtaskInit uuid) es) :
    Good True (runs gtaskStep (gtaskInit uuid) es) :=
  invariant_run (fun _ _ hb hord => (hord.served hb).books) good_gtaskInit h

/-- Every message that a round sends to a session is sent on behalf of the one who opened
the session. -/
theorem gtask_sends_for_owner (uuid : Nat) (es : List (Env × Event)) (env : Env) (e : Event)
    (h : Along gtaskStep Ordered (gtaskInit uuid) (es ++ [(env, e)])) :
    ∀ o ∈ (runs gtaskStep (gtaskInit uuid) (es ++ [(env, e)])).out,
      o.allowed (runs gtaskStep (gtaskInit uuid) (es ++ [(env, e)])).died := by
  obtain ⟨hrun, hlast, -⟩ := along_append.1 h
  obtain ⟨l, hout, hl⟩ := (hlast.served (good_runs hrun)).out
  intro o ho
  rw [runs_append] at ho ⊢
  -- the round starts with nothing recorded, so all it records is in `l`
  have hmem : o ∈ l := by
    rcases mem_append.1 (hout ▸ ho) with ho | ho
    · exact absurd ho not_mem_nil
    · exact ho
  exact hl o hmem trivial

/-- A session with a father that is still listed was opened by the task of its father, and one
whose father is dead by a task that has died. -/
theorem gtask_sessions_fathered (uuid : Nat) (es : List (Env × Event))
    (h : Along gtaskStep Ordered (gtaskInit uuid) es) :
    let g := runs gtaskStep (gtaskInit uuid) es
    (∀ s ∈ g.sessions, ∀ f ∈ g.sessions, s.father = some f.ref → s.opener = .task f.taskId) ∧
      ∀ s ∈ g.sessions, s.sessionStatus = .fatherDead → ∃ t ∈ g.died, s.opener = .task t :=
  have ho := (good_runs h).owned trivial
  ⟨ho.father, ho.orphan⟩

/-- The normal world opens a session of a service, whose task opens one of another. -/
def openedThrough : List (Env × Event) :=
  [(idle, .registerService 9 2 { index := 0, uuid := 0 }),
    (idle, .registerService 10 3 { index := 0, uuid := 0 }),
    ({ taskCreate := .ok ⟨7, 1⟩ },
      .nsCmd { uuid := 9, cmdId := openSessionId, context := 2 * 2 ^ 16, devFileId := 4 }),
    ({ taskCreate := .ok ⟨8, 1⟩ }, .ta2ta ⟨7, 1⟩
      (some { uuid := 10, cmdId := openSessionId, context := 3 * 2 ^ 16 }) true)]

theorem gtask_sessions_fathered_openedThrough :
    let g := runs gtaskStep (gtaskInit 1) openedThrough
    (∃ s ∈ g.sessions, ∃ f ∈ g.sessions, s.father = some f.ref) ∧
      ∀ s ∈ g.sessions, ∀ f ∈ g.sessions, s.father = some f.ref → s.opener = .task f.taskId :=
  ⟨by decide, (gtask_sessions_fathered 1 openedThrough (by decide)).1⟩

/-- A call of the normal world that names the second of these sessions. -/
def callOfNormalWorld : SmcCmd :=
  { uuid := 10, cmdType := .ta, cmdId := 5, context := 3 * 2 ^ 16 + 1, devFileId := 4, eventNr := 1 }

/-- The task calls the session it has opened. -/
theorem gtask_sends_for_owner_openedThrough :
    Along gtaskStep Ordered (gtaskInit 1) (openedThrough ++ [(idle, .ta2ta ⟨7, 1⟩
        (some callOfNormalWorld) true)]) ∧
    ∀ o ∈ (runs gtaskStep (gtaskInit 1) (openedThrough ++ [(idle, .ta2ta ⟨7, 1⟩
        (some callOfNormalWorld) true)])).out,
      o.allowed (runs gtaskStep (gtaskInit 1) (openedThrough ++ [(idle, .ta2ta ⟨7, 1⟩
        (some callOfNormalWorld) true)])).died :=
  ⟨by decide, gtask_sends_for_owner 1 openedThrough idle _ (by decide)⟩

/-- The normal world calls it as well: the call is forwarded to the session of the task. -/
theorem normal_world_calls_session_of_task :
    Along gtaskStep (fun g e => FreshTask g e ∧ KernelTask e.1 ∧ OpensNew g e) (gtaskInit 1)
        (openedThrough ++ [(idle, .nsCmd callOfNormalWorld)]) ∧
      ∃ s ∈ (runs gtaskStep (gtaskInit 1)
          (openedThrough ++ [(idle, .nsCmd callOfNormalWorld)])).sessions,
        s.opener = .task ⟨7, 1⟩ ∧ .send (.normalWorld 4) s (.invokeCmd 5) ∈ (runs gtaskStep
          (gtaskInit 1) (openedThrough ++ [(idle, .nsCmd callOfNormalWorld)])).out := by
  decide

end TeeOs.Gtask
