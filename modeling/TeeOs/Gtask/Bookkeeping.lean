import TeeOs.Gtask.Handlers
import TeeOs.Lib.Runs

/-!
# Session bookkeeping over whole runs

After every round of the main loop the counter, the bitmap and the session list of
each service agree and each session has a live task of its own, as long as no OPEN
names a session that exists.
-/

namespace TeeOs.Gtask

open TeeOs.Lib TeeOs.Lib.Runs List Globals

variable {P : Prop} {g g' : Globals} {env : Env} {e : Event} {uuid : Nat}

/-- Whether an event asks for a session, and the session it names. -/
def Event.isOpen : Event → Bool
  | nsCmd cmd => isOpensessionCmd cmd
  | ta2ta _ (some cmd) _ => isOpensessionCmd cmd
  | _ => false

def Globals.named (g : Globals) : Event → Option Session
  | .nsCmd cmd => g.lookup cmd
  | .ta2ta task (some cmd) _ => g.lookupTa2ta task cmd
  | _ => none

section

variable (g : Globals) (e : Env × Event)

/-- A task that is created is not one of those that live. -/
def FreshTask : Prop :=
  match e.1.taskCreate with
  | .ok task => task ∉ g.tasks
  | .error _ => True

/-- An OPEN names no session. -/
def OpensNew : Prop := e.2.isOpen → g.named e.2 = none

instance (g : Globals) (e : Env × Event) : Decidable (FreshTask g e) :=
  match h : e.1.taskCreate with
  | .ok task => decidable_of_iff (task ∉ g.tasks) (by unfold FreshTask; rw [h])
  | .error _ => .isTrue (by unfold FreshTask; rw [h]; trivial)

instance (g : Globals) (e : Env × Event) : Decidable (OpensNew g e) :=
  inferInstanceAs (Decidable (_ → _))

/-- A command of the normal world that may reach a session names only sessions that the
normal world has opened. -/
def NamesOwn : Prop :=
  match e.2 with
  | .nsCmd cmd => isAbortCmd cmd ∨ cmd.isAgentAnswer ∨
      ∀ s, g.lookup cmd = some s → s.opener.isNormalWorld
  | _ => True

end

section

variable {ret : TeeRet} {index : Nat} {v : Service} (hb : Good P g)
include hb

theorem kept_sendImgLoadResponse : Kept P g (g.sendImgLoadResponse env ret) := by
  have hcmd : Kept P g { g with loadCmd := { g.loadCmd with retVal := ret, operation := 0 } } :=
    .of_eq hb rfl rfl rfl
  exact hcmd.bind kept_nsCmdResponse

theorem kept_processRegisterElfReq : Kept P g (g.processRegisterElfReq env) := by
  have hdone : Kept P g { g with elfLoading := false } :=
    .of_eq hb rfl rfl rfl
  exact (hdone.bind kept_cmdGlobalNsGetParams).bind kept_sendImgLoadResponse

theorem kept_elfVerifyCrashCallback : Kept P g (g.elfVerifyCrashCallback env) := by
  unfold elfVerifyCrashCallback
  split_ifs
  · exact (kept_sendImgLoadResponse hb).bind fun hb => .of_eq hb rfl rfl rfl
  · exact .refl hb

/-- A new service has no sessions, since no session is listed for its index. -/
theorem kept_registerService : Kept P g (g.registerService uuid index v) := by
  unfold registerService
  split_ifs with hno
  · exact .refl hb
  simp only [Bool.or_eq_true, Option.isSome_iff_ne_none, not_or, not_not] at hno
  have hnew : ∀ w ∈ g.services, w.index ≠ index := by
    intro w hw hx
    have hfind := find?_eq_none.1 hno.1.2 w hw
    simp [hx] at hfind
  have hempty : g.sessionsOf index = [] := by
    refine filter_eq_nil_iff.2 fun s hs => ?_
    obtain ⟨w, hw, hx⟩ := hb.listed s hs
    simpa [← hx] using hnew w hw
  refine ⟨⟨.of_eq rfl rfl rfl, ⟨⟨fun w hw => ?_, hb.live, hb.own, ?_, hb.refs, hb.fresh,
    fun s hs => ?_⟩, fun hp => (hb.owned hp).of_eq rfl rfl rfl⟩,
    fun s hs => .inl ⟨s, hs, rfl⟩⟩, fun s hs => ⟨s, hs, rfl⟩⟩
  · rcases mem_append.1 hw with hw | hw
    · exact (hb.services w hw).of_ids rfl rfl
    obtain rfl := mem_singleton.1 hw
    have hids : g.idsOf index = [] := by rw [idsOf, hempty, map_nil]
    refine ⟨?_, ?_, fun id hid => ?_, fun i => ?_⟩
    · exact (congrArg List.length hempty).symm
    · exact hids ▸ nodup_nil
    · exact absurd (hids ▸ hid) not_mem_nil
    · exact ⟨fun h => absurd h (by simp), fun h => absurd (hids ▸ h) not_mem_nil⟩
  · rw [map_append, map_singleton]
    refine nodup_append.2 ⟨hb.indices, nodup_singleton _, fun a ha b hbm => ?_⟩
    obtain ⟨w, hw, rfl⟩ := mem_map.1 ha
    rw [mem_singleton.1 hbm]
    exact hnew w hw
  · obtain ⟨w, hw, hx⟩ := hb.listed s hs
    exact ⟨w, mem_append_left _ hw, hx⟩

theorem good_reset : Good P (Globals.step.reset g) :=
  ⟨{ hb.toBooks with services := fun v hv => (hb.services v hv).of_ids rfl rfl },
    fun hp => (hb.owned hp).of_eq rfl rfl rfl⟩

/-- One round of the main loop, from the state it clears. -/
theorem served_step (hfresh : FreshTask g (env, e)) (hnew : OpensNew g (env, e))
    (hk : P → KernelTask env) (hown : P → NamesOwn g (env, e)) :
    Served P (Globals.step.reset g) (g.step env e) ∧
      (e.isOpen → g.sessions <+: (g.step env e).sessions) := by
  have hb' := good_reset hb
  have htask : NewTask env (step.reset g) := by
    intro t ht
    unfold FreshTask at hfresh
    rw [ht] at hfresh
    exact hfresh
  cases e with
  | nsCmd cmd =>
    refine served_handleNsCmd hb' rfl htask hk hnew fun hp => (hown hp).imp_right (.imp_right ?_)
    exact fun hs s hl => (hb.owned hp).opener_of_lookup hl (hs s hl)
  | taMsg task back ret agentId => exact ⟨(kept_handleMsgFromTa hb').toServed, nofun⟩
  | ta2ta task cmd loadWorked =>
    cases cmd with
    | none => exact ⟨(kept_sCmdResponse hb').toServed, nofun⟩
    | some cmd => exact served_handleTa2taCmd hb' rfl htask hk hnew
  | agentRequest task agentId => exact ⟨(kept_handleAgentRequest hb').toServed, nofun⟩
  | setCallerInfo task caller =>
    unfold step
    dsimp only
    split <;> exact ⟨Kept.toServed (.of_eq hb' rfl rfl rfl), nofun⟩
  | registerElf => exact ⟨(kept_processRegisterElfReq hb').toServed, nofun⟩
  | taskCrash task permService =>
    refine ⟨Kept.toServed ?_, nofun⟩
    have hcrash : Kept P (step.reset g) ((step.reset g).processTaskCrash env task) :=
      kept_processTaskCrash hb'
    unfold step
    dsimp only
    split_ifs
    · exact hcrash.bind kept_elfVerifyCrashCallback
    · exact hcrash
  | registerService uuid index v => exact ⟨(kept_registerService hb').toServed, nofun⟩
  | startInternalTask uuid => exact ⟨served_startInternalTask hb' htask hk, nofun⟩

end

/-- Where nothing is said about owners. -/
theorem kept_step (hb : Books g) (hfresh : FreshTask g (env, e)) (hnew : OpensNew g (env, e)) :
    Served False (Globals.step.reset g) (g.step env e) ∧
      (e.isOpen → g.sessions <+: (g.step env e).sessions) :=
  served_step ⟨hb, False.elim⟩ hfresh hnew False.elim False.elim

theorem books_gtaskInit : Books (gtaskInit uuid) := by
  refine ⟨fun v hv => ?_, fun _ h => absurd h not_mem_nil, nodup_nil,
    nodup_singleton _, nodup_nil, fun _ h => absurd h not_mem_nil,
    fun _ h => absurd h not_mem_nil⟩
  obtain rfl := mem_singleton.1 hv
  exact ⟨rfl, nodup_nil, nofun, fun i =>
    ⟨fun h => absurd h (by simp), nofun⟩⟩

theorem books_runs {es : List (Env × Event)}
    (hfresh : Along gtaskStep FreshTask (gtaskInit uuid) es)
    (hnew : Along gtaskStep OpensNew (gtaskInit uuid) es) :
    Books (runs gtaskStep (gtaskInit uuid) es) :=
  invariant_run (fun _ _ hb h => (kept_step hb h.1 h.2).1.books.toBooks) books_gtaskInit
    (hfresh.and hnew)

/-- What one round of the main loop may do to the sessions, and how it leaves their
books. -/
structure Bookkept (g : Globals) (e : Event) (g' : Globals) : Prop where
  count : ∀ v ∈ g'.services, v.sessionCount = (g'.sessionsOf v.index).length
  bits : ∀ v ∈ g'.services, bitCount v.sessionBitmap = (g'.sessionsOf v.index).length
  ids : ∀ v ∈ g'.services, (g'.idsOf v.index).Nodup
  range : ∀ v ∈ g'.services, ∀ id ∈ g'.idsOf v.index, 1 ≤ id ∧ id ≤ maxSessionId
  bitmap : ∀ v ∈ g'.services, ∀ i, v.sessionBitmap.getLsbD i = true ↔ i + 1 ∈ g'.idsOf v.index
  live : ∀ s ∈ g'.sessions, s.taskId ∈ g'.tasks
  own : (g'.sessions.map Session.taskId).Nodup
  gone : ∀ s ∈ g.sessions, (∃ s' ∈ g'.sessions, s'.ident = s.ident) ∨ .deleted s.taskId ∈ g'.out
  opening : e.isOpen → g.sessions <+: g'.sessions

/-- After every round the books agree, whoever left the lists has had its task deleted,
and an OPEN leaves all sessions there were as they are. -/
theorem gtask_sessions_bookkept (uuid : Nat) (es : List (Env × Event)) (env : Env) (e : Event)
    (hfresh : Along gtaskStep FreshTask (gtaskInit uuid) (es ++ [(env, e)]))
    (hnew : Along gtaskStep OpensNew (gtaskInit uuid) (es ++ [(env, e)])) :
    Bookkept (runs gtaskStep (gtaskInit uuid) es) e
      (runs gtaskStep (gtaskInit uuid) (es ++ [(env, e)])) := by
  obtain ⟨hfresh, hfresh', -⟩ := along_append.1 hfresh
  obtain ⟨hnew, hnew', -⟩ := along_append.1 hnew
  obtain ⟨hkept, hopening⟩ := kept_step (books_runs hfresh hnew) hfresh' hnew'
  rw [runs_append]
  exact {
    count := fun v hv => (hkept.books.services v hv).count
    bits := fun v hv => (hkept.books.services v hv).bitCount_eq
    ids := fun v hv => (hkept.books.services v hv).ids
    range := fun v hv => (hkept.books.services v hv).range
    bitmap := fun v hv => (hkept.books.services v hv).bitmap
    live := hkept.books.live
    own := hkept.books.own
    gone := hkept.stay
    opening := hopening }

/-- A round in which no task can be created and everything else succeeds. -/
def idle : Env := {}

/-- A service is registered and the normal world opens a session of it. -/
def openedOnce : List (Env × Event) :=
  [(idle, .registerService 9 2 { index := 0, uuid := 0 }), ({ taskCreate := .ok ⟨7, 1⟩ },
      .nsCmd { uuid := 9, cmdId := openSessionId, context := 2 * 2 ^ 16, devFileId := 4 })]

/-- A second OPEN of a service with one session is refused. -/
theorem gtask_sessions_bookkept_openedOnce : Bookkept (runs gtaskStep (gtaskInit 1) openedOnce)
      (.nsCmd { uuid := 9, cmdId := openSessionId, context := 2 * 2 ^ 16, devFileId := 4, eventNr := 1 })
      (runs gtaskStep (gtaskInit 1) (openedOnce ++ [(idle, .nsCmd
        { uuid := 9, cmdId := openSessionId, context := 2 * 2 ^ 16, devFileId := 4, eventNr := 1 })])) :=
  gtask_sessions_bookkept 1 openedOnce idle _ (by decide) (by decide)

/-- A service of the system is registered and its task is started. -/
def internalStarted : List (Env × Event) :=
  [(idle, .registerService 9 2 { index := 0, uuid := 0, internal := true }),
    ({ taskCreate := .ok ⟨7, 1⟩ }, .startInternalTask 9)]

/-- An OPEN of the normal world that names the session of a service of the system. -/
def openOfSystem : SmcCmd := { uuid := 9, cmdId := openSessionId, context := 2 * 2 ^ 16 + 1 }

/-- The OPEN is refused and releases the session it names: its task lives, the counter
still counts it. -/
theorem refused_open_releases_session :
    Along gtaskStep FreshTask (gtaskInit 1) (internalStarted ++ [(idle, .nsCmd openOfSystem)]) ∧
      ¬ Bookkept (runs gtaskStep (gtaskInit 1) internalStarted) (.nsCmd openOfSystem)
        (runs gtaskStep (gtaskInit 1) (internalStarted ++ [(idle, .nsCmd openOfSystem)])) := by
  exact ⟨by decide, fun h => absurd h.count (by decide)⟩

end TeeOs.Gtask
