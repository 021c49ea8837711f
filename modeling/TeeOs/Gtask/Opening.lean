import TeeOs.Gtask.Lifecycle

/-!
# An opening adds a session or leaves none

`open_session` links a session before it has a task, makes the task, and sends the
first message. Whatever fails on the way is taken back by `create_task_fail_gc` and
`open_session_fail_gc`, which work on the current session.
-/

namespace TeeOs.Gtask

open TeeOs.Lib List Globals Keyed Service

variable {P : Prop} {g g' : Globals} {env : Env} {v : Service} {s : Session} {O : Out → Prop}
  {cmd : SmcCmd} {type : CallType} {i : Nat}

theorem clrBit_setBit {b : BitVec 32} (hi : i < 32) (hb : b.getLsbD i = false) :
    clrBit (setBit b i) i = b := by
  refine BitVec.eq_of_getLsbD_eq fun j _ => ?_
  rw [getLsbD_clrBit hi, getLsbD_setBit hi]
  by_cases hj : j = i
  · simp [hj, hb]
  · simp [hj]

/-- The books of a service to which the session `s` is added. -/
def Service.plus (s : Session) (v : Service) : Service :=
  { v with sessionCount := countUp v.sessionCount,
           sessionBitmap := setBit v.sessionBitmap (s.sessionId - 1) }

@[simp] theorem plus_index : (v.plus s).index = v.index := rfl

@[simp] theorem plus_sessionCount : (v.plus s).sessionCount = countUp v.sessionCount := rfl

@[simp] theorem plus_sessionBitmap :
    (v.plus s).sessionBitmap = setBit v.sessionBitmap (s.sessionId - 1) := rfl

/-- From `g` to `g'` the session `s` is opened. -/
structure Added (s : Session) (g g' : Globals) : Prop where
  service : ∃ v ∈ g.services, v.index = s.srv ∧ v.sessionBitmap.getLsbD (s.sessionId - 1) = false
  range : 1 ≤ s.sessionId ∧ s.sessionId ≤ maxSessionId
  ref : s.ref = g.next
  task : s.taskId ∉ g.tasks
  sessions : g'.sessions = g.sessions ++ [s]
  services : g'.services.map ledger =
    (edit index s.srv (plus s) g.services).map ledger
  tasks : g'.tasks = g.tasks ++ [s.taskId]
  next : g'.next = g.next + 1
  died : g'.died = g.died
  out : g'.out = g.out

theorem Books.forall_ne (h : Books g) (hs : s.ref = g.next) : ∀ t ∈ g.sessions, t.ref ≠ s.ref :=
  fun t ht hr => absurd (h.fresh t ht) (by rw [hr, hs]; exact Nat.lt_irrefl _)

theorem Books.eq_of_index (h : Books g) {v w : Service} (hv : v ∈ g.services)
    (hw : w ∈ g.services) (hx : v.index = w.index) : v = w :=
  inj_on_of_nodup_map h.indices hv hw hx

section

variable (h : Added s g g')
include h

theorem Added.mem {t : Session} : t ∈ g'.sessions ↔ t ∈ g.sessions ∨ t = s := by
  rw [h.sessions, mem_append, mem_singleton]

theorem Added.sessionsOf (i : Nat) :
    g'.sessionsOf i = g.sessionsOf i ++ if s.srv = i then [s] else [] := by
  rw [Globals.sessionsOf, h.sessions, filter_append, ← Globals.sessionsOf]
  by_cases hi : s.srv = i
  · rw [if_pos hi, filter_cons_of_pos (by simpa using hi), filter_nil]
  · rw [if_neg hi, filter_cons_of_neg (by simpa using hi), filter_nil]

theorem Added.idsOf : g'.idsOf s.srv = g.idsOf s.srv ++ [s.sessionId] := by
  rw [Globals.idsOf, h.sessionsOf, if_pos rfl, map_append, map_singleton, ← Globals.idsOf]

theorem Added.idsOf_of_ne (hx : i ≠ s.srv) : g'.idsOf i = g.idsOf i := by
  rw [Globals.idsOf, h.sessionsOf, if_neg (Ne.symm hx), append_nil, ← Globals.idsOf]

theorem Added.serviceBooks (hb : Books g) (hv : v ∈ g.services) (hx : v.index = s.srv) :
    ServiceBooks g' (v.plus s) := by
  have hsb := hb.services v hv
  obtain ⟨w, hw, hwx, hbit⟩ := h.service
  obtain rfl := hb.eq_of_index hv hw (hx.trans hwx.symm)
  have hrange := h.range
  have hnew : s.sessionId ∉ g.idsOf s.srv := by
    intro hm
    rw [← hx, ← Nat.sub_add_cancel hrange.1, ← hsb.bitmap] at hm
    exact absurd hm (by rw [hbit]; exact Bool.false_ne_true)
  refine ⟨?_, ?_, fun id hid => ?_, fun i => ?_⟩
  · rw [plus_sessionCount, plus_index, countUp_eq (hsb.count ▸ hsb.length_le), hsb.count,
      h.sessionsOf, if_pos hx.symm, length_append, length_singleton]
  · rw [plus_index, hx, h.idsOf]
    refine nodup_append.2 ⟨hx ▸ hsb.ids, nodup_singleton _, fun a ha b hbm => ?_⟩
    rintro rfl
    exact hnew (mem_singleton.1 hbm ▸ ha)
  · rw [plus_index, hx, h.idsOf, mem_append, mem_singleton] at hid
    rcases hid with hid | rfl
    · exact hsb.range id (hx ▸ hid)
    · exact hrange
  · rw [maxSessionId] at hrange
    rw [plus_sessionBitmap, plus_index, getLsbD_setBit (by omega), hx, h.idsOf, mem_append,
      mem_singleton, ← hx, ← hsb.bitmap i, Bool.or_eq_true, decide_eq_true_eq]
    refine or_congr_right ?_
    omega

/-- What the fields of a new session show about who opened it. -/
structure Shown (g : Globals) (s : Session) : Prop where
  opened : s.wellOpened
  status : s.sessionStatus ≠ .fatherDead
  father : ∀ r, s.father = some r → ∃ f ∈ g.sessions, f.ref = r ∧ s.opener = .task f.taskId

theorem Added.owned (hb : Books g) (ho : Owned g) (hs : Shown g s) : Owned g' := by
  have hmem {t : Session} := h.mem (t := t)
  obtain ⟨opened, father, earlier, orphan⟩ := ho
  obtain ⟨sOpened, sStatus, sFather⟩ := hs
  have hlt : ∀ t ∈ g'.sessions, ∀ r, t.father = some r → r < g.next := by
    have hfresh := hb.fresh
    grind
  refine ⟨by grind, fun t ht f hf hr => ?_, fun t ht r hr => ?_, by rw [h.died]; grind⟩
  · rcases hmem.1 hf with hf | rfl
    · rcases hmem.1 ht with ht | rfl
      · exact father t ht f hf hr
      · obtain ⟨f', hf', href, hop⟩ := sFather f.ref hr
        rw [hop, hb.eq_of_ref hf' hf href]
    · exact absurd (hlt t ht f.ref hr) (by rw [h.ref]; exact Nat.lt_irrefl _)
  · rw [h.next]
    exact Nat.lt_succ_of_lt (hlt t ht r hr)

theorem Added.served (hb : Good P g) (hs : P → Shown g s) : Served P g g' := by
  have hidx := (map_index_eq h.services).trans (map_edit fun v _ _ => rfl)
  have hservices := services_of_edit hb.toBooks h.services (fun v hv hx =>
    h.serviceBooks hb.toBooks hv hx) fun i hi => h.idsOf_of_ne hi
  refine ⟨⟨?_, fun t ht => h.died ▸ ht, [], ?_, fun _ h => nomatch h⟩,
    ⟨⟨hservices, fun t ht => ?_, ?_, ?_, ?_, fun t ht => ?_, fun t ht => ?_⟩,
    fun hp => h.owned hb.toBooks (hb.owned hp) (hs hp)⟩, fun t ht => .inl ⟨t, h.mem.2 (.inl ht), rfl⟩⟩
  · rw [h.next]
    exact Nat.le_succ _
  · rw [h.out, append_nil]
  · rw [h.tasks, mem_append, mem_singleton]
    exact (h.mem.1 ht).imp (hb.live t) fun ht => by rw [ht]
  · have htask := h.task
    have hlive := hb.live
    rw [h.sessions, map_append, nodup_append]
    exact ⟨hb.own, nodup_singleton _, by grind⟩
  · rw [hidx]
    exact hb.indices
  · have href := h.ref
    have hfresh := hb.fresh
    rw [h.sessions, map_append, nodup_append]
    exact ⟨hb.refs, nodup_singleton _, by grind⟩
  · rw [h.next]
    rcases h.mem.1 ht with ht | rfl
    · exact Nat.lt_succ_of_lt (hb.fresh t ht)
    · rw [h.ref]
      exact Nat.lt_succ_self _
  · rcases h.mem.1 ht with ht | rfl
    · exact listed_of_map_index hidx (hb.listed t ht)
    · obtain ⟨v, hv, hx, -⟩ := h.service
      exact listed_of_map_index hidx ⟨v, hv, hx⟩

end

variable {handleRefCnt : Bool} {sre : SreRet} {f : Session → Session} {caller task : TaskId}
  {why : Cause}

/-- Only the list of services and the pointer into it change. -/
theorem releaseSrvcGc_eq (g : Globals) (handleRefCnt : Bool) (sre : SreRet) : ∃ vs i,
    g.releaseSrvcGc handleRefCnt sre = { g with services := vs, curService := i } := by
  unfold releaseSrvcGc
  split
  · exact ⟨g.services, g.curService, rfl⟩
  · dsimp only
    generalize (if handleRefCnt then _ else _ : Nat) = n
    split_ifs
    · exact ⟨g.services, g.curService, rfl⟩
    · exact ⟨_, none, rfl⟩
    · exact ⟨_, g.curService, rfl⟩

/-- An opening that was given up: no session has been added, and none has become
current. -/
structure Refused (P : Prop) (g g' : Globals) : Prop where
  kept : Kept P g g'
  sessions : g'.sessions = g.sessions
  cur : g'.curSession = none ∨ g'.curSession = g.curSession

open Refused

theorem Refused.releaseSrvcGc (h : Refused P g g') :
    Refused P g (g'.releaseSrvcGc handleRefCnt sre) := by
  have hkept : Kept P g (g'.releaseSrvcGc handleRefCnt sre) := h.kept.bind kept_releaseSrvcGc
  obtain ⟨vs, i, heq⟩ := releaseSrvcGc_eq g' handleRefCnt sre
  rw [heq] at hkept ⊢
  exact ⟨hkept, h.sessions, h.cur⟩

/-- The state in which a new session is linked and has no task yet. -/
def Globals.link (g : Globals) (v : Service) (s : Session) : Globals :=
  { g.editService v.index fun v => { v with sessionBitmap := setBit v.sessionBitmap (s.sessionId - 1) }
    with sessions := g.sessions ++ [s], curSession := some s.ref, next := g.next + 1 }

theorem addNewSessionIntoList_cases (g : Globals) (env : Env) (opener : Principal) (level : Nat) :
    ((g.addNewSessionIntoList env opener level).1.isErr ∧
      (g.addNewSessionIntoList env opener level).2 = g) ∨
    ∃ v id, g.curSrv? = some v ∧ getSessionId v.sessionBitmap = some id ∧
      g.addNewSessionIntoList env opener level = (.success, g.link v
        { ref := g.next, srv := v.index, opener, sessionId := id, ta2taLevel := level }) := by
  unfold addNewSessionIntoList
  split
  · exact .inl ⟨rfl, rfl⟩
  · next v hv =>
    split
    · exact .inl ⟨rfl, rfl⟩
    · next id hid =>
      split_ifs
      · exact .inl ⟨rfl, rfl⟩
      · exact .inr ⟨v, id, hv, hid, rfl⟩

/-- What a new session has before it gets its task. -/
structure Fresh (g : Globals) (v : Service) (s : Session) : Prop where
  service : g.curSrv? = some v
  srv : s.srv = v.index
  ref : s.ref = g.next
  id : getSessionId v.sessionBitmap = some s.sessionId

theorem Fresh.cur? (h : Fresh g v s) (hb : Books g) (hs : g'.sessions = g.sessions ++ [s])
    (hc : g'.curSession = some s.ref) : g'.cur? = some s := by
  unfold Globals.cur? session?
  rw [hc, Option.bind_some, hs, find?_append, find?_eq_none.2, Option.none_or]
  · exact find?_cons_of_pos (by simp)
  · intro t ht
    simpa using hb.forall_ne h.ref t ht

/-- The bit that was set for a session is cleared again. -/
theorem Fresh.ledger (h : Fresh g v s) (hb : Books g) : (edit index v.index
      (fun v => { v with sessionBitmap := clrBit v.sessionBitmap (s.sessionId - 1) })
      (g.link v s).services).map ledger = g.services.map ledger := by
  obtain ⟨hle, hmax, hbit⟩ := getSessionId_spec h.id
  rw [maxSessionId] at hmax
  have hedit : edit index v.index
      (fun v => { v with sessionBitmap := clrBit v.sessionBitmap (s.sessionId - 1) })
      (g.link v s).services = _ := edit_edit fun _ => rfl
  rw [hedit]
  refine map_edit fun w hw hx => ?_
  obtain rfl := hb.eq_of_index hw (curSrv?_eq_some h.service).2 hx
  simp only [ledger, Function.comp_apply, clrBit_setBit (by omega) hbit]

/-- The books after an edit depend on the books before it only. -/
theorem ledger_edit {f : Service → Service} {F : Nat × Nat × BitVec 32 → Nat × Nat × BitVec 32}
    {l l' : List Service} (hf : ∀ v, (f v).ledger = F v.ledger)
    (h : l'.map ledger = l.map ledger) :
    (edit index i f l').map ledger =
      (edit index i f l).map ledger := by
  have hk (v : Service) : v.ledger.1 = v.index := rfl
  rw [map_edit_comm hf hk, h, ← map_edit_comm hf hk]

/-- A process that was started does not show in the books. -/
theorem spawnThread_eq (g : Globals) (env : Env) :
    ∃ vs : List Service, g.spawnThread env = { g with services := vs } ∧ vs.map ledger = g.services.map ledger := by
  unfold spawnThread
  split
  · exact ⟨_, rfl, map_edit fun _ _ _ => rfl⟩
  · exact ⟨g.services, rfl, rfl⟩

/-- No task could be made: the session is unlinked again. -/
theorem refused_createTaskFailGc (h : Fresh g v s) (hb : Good P g) :
    Refused P g (((g.link v s).spawnThread env).createTaskFailGc handleRefCnt sre) := by
  obtain ⟨vs, hvs, hl⟩ := spawnThread_eq (g.link v s) env
  rw [hvs]
  have hcur : { g.link v s with services := vs }.cur? = some s := h.cur? hb.toBooks rfl rfl
  have hsrv : { g.link v s with services := vs }.curService = some v.index :=
    (curSrv?_eq_some h.service).1
  have hsessions := delete_append (hb.toBooks.forall_ne h.ref) rfl
  unfold createTaskFailGc
  rw [hcur, hsrv]
  refine releaseSrvcGc ⟨Same.kept (.of_eq hsessions ?_ rfl (.of_notSend (Nat.le_succ _) rfl rfl
    notSend_release)) hb, hsessions, .inl rfl⟩
  refine .trans ?_ (h.ledger hb.toBooks)
  exact ledger_edit (F := fun l => (l.1, l.2.1, clrBit l.2.2 (s.sessionId - 1))) (fun _ => rfl) hl

section Errors

variable {ret : TeeRet} {mb : Option Mailbox} {ta2ta global : Bool}

theorem mapCmdToOperation_isErr (h : (mapCmdToOperation env mb cmd ta2ta).result = .error ret) :
    ret.isErr := by
  unfold mapCmdToOperation at h
  cases hop : env.taOperation cmd.uid cmd.operation <;> rw [hop] at h <;> dsimp only at h <;>
    split_ifs at h <;> cases h <;> rfl

theorem setAllParams_isErr {ps : List Param} :
    ∀ {i : Nat}, (setAllParams env mb cmd ta2ta global i ps).result = .error ret → ret.isErr := by
  induction ps with
  | nil => intro i h; cases h
  | cons p ps ih =>
    intro i h
    unfold setAllParams at h
    cases hm : (setParamsForTa env mb cmd ta2ta global i p).result with
    | error e =>
      simp only [hm] at h
      cases h
      unfold setParamsForTa paramsMapForTaMemref at hm
      cases hp : p.type <;> simp only [hp] at hm <;> (try split_ifs at hm) <;> cases hm <;> rfl
    | ok w =>
      simp only [hm] at h
      cases hr : (setAllParams env mb cmd ta2ta global (i + 1) ps).result with
      | error e =>
        rw [hr] at h
        cases h
        exact ih hr
      | ok ws => rw [hr] at h; cases h

theorem operationMapForGt_isErr {ref : Nat}
    (h : (operationMapForGt env mb cmd ta2ta global ref).result = .error ret) : ret.isErr := by
  unfold operationMapForGt at h
  dsimp only at h
  cases hm : (mapCmdToOperation env mb cmd ta2ta).result with
  | error e =>
    rw [hm] at h
    cases h
    exact mapCmdToOperation_isErr hm
  | ok w =>
    rw [hm] at h
    dsimp only at h
    split_ifs at h
    · cases h; rfl
    · cases h; rfl
    · cases hp : (setAllParams env mb cmd ta2ta global 0 w.1).result with
      | error e =>
        rw [hp] at h
        cases h
        exact setAllParams_isErr hp
      | ok ree => rw [hp] at h; cases h

abbrev TeeRet.successOrErr (ret : TeeRet) : Prop := ret = .success ∨ ret.isErr

theorem mapForSession_ret : (g.mapForSession env cmd ta2ta).1.successOrErr := by
  unfold mapForSession
  dsimp only
  cases hr : (operationMapForGt env g.mbState cmd ta2ta false g.next).result with
  | error ret => exact .inr (operationMapForGt_isErr hr)
  | ok w => exact .inl rfl

theorem getParams_ret : (g.getParams env task cmd type).1.successOrErr := by
  unfold getParams cmdNsGetParams cmdSecureGetParams
  cases type <;> dsimp only <;> split_ifs <;> first | exact mapForSession_ret | exact .inl rfl

theorem sendTa_ret {msg : TaMsg} : (g.sendTa env why s msg).1.successOrErr := by
  unfold sendTa
  split_ifs
  · exact .inl rfl
  · exact .inr rfl

/-- A call that is not sent is answered with an error. -/
theorem asyncCallTaEntry_ret {entry : Globals.Entry} :
    (g.asyncCallTaEntry env why cmd type entry).1.successOrErr := by
  unfold asyncCallTaEntry
  split
  · next s v hs hv =>
    split_ifs
    · exact .inr rfl
    · exact sendTa_ret
    have hcall :
        (g.callTaInvokeCloseSession env s cmd type (entryMsg v cmd entry)).1.successOrErr := by
      unfold callTaInvokeCloseSession
      split_ifs
      · exact .inl rfl
      · exact getParams_ret
    dsimp only
    split_ifs with hne
    · exact .inr (hcall.resolve_left hne)
    · exact sendTa_ret
  · exact .inr rfl

end Errors

theorem ne_success_of_isErr {ret : TeeRet} (h : ret.isErr) : ret ≠ .success := by
  rintro rfl
  cases h

/-- What a session is opened with. -/
structure OpenedBy (env : Env) (type : CallType) (cmd : SmcCmd) (caller : TaskId) (g : Globals)
    (s : Session) : Prop where
  opener : s.opener = openerOf type cmd caller
  fromTask : s.ta2taFromTaskid = caller
  task : env.taskCreate = .ok s.taskId
  status : s.sessionStatus = .normal
  father : ∀ r, s.father = some r → type = .secureToSecure ∧
    (caller = ⟨0, 0⟩ ∨ ∃ f ∈ g.sessions, f.ref = r ∧ f.taskId = caller)

/-- The two ends of `create_session`. -/
inductive CreateSpec (P : Prop) (env : Env) (type : CallType) (cmd : SmcCmd) (caller : TaskId)
    (g : Globals) : TeeRet × SmcCmd × Globals → Prop where
  | refused {ret : TeeRet} {c : SmcCmd} {g' : Globals} (err : ret.isErr) (h : Refused P g g') :
    CreateSpec P env type cmd caller g (ret, c, g')
  | created {c : SmcCmd} {g' : Globals} {s : Session} (h : Added s g g')
    (cur : g'.curSession = some s.ref) (curSrv : g'.curService = some s.srv)
    (dev : c.devFileId = cmd.devFileId) (opened : OpenedBy env type cmd caller g s) :
    CreateSpec P env type cmd caller g (.success, c, g')

theorem Fresh.curSrv? (h : Fresh g v s) :
    (g.link v s).curSrv? = some { v with sessionBitmap := setBit v.sessionBitmap (s.sessionId - 1) } := by
  have hc : (g.link v s).curService = some v.index := (curSrv?_eq_some h.service).1
  have hv : (g.link v s).service? v.index = (g.service? v.index).map _ :=
    service?_editService fun _ => rfl
  unfold Globals.curSrv?
  rw [hc, Option.bind_some, hv, service?_of_curSrv? h.service, Option.map_some]

/-- A linked session gets its task. -/
theorem Fresh.added (h : Fresh g v s) (hb : Books g) (ht : task ∉ g.tasks)
    (hf : (f s).taskId = task ∧ (f s).ref = s.ref ∧ (f s).srv = s.srv ∧
      (f s).sessionId = s.sessionId) :
    Added (f s) g { ((g.link v s).editCur f).editService v.index fun v =>
      { v with sessionCount := countUp v.sessionCount, serviceThread := task.pid } with
      tasks := g.tasks ++ [task] } := by
  obtain ⟨rfl, href, hsrv, hid⟩ := hf
  obtain ⟨hle, hmax, hbit⟩ := getSessionId_spec h.id
  have hmem := (curSrv?_eq_some h.service).2
  refine ⟨⟨v, hmem, ?_, ?_⟩, ?_, ?_, ht, ?_, ?_, rfl, rfl, rfl, rfl⟩
  · rw [hsrv, h.srv]
  · rw [hid]
    exact hbit
  · rw [hid]
    exact ⟨hle, hmax⟩
  · rw [href, h.ref]
  · exact edit_append (hb.forall_ne h.ref) rfl
  · have hedit : edit Service.index v.index (fun v =>
        { v with sessionCount := countUp v.sessionCount, serviceThread := (f s).taskId.pid })
        (g.link v s).services = _ := edit_edit fun _ => rfl
    rw [hsrv, h.srv]
    refine (congrArg (List.map Service.ledger) hedit).trans (map_edit_congr fun w => ?_)
    simp only [Service.ledger, Function.comp_apply, Service.plus, hid]

/-- The session in whose child list a linked one is put. -/
theorem ta2taFather_link {r : Nat} (hs : s.taskId = ⟨0, 0⟩)
    (h : (g.link v s).ta2taFather type caller = some r) : type = .secureToSecure ∧
      (caller = ⟨0, 0⟩ ∨ ∃ f ∈ g.sessions, f.ref = r ∧ f.taskId = caller) := by
  cases type with
  | nsToSecure => cases h
  | secureToSecure =>
    refine ⟨rfl, ?_⟩
    obtain ⟨f, hf, rfl⟩ := Option.map_eq_some_iff.1 h
    obtain ⟨hm, ht⟩ := doFindTask_mem hf
    rcases mem_append.1 hm with hm | hm
    · exact .inr ⟨f, hm, rfl, ht⟩
    · rw [mem_singleton.1 hm, hs] at ht
      exact .inl ht.symm

/-- A task that is created is a new one. -/
def NewTask (env : Env) (g : Globals) : Prop := ∀ t, env.taskCreate = .ok t → t ∉ g.tasks

/-- The new session is given its call type and its command. -/
theorem Added.editCur (h : Added s g g') (hb : Books g)
    (hc : g'.curSession = some s.ref) (hf : (f s).taskId = s.taskId ∧ (f s).ref = s.ref ∧
      (f s).srv = s.srv ∧ (f s).sessionId = s.sessionId) : Added (f s) g (g'.editCur f) := by
  obtain ⟨htask, href, hsrv, hid⟩ := hf
  have hedit : edit Session.ref s.ref f (g.sessions ++ [s]) = g.sessions ++ [f s] :=
    edit_append (hb.forall_ne h.ref) rfl
  obtain ⟨service, range, ref, task, sessions, services, tasks, next, died, out⟩ := h
  unfold Globals.editCur
  rw [hc]
  refine ⟨by grind, by grind, by grind, by grind, ?_, ?_, htask ▸ tasks, next, died, out⟩
  · rw [← hedit, ← sessions]
    rfl
  · rw [hsrv]
    refine services.trans (map_edit_congr fun w => ?_)
    simp only [ledger, plus, hid]

/-- What is done to a new session leaves it the last one. -/
theorem Touch.append {h : Globals} (ht : Touch O h g') (hs : h.sessions = g.sessions ++ [s])
    (hc : h.curSession = some s.ref) (hne : ∀ t ∈ g.sessions, t.ref ≠ s.ref) :
    ∃ s', s'.ident = s.ident ∧ g'.sessions = g.sessions ++ [s'] := by
  obtain ⟨f, hf, hid⟩ := ht.sessions
  have hmem : s ∈ h.sessions := hs ▸ mem_concat_self
  refine ⟨f s, ident_of_frame (hid s hmem).1, ?_⟩
  have hold : ∀ t ∈ g.sessions, f t = t := fun t ht =>
    (hid t (hs ▸ mem_append_left _ ht)).2 fun hcur =>
      hne t ht (Option.mem_unique hcur hc)
  rw [hf, hs, map_append, map_congr_left hold, map_id', map_singleton]

theorem Books.curSrv?_of_mem (hb : Books g) (hs : s ∈ g.sessions) (hc : g.curService = some s.srv) :
    ∃ v, g.curSrv? = some v ∧ v.index = s.srv ∧ 0 < v.sessionCount := by
  obtain ⟨v, hv, hx⟩ := hb.listed s hs
  have hpos : 0 < (g.sessionsOf v.index).length :=
    length_pos_of_mem (mem_sessionsOf.2 ⟨hs, hx.symm⟩)
  refine ⟨v, ?_, hx, by rw [(hb.services v hv).count]; exact hpos⟩
  unfold curSrv?
  rw [hc, Option.bind_some]
  cases hq : g.service? s.srv with
  | none =>
    have hno := find?_eq_none.1 hq v hv
    simp [hx] at hno
  | some w =>
    obtain ⟨hw, hwx⟩ := service?_eq_some hq
    rw [hb.eq_of_index hw hv (hwx.trans hx.symm)]

/-- The two ends of `open_session`. -/
inductive OpenSpec (P : Prop) (env : Env) (type : CallType) (cmd : SmcCmd) (caller : TaskId)
    (g : Globals) : TeeRet × SmcCmd × Globals → Prop where
  | refused {ret : TeeRet} {c : SmcCmd} {g' : Globals} (err : ret.isErr) (h : Refused P g g') :
    OpenSpec P env type cmd caller g (ret, c, g')
  | opened {c : SmcCmd} {h g' : Globals} {s : Session} (added : Added s g h)
    (cur : h.curSession = some s.ref) (curSrv : h.curService = some s.srv)
    (touch : Touch (h.allows P) h g') (shown : P → Shown g s) :
    OpenSpec P env type cmd caller g (.success, c, g')

/-- A task that is created is none of those that have a fixed part. -/
def KernelTask (env : Env) : Prop :=
  ∀ t, env.taskCreate = .ok t → t ≠ smcmgrPid ∧ t ≠ ⟨0, 0⟩

/-- A command of the normal world comes through its own task, a call from a task. -/
def CallerOk : CallType → TaskId → Prop
  | .nsToSecure, caller => caller = smcmgrPid
  | .secureToSecure, caller => caller ≠ ⟨0, 0⟩

theorem OpenedBy.shown (h : OpenedBy env type cmd caller g s)
    (hk : KernelTask env) (hc : CallerOk type caller) (hd : s.cmdIn.devFileId = cmd.devFileId) :
    Shown g s := by
  have hop := h.opener
  have hfrom := h.fromTask
  refine ⟨⟨(hk _ h.task).1, (hk _ h.task).2, ?_⟩, by rw [h.status]; nofun, fun r hr => ?_⟩
  · cases type with
    | nsToSecure =>
      rw [hop]
      exact ⟨hfrom.trans hc, hd⟩
    | secureToSecure =>
      rw [hop]
      exact hfrom
  · obtain ⟨rfl, hz | ⟨f, hf, href, htask⟩⟩ := h.father r hr
    · exact absurd hz hc
    · exact ⟨f, hf, href, by rw [hop, htask]; rfl⟩

theorem editCur_cur :
    (g.editCur f).curSession = g.curSession ∧ (g.editCur f).curService = g.curService := by
  unfold editCur
  split <;> exact ⟨rfl, rfl⟩

theorem checkSessionAccessible_isErr (h : checkSessionAccessible env v ≠ .success) :
    (checkSessionAccessible env v).isErr := by
  unfold checkSessionAccessible at h ⊢
  split_ifs at h ⊢
  · rfl
  · rfl
  · rfl
  · exact absurd rfl h

theorem countDown_countUp {n : Nat} : countDown (countUp n) = n := by
  by_cases h : n = 0xffffffff
  · rw [h]
    rfl
  · rw [countUp, if_neg h, countDown, if_neg (Nat.succ_ne_zero n), Nat.add_sub_cancel]

variable (hb : Good P g)
include hb

theorem Refused.refl : Refused P g g := ⟨.refl hb, rfl, .inr rfl⟩

theorem createSession_spec (hfresh : NewTask env g) :
    CreateSpec P env type cmd caller g (g.createSession env cmd type caller handleRefCnt) := by
  unfold createSession
  split
  · exact .refused rfl (refl hb).releaseSrvcGc
  · next level hlevel =>
    rcases addNewSessionIntoList_cases g env (openerOf type cmd caller) level with
      ⟨herr, heq⟩ | ⟨v, id, hv, hid, heq⟩
    · dsimp only
      rw [if_pos (ne_success_of_isErr herr), heq]
      exact .refused herr (refl hb).releaseSrvcGc
    · rw [heq]
      dsimp only
      rw [if_neg (by simp)]
      have hf : Fresh g v
          { ref := g.next, srv := v.index, opener := openerOf type cmd caller,
            sessionId := id, ta2taLevel := level } := ⟨hv, rfl, rfl, hid⟩
      split
      · exact .refused rfl (refused_createTaskFailGc hf hb)
      · next task htask =>
        rw [hf.cur? hb.toBooks rfl rfl, hf.curSrv?]
        exact .created (hf.added hb.toBooks (hfresh task htask) ⟨rfl, rfl, rfl, rfl⟩) rfl
          (curSrv?_eq_some hv).1 rfl ⟨rfl, rfl, htask, rfl, fun r hr => ta2taFather_link rfl hr⟩

/-- The first message could not be sent: the new session is released. -/
theorem refused_openSessionFailGc {h : Globals} (ha : Added s g h) (hshown : P → Shown g s)
    (hc : h.curSession = some s.ref) (hsrv : h.curService = some s.srv)
    (ht : Touch (h.allows P) h g') :
    Refused P g ((g'.openSessionFailGc env).2.createTaskFailGc handleRefCnt
      (g'.openSessionFailGc env).1) := by
  obtain ⟨t, hid, hsessions⟩ := ht.append ha.sessions hc (hb.forall_ne ha.ref)
  have hserved : Served P g g' := (ha.served hb hshown).bind fun hb => (ht.kept hb).toServed
  have hmem : t ∈ g'.sessions := hsessions ▸ mem_concat_self
  have hcur : g'.cur? = some t :=
    hserved.books.cur?_of_mem hmem (by rw [ht.cur, hc, ident_ref hid])
  have hcs : g'.curService = some t.srv := by rw [ht.curSrv, hsrv, ident_srv hid]
  obtain ⟨v, hv, hx, hpos⟩ := hserved.books.curSrv?_of_mem hmem hcs
  have hdel : g'.openSessionFailGc env = g'.uncount env v t := by
    unfold openSessionFailGc
    rw [hcur, hv]
    exact if_pos hpos
  rw [hdel]
  have hcur' : (g'.uncount env v t).2.cur? = some t := hcur
  have hcs' : (g'.uncount env v t).2.curService = some t.srv := hcs
  unfold createTaskFailGc
  rw [hcur', hcs']
  have hfree : delete Session.ref t.ref g'.sessions = g.sessions := by
    rw [hsessions]
    exact delete_append (fun u hu => ident_ref hid ▸ hb.forall_ne ha.ref u hu) rfl
  have hremoved : Removed t g' { (((g'.uncount env v t).2.editService t.srv fun v =>
      { v with sessionBitmap := clrBit v.sessionBitmap (t.sessionId - 1) }).releasePamNode
      t.pamNode).freeSession t.ref with curSession := none } := by
    refine ⟨hmem, rfl, ?_, rfl, Nat.le_refl _, rfl, ⟨_, append_assoc _ _ _, fun o ho => ?_⟩, ?_⟩
    · rw [← hx]
      exact congrArg (List.map ledger) edit_without
    · rcases mem_cons.1 ho with rfl | ho
      · trivial
      · exact notSend_release o ho
    · exact mem_append_left _ mem_concat_self
  have hdone := hserved.bind fun hb => (hremoved.kept hb).toServed
  refine releaseSrvcGc ⟨⟨hdone, fun u hu => ⟨u, ?_, rfl⟩⟩, hfree, .inl rfl⟩
  exact hfree ▸ hu

theorem openSession_spec {loadWorked : Bool} (hfresh : NewTask env g) (hc : g.curSession = none)
    (hk : P → KernelTask env ∧ CallerOk type caller)
    (hs : P → ∀ s msg, OpenedBy env type cmd caller g s → Out.allowed g.died (.send why s msg)) :
    OpenSpec P env type cmd caller g (g.openSession env why cmd type caller loadWorked) := by
  unfold openSession
  split
  · exact .refused rfl (.refl hb)
  · next v hv =>
    by_cases hret : checkSessionAccessible env v ≠ .success
    · rw [if_pos hret]
      have hgc {sre : SreRet} {b : Bool} : g.createTaskFailGc b sre = g.releaseSrvcGc b sre := by
        unfold createTaskFailGc cur?
        rw [hc]
        rfl
      rw [hgc]
      exact .refused (checkSessionAccessible_isErr hret) (refl hb).releaseSrvcGc
    · rw [if_neg hret]
      have hcreate : CreateSpec P env type cmd caller g (g.createSession env cmd type caller
          (checkHandleRefCnt type loadWorked v)) := createSession_spec hb hfresh
      generalize g.createSession env cmd type caller (checkHandleRefCnt type loadWorked v) =
        r at hcreate ⊢
      cases hcreate with
      | refused err h =>
        dsimp only
        rw [if_pos (ne_success_of_isErr err)]
        exact .refused err h
      | @created c h s ha hcur hsrv hdev hopen =>
        dsimp only
        rw [if_neg (by simp)]
        have hadd := ha.editCur (f := fun s => { s with cmdType := type, cmdIn := c }) hb.toBooks hcur
          ⟨rfl, rfl, rfl, rfl⟩
        have hkeep := editCur_cur (g := h) (f := fun s => { s with cmdType := type, cmdIn := c })
        generalize (h.editCur fun s => { s with cmdType := type, cmdIn := c }) = h' at hadd hkeep ⊢
        obtain ⟨hcur, hsrv⟩ : h'.curSession = some s.ref ∧ h'.curService = some s.srv :=
          hcur ▸ hsrv ▸ hkeep
        have hopened : OpenedBy env type cmd caller g { s with cmdType := type, cmdIn := c } :=
          { hopen with }
        have hshown (hp : P) : Shown g { s with cmdType := type, cmdIn := c } :=
          hopened.shown (hk hp).1 (hk hp).2 hdev
        have hmem := hadd.sessions ▸ mem_concat_self
        have hsession := (hadd.served hb hshown).books.cur?_of_mem hmem hcur
        have htouch : Touch (h'.allows P) h' (h'.asyncCallTaEntry env why c type .openSession).2 := by
          refine touch_asyncCallTaEntry allows_of_notSend fun t ht msg _ hp => ?_
          obtain rfl := Option.mem_unique ht hsession
          exact hadd.died ▸ hs hp _ msg hopened
        split_ifs with herr href
        · exact .refused herr (refused_openSessionFailGc hb hadd hshown hcur hsrv htouch)
        · rw [(asyncCallTaEntry_ret).resolve_right herr]
          exact .opened hadd hcur hsrv (htouch.trans (.editService fun _ => rfl)) hshown
        · rw [(asyncCallTaEntry_ret).resolve_right herr]
          exact .opened hadd hcur hsrv htouch hshown

theorem served_startInternalTask {uuid : Nat} (hfresh : NewTask env g) (hk : P → KernelTask env) :
    Served P g (g.startInternalTask env uuid) := by
  unfold startInternalTask
  split
  · exact .refl hb
  · next v₀ hv₀ =>
    have hcur : Kept P g { g with curService := some v₀.index } := Kept.setCurService (.refl hb) _
    refine hcur.toServed.bind fun hb => ?_
    generalize hg : { g with curService := some v₀.index } = g₁ at hb ⊢
    have hfresh : NewTask env g₁ := by rw [← hg]; exact hfresh
    have hc : g₁.curService = some v₀.index := by rw [← hg]
    rcases addNewSessionIntoList_cases g₁ env .gtask 0 with ⟨herr, heq⟩ | ⟨v, i, hv, hid, heq⟩
    · dsimp only
      rw [if_pos (ne_success_of_isErr herr), heq]
      exact .refl hb
    · obtain hx : v₀.index = v.index := Option.some.inj (hc.symm.trans (curSrv?_eq_some hv).1)
      have hf : Fresh g₁ v { ref := g₁.next, srv := v.index, opener := .gtask, sessionId := i,
                             ta2taLevel := 0 } := ⟨hv, rfl, rfl, hid⟩
      rw [heq, hx]
      dsimp only
      rw [if_neg (by simp), hf.cur? hb.toBooks rfl rfl]
      dsimp only
      split
      · next task htask =>
        refine (hf.added hb.toBooks (hfresh task htask) ⟨rfl, rfl, rfl, rfl⟩).served hb fun hp => ?_
        exact ⟨⟨(hk hp task htask).1, (hk hp task htask).2, rfl⟩, nofun, nofun⟩
      · obtain ⟨vs, hvs, hl⟩ := spawnThread_eq (g₁.link v _) env
        rw [hvs]
        refine Kept.toServed (Same.kept (.of_eq ?_ ?_ rfl (.of_notSend (Nat.le_succ _) rfl rfl
          notSend_release)) hb)
        · exact delete_append (hb.forall_ne hf.ref) rfl
        · refine .trans (map_edit_congr fun w => ?_) (.trans (ledger_edit
            (F := fun l => (l.1, l.2.1, clrBit l.2.2 (i - 1))) (fun _ => rfl) hl)
            (hf.ledger hb.toBooks))
          simp only [ledger, countDown_countUp]

end TeeOs.Gtask
