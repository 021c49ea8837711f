import TeeOs.Gtask.Dispatch

/-!
# What the functions on the current session leave alone

Serving a command changes the parameters, the saved command and the flags of the
current session and little else: each function of the session manager that neither opens
nor releases a session is a `Touch`.
-/

namespace TeeOs.Gtask

open TeeOs.Lib List Globals Session

/-- What a session keeps from its opening to its release. -/
def Session.ident (s : Session) : Session :=
  { s with agentPending := false, cmdSet := false, cmdIn := { devFileId := s.cmdIn.devFileId },
           operAddr := none, pamNode := none, mapMem := [], waitTaBackMsg := false,
           sessionStatus := .normal }

/-- What a session keeps while its caller and its TA live. -/
def Session.frame (s : Session) : Session := { s.ident with sessionStatus := s.sessionStatus }

/-- What a service keeps while no session of it is opened or released. -/
def Service.book (v : Service) : Service :=
  { v with refCnt := 0, initBuild := false, serviceThread := 0, firstOpen := true }

/-- Accesses to memory, and the end of a parameter node. -/
@[simp] def Out.isAccess : Out → Prop
  | mailbox _ _ | share _ _ _ | copyBack _ _ | release _ => True
  | put _ _ _ | send _ _ _ | reply _ _ | deleted _ => False

/-- Everything but a message to a session. -/
def Out.notSend : Out → Prop
  | send _ _ _ => False
  | _ => True

theorem Out.isAccess.notSend {o : Out} (h : o.isAccess) : o.notSend := by
  cases o <;> trivial

variable {O : Out → Prop} {g g' g'' : Globals} {env : Env} {cmd : SmcCmd} {s s' : Session}
  {type : CallType} {why : Cause} {owner : Owner} {f : Session → Session}

/-- From `g` to `g'` at most the current session changes, keeps what it was opened
with, and all that is recorded meets `O`. -/
structure Touch (O : Out → Prop) (g g' : Globals) : Prop where
  cur : g'.curSession = g.curSession
  curSrv : g'.curService = g.curService
  sessions : ∃ f, g'.sessions = g.sessions.map f ∧
    ∀ s ∈ g.sessions, (f s).frame = s.frame ∧ (g.curSession ≠ some s.ref → f s = s)
  services : g'.services.map Service.book = g.services.map Service.book
  tasks : g'.tasks = g.tasks
  died : g'.died = g.died
  next : g.next ≤ g'.next
  out : ∃ l, g'.out = g.out ++ l ∧ ∀ o ∈ l, O o

theorem ident_ref (h : s.ident = s'.ident) : s.ref = s'.ref := by
  have hr := congrArg ref h
  exact hr

theorem ident_of_frame (h : s.frame = s'.frame) : s.ident = s'.ident := by
  have hi := congrArg ident h
  exact hi

theorem status_of_frame (h : s.frame = s'.frame) : s.sessionStatus = s'.sessionStatus := by
  have hi := congrArg sessionStatus h
  exact hi

/-- Sessions, services and tasks, whatever is current and recorded. -/
def Globals.core (g : Globals) := (g.sessions, g.services, g.tasks, g.died)

namespace Touch

section

variable (cur : g'.curSession = g.curSession) (curSrv : g'.curService = g.curService)
  (core : g'.core = g.core) (next : g.next ≤ g'.next)
include cur curSrv core next

/-- A step that changes neither the sessions nor the books of the services. -/
theorem of_eq (out : ∃ l, g'.out = g.out ++ l ∧ ∀ o ∈ l, O o) : Touch O g g' := by
  simp only [Globals.core, Prod.mk.injEq] at core
  obtain ⟨sessions, services, tasks, died⟩ := core
  refine ⟨cur, curSrv, ⟨id, ?_, fun _ _ => ⟨rfl, fun _ => rfl⟩⟩, ?_, tasks, died, next, out⟩
  · rw [sessions, map_id]
  · rw [services]

/-- A step that records nothing. -/
theorem of_quiet (out : g'.out = g.out) : Touch O g g' :=
  of_eq cur curSrv core next ⟨[], by rw [out, append_nil], fun _ h => nomatch h⟩

end

theorem refl : Touch O g g := of_quiet rfl rfl rfl (Nat.le_refl _) rfl

theorem trans (h : Touch O g g') (h' : Touch O g' g'') : Touch O g g'' := by
  obtain ⟨f, hf, hs⟩ := h.sessions
  obtain ⟨f', hf', hs'⟩ := h'.sessions
  obtain ⟨l, hl, ho⟩ := h.out
  obtain ⟨l', hl', ho'⟩ := h'.out
  refine ⟨h'.cur.trans h.cur, h'.curSrv.trans h.curSrv, ⟨f' ∘ f, ?_, fun s hm => ?_⟩,
    h'.services.trans h.services, h'.tasks.trans h.tasks, h'.died.trans h.died,
    Nat.le_trans h.next h'.next, ⟨l ++ l', ?_, fun o hm => ?_⟩⟩
  · rw [hf', hf, map_map]
  · obtain ⟨hi, hk⟩ := hs s hm
    obtain ⟨hi', hk'⟩ := hs' (f s) (hf ▸ mem_map_of_mem hm)
    refine ⟨hi'.trans hi, fun hne => ?_⟩
    rw [Function.comp_apply, hk' (by rw [h.cur, ident_ref (ident_of_frame hi)]; exact hne), hk hne]
  · rw [hl', hl, append_assoc]
  · exact (mem_append.1 hm).elim (ho o) (ho' o)

theorem emit {os : List Out} (h : ∀ o ∈ os, O o) : Touch O g (g.emit os) :=
  of_eq rfl rfl rfl (Nat.le_refl _) ⟨os, rfl, h⟩

theorem editSession {r : Nat} (hr : g.curSession = some r)
    (hf : ∀ s ∈ g.sessions, s.ref = r → (f s).frame = s.frame) : Touch O g (g.editSession r f) where
  cur := rfl
  curSrv := rfl
  sessions := by
    refine ⟨fun s => if s.ref = r then f s else s, rfl, fun s hs => ?_⟩
    by_cases hk : s.ref = r
    · simp only [if_pos hk]
      exact ⟨hf s hs hk, fun hne => absurd (hr.trans (congrArg some hk.symm)) hne⟩
    · simp only [if_neg hk, implies_true, and_self]
  services := rfl
  tasks := rfl
  died := rfl
  next := Nat.le_refl _
  out := ⟨[], (append_nil _).symm, fun _ h => nomatch h⟩

theorem editCur (hf : ∀ s ∈ g.sessions, g.curSession = some s.ref → (f s).frame = s.frame) :
    Touch O g (g.editCur f) := by
  unfold Globals.editCur
  cases hc : g.curSession with
  | none => exact refl
  | some r => exact editSession hc fun s hs hr => hf s hs (hc.trans (congrArg some hr.symm))

theorem editService {i : Nat} {f : Service → Service} (hf : ∀ v, (f v).book = v.book) :
    Touch O g (g.editService i f) where
  cur := rfl
  curSrv := rfl
  sessions := ⟨id, (map_id _).symm, fun _ _ => ⟨rfl, fun _ => rfl⟩⟩
  services := Keyed.map_edit fun v _ _ => hf v
  tasks := rfl
  died := rfl
  next := Nat.le_refl _
  out := ⟨[], (append_nil _).symm, fun _ h => nomatch h⟩

end Touch

theorem pointed_eq_some {α : Type} {key : α → Nat} {o : Option Nat} {l : List α} {a : α}
    (h : (o.bind fun k => l.find? fun b => key b = k) = some a) : o = some (key a) ∧ a ∈ l := by
  obtain ⟨k, rfl, hk⟩ := Option.bind_eq_some_iff.1 h
  have hkey := find?_some hk
  exact ⟨congrArg some (of_decide_eq_true hkey).symm, mem_of_find?_eq_some hk⟩

theorem cur?_eq_some (h : g.cur? = some s) : g.curSession = some s.ref ∧ s ∈ g.sessions :=
  pointed_eq_some h

theorem curSrv?_eq_some {v : Service} (h : g.curSrv? = some v) :
    g.curService = some v.index ∧ v ∈ g.services := pointed_eq_some h

section Accesses

variable {mb : Option Mailbox} {ta2ta global : Bool} {ps : List Param} {node : PamNode}
  {oper : Window}

theorem setParamsForTa_access {i : Nat} {p : Param} :
    ∀ o ∈ (setParamsForTa env mb cmd ta2ta global i p).out, o.isAccess := by
  unfold setParamsForTa paramsMapForTaMemref
  cases p.type <;> dsimp only <;> (try split_ifs) <;> simp

theorem setAllParams_access :
    ∀ {i : Nat}, ∀ o ∈ (setAllParams env mb cmd ta2ta global i ps).out, o.isAccess := by
  induction ps with
  | nil => intro i o ho; cases ho
  | cons p ps ih =>
    intro i o ho
    unfold setAllParams at ho
    cases hm : (setParamsForTa env mb cmd ta2ta global i p).result with
    | error ret =>
      simp only [hm] at ho
      exact setParamsForTa_access o ho
    | ok w =>
      simp only [hm] at ho
      exact (mem_append.1 ho).elim (setParamsForTa_access o) (ih o)

theorem mapCmdToOperation_access : ∀ o ∈ (mapCmdToOperation env mb cmd ta2ta).out, o.isAccess := by
  unfold mapCmdToOperation
  cases env.taOperation cmd.uid cmd.operation <;> (dsimp only; split_ifs <;> simp)

theorem operationMapForGt_access {ref : Nat} :
    ∀ o ∈ (operationMapForGt env mb cmd ta2ta global ref).out, o.isAccess := by
  have hm : ∀ o ∈ (mapCmdToOperation env mb cmd ta2ta).out, o.isAccess := mapCmdToOperation_access
  unfold operationMapForGt
  intro o ho
  dsimp only at ho
  cases hr : (mapCmdToOperation env mb cmd ta2ta).result with
  | error ret => rw [hr] at ho; exact hm o ho
  | ok w =>
    have hp : ∀ o ∈ (setAllParams env mb cmd ta2ta global 0 w.1).out, o.isAccess :=
      setAllParams_access
    rw [hr] at ho
    dsimp only at ho
    split_ifs at ho
    · exact hm o ho
    · rcases mem_append.1 ho with ho | ho
      · exact hm o ho
      · rw [mem_singleton.1 ho]; trivial
    · cases hq : (setAllParams env mb cmd ta2ta global 0 w.1).result with
      | error ret =>
        rw [hq] at ho
        simp only [mem_append, mem_singleton] at ho
        rcases ho with (ho | ho) | rfl
        · exact hm o ho
        · exact hp o ho
        · trivial
      | ok ree =>
        rw [hq] at ho
        exact (mem_append.1 ho).elim (hm o) (hp o)

theorem touch_bytes {w : Window} {n : Nat} : ∀ o ∈ w.touch n, o.isAccess := by
  cases w <;> simp [Window.touch]

theorem copyToSrc_access {w : Option Window} {m n : Nat} :
    ∀ o ∈ (copyToSrc w m n).2, o.isAccess := by
  unfold copyToSrc
  cases w with
  | none => simp
  | some w =>
    split_ifs
    all_goals first | exact touch_bytes | simp

theorem copyBackLoop_access :
    ∀ {ws : List (Option Window)} {ret : TeeRet}, ∀ o ∈ (copyBackLoop env ret ps ws).2,
      o.isAccess := by
  induction ps with
  | nil => intro ws ret o ho; cases ho
  | cons p ps ih =>
    intro ws ret o ho
    cases ws with
    | nil => cases ho
    | cons w ws =>
      unfold copyBackLoop at ho
      dsimp only at ho
      split_ifs at ho
      · exact ih o ho
      · cases ho
      · exact ih o ho
      · exact copyToSrc_access o ho
      · exact (mem_append.1 ho).elim (copyToSrc_access o) (ih o)

theorem copyParamsBackToRee_access :
    ∀ o ∈ (copyParamsBackToRee env node oper).2, o.isAccess := fun o ho =>
  (mem_append.1 ho).elim (touch_bytes o) (copyBackLoop_access o)

theorem copyLoadBack_access : ∀ o ∈ copyLoadBack env node oper, o.isAccess := by
  intro o ho
  rcases mem_append.1 ho with ho | ho
  · exact touch_bytes o ho
  · split at ho
    · split_ifs at ho
      · exact copyToSrc_access o ho
      · cases ho
    · cases ho

end Accesses

section Functions

variable (hO : ∀ o : Out, o.notSend → O o) {ta2ta : Bool} {msg : TaMsg} {entry : Globals.Entry}
  {task : TaskId}

theorem touch_addMemRegions {regions : List Region} : Touch O g (g.addMemRegions regions) := by
  unfold addMemRegions
  split
  · next r hc => exact .editSession hc fun _ _ _ => rfl
  · exact .of_quiet rfl rfl rfl (Nat.le_refl _) rfl

include hO in
/-- Where a node is made and what was mapped for it is recorded. -/
theorem touch_mapped {mb : Option Mailbox} {global : Bool} {ref : Nat} :
    Touch O g (({ g with next := g.next + 1 }.emit
      (operationMapForGt env mb cmd ta2ta global ref).out).addMemRegions
      (operationMapForGt env mb cmd ta2ta global ref).regions) := by
  have hnext : Touch O g { g with next := g.next + 1 } :=
    .of_quiet rfl rfl rfl (Nat.le_succ _) rfl
  refine (hnext.trans (.emit fun o ho => ?_)).trans touch_addMemRegions
  exact hO o (operationMapForGt_access o ho).notSend

include hO in
theorem touch_mapForSession : Touch O g (g.mapForSession env cmd ta2ta).2 := by
  unfold mapForSession
  dsimp only
  cases (operationMapForGt env g.mbState cmd ta2ta false g.next).result with
  | error ret => exact touch_mapped hO
  | ok w => exact (touch_mapped hO).trans (.editCur fun _ _ _ => rfl)

include hO in
theorem touch_getParams : Touch O g (g.getParams env task cmd type).2 := by
  unfold getParams cmdNsGetParams cmdSecureGetParams
  cases type <;> dsimp only <;> split_ifs <;> first | exact .refl | exact touch_mapForSession hO

include hO in
theorem touch_cmdGlobalNsGetParams : Touch O g (g.cmdGlobalNsGetParams env cmd).2 := by
  unfold cmdGlobalNsGetParams
  split_ifs
  · exact .refl
  · dsimp only
    cases (operationMapForGt env g.mbState cmd false true g.next).result with
    | error ret => exact touch_mapped hO
    | ok w =>
      exact (touch_mapped hO).trans (.of_quiet rfl rfl rfl (Nat.le_refl _) rfl)

theorem touch_sendTa (hc : g.curSession = some s.ref) (hs : O (.send why s msg)) :
    Touch O g (g.sendTa env why s msg).2 := by
  unfold sendTa
  split_ifs
  · have he : Touch O g (g.emit [.send why s msg]) := .emit fun o ho => by
      rw [mem_singleton.1 ho]; exact hs
    exact he.trans (.editSession hc fun _ _ _ => rfl)
  · exact .refl

/-- A command with such a return code resumes the session; it carries no call. -/
def SmcCmd.isResume (cmd : SmcCmd) : Bool := cmd.retVal = .pending2 || cmd.retVal = .pending

theorem callTaInvokeCloseSession_msg (h : cmd.isResume) :
    (g.callTaInvokeCloseSession env s cmd type msg).2.1.resumes := by
  unfold callTaInvokeCloseSession
  unfold SmcCmd.isResume at h
  rw [if_pos h]
  cases msg <;> rfl

include hO in
theorem touch_callTaInvokeCloseSession :
    Touch O g (g.callTaInvokeCloseSession env s cmd type msg).2.2 := by
  unfold callTaInvokeCloseSession
  split_ifs
  · exact .refl
  · exact touch_getParams hO

include hO in
theorem touch_asyncCallTaEntry
    (hs : ∀ s, g.cur? = some s → ∀ msg, (cmd.isResume → entry ≠ .openSession → msg.resumes) →
      O (.send why s msg)) : Touch O g (g.asyncCallTaEntry env why cmd type entry).2 := by
  unfold asyncCallTaEntry
  split
  · next s v hcur hsrv =>
    have hc := (cur?_eq_some hcur).1
    split_ifs with hp hopen
    · exact .refl
    · have hb : Touch O g (g.editService v.index fun v => { v with initBuild := true }) :=
        .editService fun _ => rfl
      refine hb.trans (touch_sendTa hc (hs s hcur _ fun _ hne => absurd ?_ hne))
      exact of_decide_eq_true (Bool.and_eq_true_iff.1 hopen).1
    · have hg : Touch O g (g.callTaInvokeCloseSession env s cmd type (entryMsg v cmd entry)).2.2 :=
        touch_callTaInvokeCloseSession hO
      dsimp only
      split_ifs
      · exact hg
      · exact hg.trans (touch_sendTa (hg.cur.trans hc) (hs s hcur _ fun hr _ =>
          callTaInvokeCloseSession_msg hr))
  · exact .refl

theorem cur?_editCur (hf : ∀ s, (f s).ref = s.ref) : (g.editCur f).cur? = g.cur?.map f := by
  unfold Globals.editCur cur? session?
  cases hc : g.curSession with
  | none => simp only [hc, Option.bind_none, Option.map_none]
  | some r => simpa only [editSession, hc, Option.bind_some] using Keyed.find?_edit hf

include hO in
theorem touch_copyPamToSrc {cmdId : Nat} : Touch O g (g.copyPamToSrc env cmdId ta2ta).2 := by
  have hend (node : PamNode) (oper : Window) :
      ∀ o ∈ [Out.copyBack node.ref oper, Out.release node.ref], o.isAccess := by simp
  unfold copyPamToSrc
  split
  · split
    · next node oper _ _ =>
      refine Touch.trans (.emit fun o ho => hO o (Out.isAccess.notSend ?_))
        (.of_quiet rfl rfl rfl (Nat.le_refl _) rfl)
      rcases mem_append.1 ho with ho | ho
      · split_ifs at ho
        · exact copyLoadBack_access o ho
        · exact copyParamsBackToRee_access o ho
      · exact hend node oper o ho
    · exact .refl
  · split
    · next node oper _ _ =>
      refine Touch.trans (.emit fun o ho => hO o (Out.isAccess.notSend ?_))
        (.editCur fun _ _ _ => rfl)
      exact (mem_append.1 ho).elim (copyParamsBackToRee_access o) (hend node oper o)
    · exact .refl

theorem touch_unmapNsOperation : Touch O g (g.unmapNsOperation cmd) := by
  unfold unmapNsOperation
  split
  · next r hc => exact .editSession hc fun _ _ _ => rfl
  · exact .of_quiet rfl rfl rfl (Nat.le_refl _) rfl

theorem touch_unmapSecureOperation : Touch O g (g.unmapSecureOperation cmd) :=
  .editCur fun _ _ _ => rfl

include hO in
theorem touch_putLastOutCmd : Touch O g (g.putLastOutCmd owner cmd) := by
  have hclear : Touch O g (g.editCur fun s => { s with cmdIn := { s.cmdIn with caPid := 0 } }) :=
    .editCur fun _ _ _ => rfl
  have hput (h : Globals) : Touch O h
      { h.emit [.put cmd (h.cmdDoing cmd.eventNr) owner] with
        cmdDoing := Function.update h.cmdDoing cmd.eventNr false } :=
    .of_eq rfl rfl rfl (Nat.le_refl _)
      ⟨_, rfl, fun o ho => hO o (by rw [mem_singleton.1 ho]; trivial)⟩
  unfold putLastOutCmd
  split_ifs
  · exact .refl
  · exact hclear.trans (hput _)
  · exact hput g

include hO in
theorem touch_nsCmdResponse : Touch O g (g.nsCmdResponse env owner cmd) := by
  unfold nsCmdResponse
  split_ifs
  · exact touch_putLastOutCmd hO
  · exact ((touch_copyPamToSrc hO).trans touch_unmapNsOperation).trans (touch_putLastOutCmd hO)

include hO in
theorem touch_sCmdResponse : Touch O g (g.sCmdResponse env cmd task) := by
  unfold sCmdResponse
  dsimp only
  refine ((touch_copyPamToSrc hO).trans touch_unmapSecureOperation).trans (.emit fun o ho => ?_)
  rw [mem_singleton.1 ho]
  exact hO _ trivial

include hO in
theorem touch_gtCmdResponse : Touch O g (g.gtCmdResponse env s cmd) := by
  unfold gtCmdResponse
  cases s.cmdType with
  | nsToSecure => exact touch_nsCmdResponse hO
  | secureToSecure => exact touch_sCmdResponse hO

theorem touch_processInitSession (hs : ∀ s, g.cur? = some s → ∀ msg, O (.send .opening s msg)) :
    Touch O g (g.processInitSession env).2 := by
  unfold processInitSession
  split
  · next s v hcur hsrv =>
    split_ifs
    · exact touch_sendTa (cur?_eq_some hcur).1 (hs s hcur _)
    · exact .refl
  · exact .refl

variable (hdev : ∀ s ∈ g.sessions, g.curSession = some s.ref → cmd.devFileId = s.cmdIn.devFileId)
  (hs : ∀ s, g.cur? = some s → ∀ msg, (cmd.isResume → msg.resumes) →
    O (.send why { s with cmdIn := cmd } msg))
include hO hdev hs

/-- The command is saved in the session and its TA is called. -/
theorem touch_saveAndCall (hne : entry ≠ .openSession) : Touch O g
    ((g.editCur fun s => { s with cmdIn := cmd }).asyncCallTaEntry env why cmd type entry).2 := by
  have he : Touch O g (g.editCur fun s => { s with cmdIn := cmd }) := .editCur fun s hm hc => by
    simp only [frame, ident, hdev s hm hc]
  refine he.trans (touch_asyncCallTaEntry hO fun s hcur msg hr => ?_)
  rw [cur?_editCur (by intro; rfl)] at hcur
  obtain ⟨s₀, h₀, rfl⟩ := Option.map_eq_some_iff.1 hcur
  exact hs s₀ h₀ msg fun h => hr h hne

theorem touch_startTaTask : Touch O g (g.startTaTask env why cmd type).2 :=
  touch_saveAndCall hO hdev hs nofun

theorem touch_closeSession : Touch O g (g.closeSession env why cmd type).2.2 := by
  unfold closeSession
  split
  · exact .refl
  split_ifs
  · exact .refl
  · split
    · exact .refl
    · split_ifs
      · exact .refl
      · exact touch_saveAndCall hO hdev hs nofun

end Functions

end TeeOs.Gtask
