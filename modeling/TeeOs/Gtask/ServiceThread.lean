import TeeOs.Gtask.Frame

/-!
# The service thread

A service that serves an agent of the normal world may ask for that agent on behalf of
a caller that has no session, such as another service. No slot belongs to such a
request: it goes out in the slot of the last `SET_SERVE_CMD`, one request at a time,
and the others wait in `g_svc_thread_ctrl`. `Thread` is what of the state of gtask
takes part in this, and `thread_gtaskStep` says how a round of the main loop moves it.
-/

namespace TeeOs.Gtask

open TeeOs.Lib Globals

/-- The slot and the agent of a request of the service thread. -/
def Out.serviceRequest? : Out → Option (Nat × Nat)
  | put cmd _ .serviceThread => some (cmd.eventNr, cmd.agentId)
  | _ => none

/-- `g_svc_thread_ctrl`, the table of the agents, and the requests put out in this
round. -/
structure Thread where
  slot : Nat
  working : Bool
  pending : List Nat
  agents : List BuildinAgent
  puts : List (Nat × Nat)

def Globals.thread (g : Globals) : Thread :=
  ⟨g.svcCmd.eventNr, g.svcWorking, g.svcPending, g.agents, g.out.filterMap Out.serviceRequest?⟩

/-- What can happen to the service thread. -/
inductive ThreadEvent where
  /-- A request by the service with that task, for a caller without a session. -/
  | request (task : TaskId) (agentId : Nat)
  /-- A request by that service for a session, which goes out in the slot of that. -/
  | inSession (task : TaskId)
  | setServeCmd (slot : Nat)
  | response (slot agentId : Nat)
  | callerInfo (task caller : TaskId)

namespace Thread

variable (t : Thread)

def editAgent (task : TaskId) (pending : Bool) : Thread :=
  { t with agents := Keyed.edit BuildinAgent.taskId task (fun a => { a with pending }) t.agents }

def put (agentId : Nat) : Thread :=
  if t.slot ≥ maxSmcCmd then t else { t with puts := t.puts ++ [(t.slot, agentId)] }

def dequeue (slot : Nat) : Thread :=
  if slot ≠ t.slot then t
  else
    match t.pending with
    | [] => { t with working := false }
    | agentId :: rest => { t with pending := rest }.put agentId

def step : ThreadEvent → Thread
  | .request task agentId =>
    if t.working then { t with pending := t.pending ++ [agentId] }.editAgent task true
    else ({ t with working := true }.editAgent task true).put agentId
  | .inSession task => t.editAgent task true
  | .setServeCmd slot => { t with slot }
  | .response slot agentId =>
    match t.agents.find? (·.agentId = agentId) with
    | none => t
    | some a => if !a.pending then t else (t.editAgent a.taskId false).dequeue slot
  | .callerInfo task caller =>
    { t with agents := Keyed.edit BuildinAgent.taskId task (fun a => { a with caller }) t.agents }

end Thread

/-- The events that are about service agents: their requests, for whom they work, the
responses of their agents, and `SET_SERVE_CMD`. -/
def Event.serviceTraffic : Event → Bool
  | .nsCmd cmd => cmd.cmdType = .buildinAgent || (cmd.cmdType = .global && cmd.cmdId = setServeCmdId)
  | .taMsg _ _ ret _ => ret = .pending2
  | .agentRequest _ _ | .setCallerInfo _ _ => true
  | _ => false

namespace Globals

variable (g : Globals)

/-- `get_last_in_cmd` takes the command from its slot. -/
def takes (cmd : SmcCmd) : Bool := cmd.eventNr < maxSmcCmd && !g.cmdDoing cmd.eventNr

/-- `check_ns_cmd` and `init_ta_context` let a global command pass. -/
def admits (cmd : SmcCmd) : Bool :=
  checkCmdInMailboxRange g.mbState cmd = .success &&
    (g.findService cmd.uuid cmd.serviceIndex).isSome

/-- What a request of a task for an agent is for the service thread. -/
def requestEvent (task : TaskId) (agentId : Nat) : Option ThreadEvent :=
  match g.findTask task, g.agentOf task with
  | some _, some a => some (if (g.findTask a.caller).isSome then .inSession a.taskId
      else .request a.taskId agentId)
  | _, _ => none

/-- What an event is for the service thread. -/
def threadEvent : Event → Option ThreadEvent
  | .nsCmd cmd =>
    if !g.takes cmd then none
    else if cmd.cmdType = .buildinAgent then some (.response cmd.eventNr cmd.agentId)
    else if g.admits cmd then some (.setServeCmd cmd.eventNr)
    else none
  | .taMsg task _ _ agentId | .agentRequest task agentId => g.requestEvent task agentId
  | .setCallerInfo task caller => (g.agentOf task).map fun a => .callerInfo a.taskId caller
  | _ => none

end Globals

variable {g g' : Globals} {env : Env} {cmd : SmcCmd} {s : Session} {owner : Owner}
  {type : CallType} {why : Cause}

theorem serviceRequest?_access {os : List Out} (h : ∀ o ∈ os, o.isAccess) :
    os.filterMap Out.serviceRequest? = [] := by
  rw [List.filterMap_eq_nil_iff]
  intro o ho
  have ha := h o ho
  cases o with
  | put cmd doing owner => exact ha.elim
  | _ => rfl

section Frame

theorem thread_emit (g : Globals) (os : List Out) (h : os.filterMap Out.serviceRequest? = []) :
    (g.emit os).thread = g.thread := by
  unfold emit thread
  rw [List.filterMap_append, h, List.append_nil]

variable {r i : Nat} {task : TaskId} {f : Session → Session}

theorem thread_editSession : (g.editSession r f).thread = g.thread := rfl

theorem thread_editService {f : Service → Service} :
    (g.editService i f).thread = g.thread := rfl

theorem thread_editCur : (g.editCur f).thread = g.thread := by
  unfold editCur
  split <;> rfl

theorem thread_releasePamNode {node : Option PamNode} :
    (g.releasePamNode node).thread = g.thread := by
  apply thread_emit
  cases node <;> rfl

theorem thread_freeSession : (g.freeSession r).thread = g.thread := rfl

/-- Putting out anything but a request of the service thread. -/
theorem thread_putLastOutCmd (h : owner ≠ .serviceThread) :
    (g.putLastOutCmd owner cmd).thread = g.thread := by
  have hput (g : Globals) (doing : Bool) : (g.emit [.put cmd doing owner]).thread = g.thread := by
    apply thread_emit
    cases owner with
    | serviceThread => exact absurd rfl h
    | _ => rfl
  unfold putLastOutCmd
  split_ifs
  · rfl
  · exact (hput _ _).trans thread_editCur
  · exact hput g (g.cmdDoing cmd.eventNr)

theorem thread_sreTaskDeleteEx {dead : Bool} :
    (g.sreTaskDeleteEx env task dead).2.thread = g.thread :=
  thread_emit g [.deleted task] rfl

theorem thread_releaseSession : (g.releaseSession env i r).2.thread = g.thread := by
  unfold releaseSession
  split
  · simp only [thread_freeSession, thread_editService, thread_releasePamNode,
      thread_sreTaskDeleteEx]
  · rfl

theorem thread_taExceptionResponse : (g.taExceptionResponse s).thread = g.thread := by
  unfold taExceptionResponse
  cases s.cmdType with
  | nsToSecure => exact thread_putLastOutCmd nofun
  | secureToSecure => exact thread_emit _ _ rfl

theorem thread_answerAndRelease : (g.answerAndRelease env s).2.thread = g.thread := by
  unfold answerAndRelease
  rw [thread_releaseSession]
  split
  · exact thread_taExceptionResponse
  · rfl

theorem thread_releaseServiceIfEmpty : (g.releaseServiceIfEmpty i).thread = g.thread := by
  unfold releaseServiceIfEmpty
  split
  · split <;> rfl
  · rfl

theorem thread_tryReleaseDeadFather (n : Nat) :
    (Globals.tryReleaseDeadFather env n task g).thread = g.thread := by
  induction n generalizing task g with
  | zero => rfl
  | succ n ih =>
    unfold tryReleaseDeadFather
    split
    · rfl
    · dsimp only
      split_ifs
      · rfl
      · exact thread_answerAndRelease
      · rw [thread_releaseServiceIfEmpty, ih, thread_answerAndRelease]
      · rw [thread_releaseServiceIfEmpty, thread_answerAndRelease]

theorem thread_releaseCurSession : (g.releaseCurSession env s).thread = g.thread := by
  unfold releaseCurSession
  dsimp only
  split_ifs
  · exact thread_answerAndRelease
  · rw [thread_tryReleaseDeadFather, thread_answerAndRelease]
  · exact thread_answerAndRelease

theorem thread_addMemRegions {regions : List Region} :
    (g.addMemRegions regions).thread = g.thread := by
  unfold addMemRegions
  split <;> rfl

theorem thread_mapForSession {ta2ta : Bool} :
    (g.mapForSession env cmd ta2ta).2.thread = g.thread := by
  have hmap : (({ g with next := g.next + 1 }.emit
      (operationMapForGt env g.mbState cmd ta2ta false g.next).out).addMemRegions
      (operationMapForGt env g.mbState cmd ta2ta false g.next).regions).thread = g.thread := by
    rw [thread_addMemRegions]
    exact thread_emit _ _ (serviceRequest?_access operationMapForGt_access)
  unfold mapForSession
  dsimp only
  split
  · exact hmap
  · exact thread_editCur.trans hmap

theorem thread_getParams : (g.getParams env task cmd type).2.thread = g.thread := by
  unfold getParams cmdNsGetParams cmdSecureGetParams
  cases type <;> dsimp only <;> split_ifs <;> first | rfl | exact thread_mapForSession

theorem thread_sendTa {msg : TaMsg} : (g.sendTa env why s msg).2.thread = g.thread := by
  unfold sendTa
  split
  · exact thread_emit g [.send why s msg] rfl
  · rfl

theorem thread_callTaInvokeCloseSession {msg : TaMsg} :
    (g.callTaInvokeCloseSession env s cmd type msg).2.2.thread = g.thread := by
  unfold callTaInvokeCloseSession
  split
  · rfl
  · exact thread_getParams

theorem thread_asyncCallTaEntry {entry : Globals.Entry} :
    (g.asyncCallTaEntry env why cmd type entry).2.thread = g.thread := by
  unfold asyncCallTaEntry
  split
  · dsimp only
    split_ifs
    · rfl
    · exact thread_sendTa
    · exact thread_callTaInvokeCloseSession
    · exact thread_sendTa.trans thread_callTaInvokeCloseSession
  · rfl

theorem thread_closeSessionAsync : (g.closeSessionAsync env s).2.thread = g.thread := by
  unfold closeSessionAsync
  split
  · rfl
  · rw [thread_asyncCallTaEntry, thread_editCur]
    rfl

theorem thread_closeChild : (g.closeChild env r).thread = g.thread := by
  unfold closeChild
  split
  · rfl
  · split
    · rfl
    · exact thread_closeSessionAsync

theorem thread_closeChildSession : (g.closeChildSession env s).thread = g.thread := by
  unfold closeChildSession
  generalize (g.children s.ref).map Session.ref = rs
  induction rs generalizing g with
  | nil => rfl
  | cons r rs ih => exact ih.trans thread_closeChild

theorem thread_tryReleaseSession : (g.tryReleaseSession env r).thread = g.thread := by
  unfold tryReleaseSession
  split
  · rfl
  · dsimp only
    split_ifs
    · rfl
    · exact thread_releaseCurSession
    · exact thread_closeChildSession

theorem thread_taExceptionHandleBuildinAgentAck :
    (g.taExceptionHandleBuildinAgentAck env task).thread = g.thread := by
  unfold taExceptionHandleBuildinAgentAck processTaAgentAck
  split
  · split
    · rfl
    · rw [thread_releaseServiceIfEmpty, thread_tryReleaseSession, thread_editSession]
  · rfl

end Frame

/-! ### One round of the main loop -/

variable {task : TaskId} {agentId : Nat}

theorem thread_editAgent {pending : Bool} :
    (g.editAgent task pending).thread = g.thread.editAgent task pending := rfl

theorem thread_putServiceRequest {type : CmdType} :
    (g.putAgentRequestCmd .serviceThread g.svcCmd type agentId).thread = g.thread.put agentId := by
  change (if g.svcCmd.eventNr ≥ maxSmcCmd then g else _).thread =
    if g.svcCmd.eventNr ≥ maxSmcCmd then g.thread else _
  split
  · rfl
  · unfold thread emit
    simp [Out.serviceRequest?, List.filterMap_append]

theorem thread_dequeue :
    (g.serviceThreadRequestDequeue cmd).thread = g.thread.dequeue cmd.eventNr := by
  unfold serviceThreadRequestDequeue Thread.dequeue
  change _ = if cmd.eventNr ≠ g.svcCmd.eventNr then g.thread else
    match g.svcPending with
    | [] => { g.thread with working := false }
    | agentId :: rest => { g.thread with pending := rest }.put agentId
  split
  · rfl
  · cases hp : g.svcPending with
    | nil => simp only [thread, hp]
    | cons agentId rest => exact thread_putServiceRequest

theorem thread_handleServiceAgentBackCmd : (g.handleServiceAgentBackCmd env cmd).thread =
      g.thread.step (.response cmd.eventNr cmd.agentId) := by
  unfold handleServiceAgentBackCmd Thread.step
  change _ = match g.agents.find? (·.agentId = cmd.agentId) with
    | none => g.thread
    | some a => if !a.pending then g.thread
      else (g.thread.editAgent a.taskId false).dequeue cmd.eventNr
  cases g.agents.find? (·.agentId = cmd.agentId) with
  | none => rfl
  | some a =>
    dsimp only
    split
    · rfl
    rw [thread_dequeue]
    congr 1
    have hreply : ((g.emit [.reply a.taskId .ack]).editAgent a.taskId false).thread =
        g.thread.editAgent a.taskId false := by
      rw [thread_editAgent, thread_emit g _ rfl]
    split
    · exact hreply
    · split
      · exact thread_taExceptionHandleBuildinAgentAck.trans hreply
      · exact hreply

theorem thread_handleServiceAgentRequest {caller : TaskId} :
    (g.handleServiceAgentRequest task caller agentId).thread =
      g.thread.step (if (g.findTask caller).isSome then .inSession task
        else .request task agentId) := by
  unfold handleServiceAgentRequest
  cases g.findTask caller with
  | some s => exact thread_putLastOutCmd nofun
  | none =>
    change _ = if g.svcWorking then _ else _
    dsimp only
    split
    · rfl
    · exact thread_putServiceRequest

theorem thread_handleTaAgentRequest : (g.handleTaAgentRequest env s agentId).thread = g.thread := by
  unfold handleTaAgentRequest
  split
  · exact thread_putLastOutCmd nofun
  · exact thread_emit g _ rfl

/-- The state at the start of a round, in which nothing has been put out. -/
def Thread.fresh (t : Thread) : Thread := { t with puts := [] }

/-- What an event that may concern the service thread does to it. -/
def Thread.after (t : Thread) : Option ThreadEvent → Thread
  | none => t
  | some e => t.step e

theorem dispatchNsCmd_setServeCmd (hglobal : cmd.cmdType = .global)
    (hserve : cmd.cmdId = setServeCmdId) : g.dispatchNsCmd env cmd = { g with svcCmd := cmd } := by
  have hopen : cmd.cmdId ≠ openSessionId := by rw [hserve]; decide
  have hclose : cmd.cmdId ≠ closeSessionId := by rw [hserve]; decide
  unfold dispatchNsCmd dispatchNsGlobalCmd
  simp only [if_pos hglobal, if_neg hopen, if_neg hclose, if_pos hserve, if_true]

theorem thread_checkAndDispatchNsCmd (hglobal : cmd.cmdType = .global)
    (hserve : cmd.cmdId = setServeCmdId) :
    (g.checkAndDispatchNsCmd env cmd).thread =
      if g.admits cmd then g.thread.step (.setServeCmd cmd.eventNr) else g.thread := by
  unfold checkAndDispatchNsCmd initTaContext admits
  by_cases hbox : checkCmdInMailboxRange g.mbState cmd = .success
  · cases hfind : g.findService cmd.uuid cmd.serviceIndex with
    | none => simp [hbox, thread_putLastOutCmd]
    | some v =>
      simp only [hbox, hglobal, dispatchNsCmd_setServeCmd hglobal hserve, ne_eq, not_true_eq_false,
        decide_false, decide_true, Bool.and_false, Bool.false_eq_true, if_false, if_true,
        Option.isSome_some, Bool.and_self]
      rfl
  · simp [hbox, thread_putLastOutCmd]

theorem thread_handleNsCmd (h : (Event.nsCmd cmd).serviceTraffic = true) :
    (g.handleNsCmd env cmd).thread = g.thread.after (g.threadEvent (.nsCmd cmd)) := by
  have hkind : cmd.cmdType = .buildinAgent ∨ cmd.cmdType = .global ∧ cmd.cmdId = setServeCmdId := by
    simpa [Event.serviceTraffic] using h
  have habort : isAbortCmd cmd = false := by
    unfold isAbortCmd
    rcases hkind with hb | ⟨hg, hs⟩
    · rw [hb]; rfl
    · rw [hg, hs]; rfl
  have hguard : (cmd.eventNr ≥ maxSmcCmd || (g.cmdDoing cmd.eventNr && !isAbortCmd cmd)) =
      !g.takes cmd := by
    simp [habort, takes, ← decide_not]
  unfold handleNsCmd threadEvent
  dsimp only
  rw [hguard, habort]
  cases g.takes cmd with
  | false => rfl
  | true =>
    rcases hkind with hb | ⟨hg, hs⟩
    · simp only [hb, Bool.not_true, Bool.false_eq_true, if_false, if_true]
      exact thread_handleServiceAgentBackCmd
    · simp only [hg, Bool.not_true, Bool.false_eq_true, if_false, reduceCtorEq]
      rw [thread_checkAndDispatchNsCmd hg hs]
      change (if g.admits cmd then _ else _) = _
      split <;> rfl

theorem thread_handleAgentRequest : (g.handleAgentRequest env task agentId).thread =
      g.thread.after (g.requestEvent task agentId) := by
  unfold handleAgentRequest requestEvent
  cases g.findTask task with
  | none => rfl
  | some s =>
    cases g.agentOf task with
    | none => exact thread_handleTaAgentRequest
    | some a => exact thread_handleServiceAgentRequest

theorem thread_handleMsgFromTa (back : BackCmd) :
    (g.handleMsgFromTa env task back .pending2 agentId).thread =
      g.thread.after (g.requestEvent task agentId) := by
  unfold handleMsgFromTa
  cases hf : g.findTask task with
  | none =>
    unfold requestEvent
    rw [hf]
    rfl
  | some s => exact thread_handleAgentRequest

/-- How a round of the main loop moves the service thread. -/
theorem thread_gtaskStep {e : Event} (h : e.serviceTraffic = true) :
    (gtaskStep g (env, e)).thread = g.thread.fresh.after (g.threadEvent e) := by
  cases e with
  | nsCmd cmd => exact thread_handleNsCmd h
  | taMsg task back ret agentId =>
    cases of_decide_eq_true h
    exact thread_handleMsgFromTa back
  | agentRequest task agentId => exact thread_handleAgentRequest
  | setCallerInfo task caller =>
    unfold gtaskStep Globals.step threadEvent
    dsimp only
    cases g.agentOf task <;> rfl
  | _ => cases h

end TeeOs.Gtask
