import TeeOs.Gtask.Session

/-!
# The end of a TA

When a TA crashes or is killed its service is marked dead and its sessions are
released, from `tee_task_exception.c`. A session that waits for an agent is released
when the agent has answered, one that has opened sessions of other TAs when these
have been closed.
-/

namespace TeeOs.Gtask

open TeeOs.Lib

namespace Globals

variable (env : Env) (g : Globals)

variable (s : Session)

/-- `ta_exception_response`: the caller learns that the TA is dead. -/
def taExceptionResponse : Globals :=
  let cmd := { s.cmdIn with retVal := .targetDead }
  let g := g.editSession s.ref fun s => { s with cmdIn := { s.cmdIn with retVal := .targetDead } }
  match s.cmdType with
  | .nsToSecure => g.putLastOutCmd (.session s.ref) cmd
  | .secureToSecure => g.emit [.reply s.ta2taFromTaskid (.ta2taRet .targetDead)]

/-- The first half of `release_cur_session`: answer the command, release the session. -/
def answerAndRelease : SreRet × Globals :=
  (if s.waitTaBackMsg then g.taExceptionResponse s else g).releaseSession env s.srv s.ref

/-- `release_service`. A service of the system is loaded again afterwards, which is a
step of its own here. -/
def releaseService (i : Nat) : Globals := g.processReleaseService i

/-- Release a service all of whose sessions have gone. -/
def releaseServiceIfEmpty (i : Nat) : Globals :=
  match g.service? i with
  | some v => if v.sessionCount = 0 then g.releaseService i else g
  | none => g

/-- `try_release_dead_father`: the session that waited for its last child is released,
and so on up its callers. `n` bounds the way up. -/
def tryReleaseDeadFather : Nat → TaskId → Globals → Globals
  | 0, _, g => g
  | n + 1, task, g =>
    match g.findTaskDead task with
    | none => g
    | some s =>
      if s.sessionStatus ≠ .selfDead || (g.children s.ref).length > 0 then g
      else
        let (sre, g) := g.answerAndRelease env s
        if sre ≠ .succ then g
        else
          let g := if s.ta2taFromTaskid ≠ smcmgrPid then
              tryReleaseDeadFather n s.ta2taFromTaskid g
            else g
          g.releaseServiceIfEmpty s.srv

def releaseCurSession : Globals :=
  let (sre, g) := g.answerAndRelease env s
  if sre ≠ .succ then g
  else if s.ta2taFromTaskid ≠ smcmgrPid then
    tryReleaseDeadFather env g.sessions.length s.ta2taFromTaskid g
  else g

/-- One round of `close_child_session`. -/
def closeChild (r : Nat) : Globals :=
  match g.session? r with
  | none => g
  | some s =>
    let g := g.editSession r fun s => { s with sessionStatus := .fatherDead }
    if s.waitTaBackMsg then g
    else (g.closeSessionAsync env { s with sessionStatus := .fatherDead }).2

/-- `close_child_session`: sessions that are running are waited for. -/
def closeChildSession : Globals :=
  ((g.children s.ref).map Session.ref).foldl (fun g r => g.closeChild env r) g

def tryReleaseSession (r : Nat) : Globals :=
  match g.session? r with
  | none => g
  | some s =>
    let g := { g.editSession r fun s => { s with sessionStatus := .selfDead } with
      died := s.taskId :: g.died }
    if s.agentPending then g
    else if (g.children r).length = 0 then
      g.releaseCurSession env { s with sessionStatus := .selfDead }
    else g.closeChildSession env { s with sessionStatus := .selfDead }

def tryReleaseExceptionSrv (i : Nat) : Globals :=
  let g := g.editService i fun v => { v with serviceThread := 0, isServiceDead := true }
  let g := ((g.sessionsOf i).map Session.ref).foldl (fun g r => g.tryReleaseSession env r) g
  g.releaseServiceIfEmpty i

/-- `ta_exception_handle_ack`: the answer of a session whose caller has died. -/
def taExceptionHandleAck (status : SessionStatus) (task father : TaskId) : Globals :=
  match status with
  | .normal | .selfDead => g
  | .fatherDead =>
    match g.findTask task with
    | some s => (g.closeSessionAsync env s).2
    | none => tryReleaseDeadFather env g.sessions.length father g

/-- `process_ta_agent_ack`: the agent a dead session waited for has answered. -/
def processTaAgentAck : Globals :=
  if s.sessionStatus ≠ .selfDead then g
  else
    ((g.editSession s.ref fun s => { s with agentPending := false }).tryReleaseSession
      env s.ref).releaseServiceIfEmpty s.srv

def taExceptionHandleBuildinAgentAck (task : TaskId) : Globals :=
  match g.findTaskDead task with
  | some s => g.processTaAgentAck env s
  | none => g

def taExceptionHandleAgentAck (cmd : SmcCmd) : TeeRet × Globals :=
  match g.findServiceDead cmd.uuid cmd.serviceIndex with
  | none => (.serviceNotExist, g)
  | some v =>
    match g.findSessionWithDevFileId cmd.sessionId cmd.devFileId v.index with
    | none => (.sessionNotExist, g)
    | some s => (.success, g.processTaAgentAck env s)

/-- `find_block_child_session`: the running session at the end of a chain of calls. -/
def findBlockChildSession : Nat → Nat → Option Session
  | 0, _ => none
  | n + 1, r =>
    match (g.children r).find? Session.waitTaBackMsg with
    | none => none
    | some child => (findBlockChildSession n child.ref).or (some child)

def processKillTask (v : Service) (s : Session) : Globals :=
  if v.isGtask || v.internal || s.agentPending || !s.waitTaBackMsg then g
  else
    match g.findBlockChildSession g.sessions.length s.ref with
    | none => g.tryReleaseExceptionSrv env v.index
    | some child =>
      match g.findServiceByTaskId child.taskId with
      | none => g
      | some blocked => g.tryReleaseExceptionSrv env blocked.index

def handleKillTask (cmd : SmcCmd) : Globals :=
  match (g.findService cmd.uuid cmd.serviceIndex).or
      (g.findServiceDead cmd.uuid cmd.serviceIndex) with
  | none => g
  | some v =>
    match g.findSessionWithDevFileId cmd.sessionId cmd.devFileId v.index with
    | none => g
    | some s => g.processKillTask env v s

/-- `process_task_crash`, for a message of the system's own task. -/
def processTaskCrash (task : TaskId) : Globals :=
  match g.findServiceByTaskId task with
  | none => g
  | some v => if v.isGtask then g else g.tryReleaseExceptionSrv env v.index

end Globals

end TeeOs.Gtask
