import TeeOs.Gtask.Params

/-!
# The session manager

Opening, invoking and closing a session, from `session_manager.c`. The functions
work on the session `g_cur_session` and the service `g_cur_service`, as the code
does; a pointer to a session that was freed finds nothing.
-/

namespace TeeOs.Gtask

open TeeOs.Lib Session

variable (env : Env)

def setBit (b : BitVec 32) (i : Nat) : BitVec 32 := b ||| 1#32 <<< (i % 32)

def clrBit (b : BitVec 32) (i : Nat) : BitVec 32 := b &&& ~~~(1#32 <<< (i % 32))

/-- `session_count--` on a `uint32_t`. -/
def countDown (n : Nat) : Nat := if n = 0 then 0xffffffff else n - 1

def countUp (n : Nat) : Nat := if n = 0xffffffff then 0 else n + 1

namespace Globals

variable (g : Globals)

def releasePamNode (node : Option PamNode) : Globals :=
  g.emit (node.toList.map fun n => .release n.ref)

/-- Unlink a session from the list of its service and from its caller's child list,
and free it. -/
def freeSession (r : Nat) : Globals := { g with sessions := Keyed.delete ref r g.sessions }

def processReleaseService (i : Nat) : Globals :=
  { g with services := Keyed.delete Service.index i g.services }

/-- `task_add_mem_region`: the regions belong to the current session, if there is
one. -/
def addMemRegions (regions : List Region) : Globals :=
  match g.curSession with
  | some r => g.editSession r fun s => { s with mapMem := s.mapMem ++ regions }
  | none => { g with memNs := g.memNs ++ regions }

variable (why : Cause) (s : Session) (cmd : SmcCmd) (type : CallType) (caller : TaskId)
  (task : TaskId)

/-- `operation_map_for_gt` for the current session: the new node replaces the one the
session has. -/
def mapForSession (ta2ta : Bool) : TeeRet × Globals :=
  let m := operationMapForGt env g.mbState cmd ta2ta false g.next
  let g := ({ g with next := g.next + 1 }.emit m.out).addMemRegions m.regions
  match m.result with
  | .error ret => (ret, g)
  | .ok (node, window) =>
    (.success, g.editCur fun s => { s with pamNode := some node, operAddr := some window })

/-- `cmd_ns_get_params` for the task of the current session. -/
def cmdNsGetParams : TeeRet × Globals :=
  if cmd.operation ≠ 0 then g.mapForSession env cmd false else (.success, g)

def cmdSecureGetParams (cmd : SmcCmd) : TeeRet × Globals :=
  if cmd.uid = task then (.success, g)
  else if cmd.operation ≠ 0 then g.mapForSession env cmd true
  else (.success, g)

def getParams (cmd : SmcCmd) : CallType → TeeRet × Globals
  | .nsToSecure => g.cmdNsGetParams env cmd
  | .secureToSecure => g.cmdSecureGetParams env task cmd

/-- `cmd_global_ns_get_params`: the node of a command gtask serves itself. -/
def cmdGlobalNsGetParams : TeeRet × Globals :=
  if cmd.operation = 0 then (.success, g)
  else
    let m := operationMapForGt env g.mbState cmd false true g.next
    let g := ({ g with next := g.next + 1 }.emit m.out).addMemRegions m.regions
    match m.result with
    | .error ret => (ret, g)
    | .ok (node, window) =>
      (.success, { g with gtPamNode := some node, gtOperAddr := some window })

/-- Send a message to the task of a session; if that is possible, the session waits
for its answer. -/
def sendTa (msg : TaMsg) : TeeRet × Globals :=
  if env.sent s.taskId then
    (.success, (g.emit [.send why s msg]).editSession s.ref fun s => { s with waitTaBackMsg := true })
  else (.generic, g)

/-- `call_ta_invoke_close_session` and the message it fills; a pending command is
resumed with an empty one. -/
def callTaInvokeCloseSession (msg : TaMsg) : TeeRet × TaMsg × Globals :=
  if cmd.retVal = .pending2 || cmd.retVal = .pending then (.success, msg.emptied, g)
  else
    let (ret, g) := g.getParams env s.taskId cmd type
    (ret, msg, g)

/-- The three calls of `async_call_ta_entry`. -/
inductive Entry where
  | openSession
  | invokeCmd
  | closeSession
  deriving DecidableEq, Repr

def entryMsg (v : Service) (cmd : SmcCmd) : Entry → TaMsg
  | .openSession => .openSession (v.sessionCount = 1)
  | .invokeCmd => .invokeCmd cmd.cmdId
  | .closeSession => .closeSession (v.sessionCount = 1 && !v.keepAlive)

def asyncCallTaEntry (entry : Entry) : TeeRet × Globals :=
  match g.cur?, g.curSrv? with
  | some s, some v =>
    if s.agentPending then (.busy, g)
    else if entry = .openSession && !v.initBuild then
      (g.editService v.index fun v => { v with initBuild := true }).sendTa env why s .openSessionInit
    else
      let (ret, msg, g) := g.callTaInvokeCloseSession env s cmd type (entryMsg v cmd entry)
      if ret ≠ .success then (ret, g) else g.sendTa env why s msg
  | _, _ => (.badParameters, g)

def startTaTask : TeeRet × Globals :=
  (g.editCur fun s => { s with cmdIn := cmd }).asyncCallTaEntry env why cmd type .invokeCmd

/-- `init_ta_service_session`, which `init_ta_context` calls. -/
def initTaContext : TeeRet × Globals :=
  match g.findService cmd.uuid cmd.serviceIndex with
  | none => (.serviceNotExist, g)
  | some v =>
    let found := g.findSessionWithDevFileId cmd.sessionId cmd.devFileId v.index
    let g := { g with curService := some v.index, curSession := found.map ref }
    if found.isNone && cmd.cmdType ≠ .global then (.sessionNotExist, g) else (.success, g)

/-- The walk of `ta2ta_call_back` up the callers of a task: none of them belongs to
the current service. -/
def ta2taCallBack : Nat → TaskId → Bool
  | 0, _ => false
  | n + 1, t =>
    match g.findTask t with
    | none => false
    | some s =>
      if g.curService = some s.srv then false
      else if s.ta2taLevel > 0 then ta2taCallBack n s.ta2taFromTaskid
      else true

def checkTa2taContext : TeeRet :=
  if !g.ta2taCallBack (g.sessions.length + 1) task then .generic
  else
    match g.cur? with
    | some s => if s.ta2taFromTaskid ≠ task then .sessionNotExist else .success
    | none => .success

/-- `init_ta2ta_context`, once the caller's command has been read: the command takes
the slot and the file of the caller's own command. -/
def initTa2taContext : TeeRet × SmcCmd × Globals :=
  let cmd := { cmd with uid := task }
  match g.findTask task with
  | none => (.generic, cmd, g)
  | some caller =>
    let cmd := { cmd with caPid := caller.cmdIn.caPid, eventNr := caller.cmdIn.eventNr,
                          devFileId := caller.cmdIn.devFileId }
    let (ret, g) := g.initTaContext cmd
    if ret ≠ .success then (ret, cmd, g)
    else
      let ret := g.checkTa2taContext task
      if ret ≠ .success then (ret, cmd, g)
      else (.success, cmd, g.editCur fun s => { s with cmdSet := true, cmdIn := cmd })

/-- `init_ta2ta_agent_context`: the answer of an agent may come in another slot, which
the session and its caller then take over. -/
def initTa2taAgentContext : TeeRet × Globals :=
  let (ret, g) := g.initTaContext cmd
  if ret ≠ .success then (ret, g)
  else
    match g.cur? with
    | none => (.success, g)
    | some s =>
      if !s.cmdSet then (.success, g)
      else if s.cmdIn.eventNr = cmd.eventNr then
        (.success, g.editCur fun s => { s with cmdIn := { s.cmdIn with retVal := cmd.retVal } })
      else
        match g.findTask s.ta2taFromTaskid with
        | none => (.generic, g)
        | some caller =>
          let take (c : SmcCmd) : SmcCmd := { c with eventNr := cmd.eventNr, caPid := cmd.caPid }
          let g := g.editSession caller.ref fun s => { s with cmdIn := take s.cmdIn }
          let g := g.editCur fun s => { s with cmdIn := take s.cmdIn }
          (.success, g.editCur fun s => { s with cmdIn := { s.cmdIn with retVal := cmd.retVal } })

def copyPamToSrc (cmdId : Nat) (ta2ta : Bool) : TeeRet × Globals :=
  match g.curSession with
  | none =>
    match g.gtPamNode, g.gtOperAddr with
    | some node, some oper =>
      let (ret, out) :=
        if !ta2ta && cmdId = loadSecureAppId then (.success, copyLoadBack env node oper)
        else copyParamsBackToRee env node oper
      (ret, { g.emit (out ++ [.copyBack node.ref oper, .release node.ref]) with
        gtPamNode := none, gtOperAddr := none })
    | _, _ => (.success, g)
  | some _ =>
    match g.cur?.bind pamNode, g.cur?.bind operAddr with
    | some node, some oper =>
      let (ret, out) := copyParamsBackToRee env node oper
      (ret, (g.emit (out ++ [.copyBack node.ref oper, .release node.ref])).editCur fun s =>
        { s with pamNode := none, operAddr := none })
    | _, _ => (.success, g)

def unmapNsOperation : Globals :=
  let keep (m : Region) : Bool := !(cmd.eventNr = m.eventNr && !m.ta2ta)
  match g.curSession with
  | some r => g.editSession r fun s => { s with mapMem := s.mapMem.filter keep }
  | none => { g with memNs := g.memNs.filter keep }

def unmapSecureOperation : Globals :=
  g.editCur fun s => { s with
    mapMem := s.mapMem.filter fun m => !(cmd.eventNr = m.eventNr && m.ta2ta)
    cmdSet := false }

def putLastOutCmd (owner : Owner) (cmd : SmcCmd) : Globals :=
  if cmd.eventNr ≥ maxSmcCmd then g
  else
    let g := if cmd.retVal ≠ .pending && cmd.retVal ≠ .pending2 then
        g.editCur fun s => { s with cmdIn := { s.cmdIn with caPid := 0 } }
      else g
    { g.emit [.put cmd (g.cmdDoing cmd.eventNr) owner] with
      cmdDoing := Function.update g.cmdDoing cmd.eventNr false }

def nsCmdResponse (owner : Owner) (cmd : SmcCmd) : Globals :=
  if cmd.retVal = .pending then g.putLastOutCmd owner cmd
  else
    let (ret, g) := g.copyPamToSrc env cmd.cmdId false
    let cmd := if ret ≠ .success then { cmd with retVal := ret } else cmd
    (g.unmapNsOperation cmd).putLastOutCmd owner { cmd with operation := 0 }

def sCmdResponse : Globals :=
  let (ret, g) := g.copyPamToSrc env cmd.cmdId true
  let ret := if ret ≠ .success then ret else cmd.retVal
  (g.unmapSecureOperation cmd).emit [.reply task (.ta2taRet ret)]

def gtCmdResponse : Globals :=
  match s.cmdType with
  | .nsToSecure => g.nsCmdResponse env (.session s.ref) cmd
  | .secureToSecure => g.sCmdResponse env cmd s.ta2taFromTaskid

/-- `release_srvc_gc`: a service nobody uses any more goes. -/
def releaseSrvcGc (handleRefCnt : Bool) (sre : SreRet) : Globals :=
  match g.curSrv? with
  | none => g
  | some v =>
    if v.buildIn then g
    else
      let refCnt := if handleRefCnt then v.refCnt - 1 else v.refCnt
      let g := g.editService v.index fun v => { v with refCnt }
      let gone : Bool := match sre with
        | .timeout => v.sessionCount = 0
        | _ => v.sessionCount = 0 && refCnt = 0 && (!v.keepAlive || v.firstOpen)
      if gone then { g.processReleaseService v.index with curService := none } else g

def createTaskFailGc (handleRefCnt : Bool) (sre : SreRet) : Globals :=
  match g.cur?, g.curService with
  | some s, some i =>
    let g := g.editService i fun v =>
      { v with sessionBitmap := clrBit v.sessionBitmap (s.sessionId - 1) }
    let g := (g.releasePamNode s.pamNode).freeSession s.ref
    { g with curSession := none }.releaseSrvcGc handleRefCnt sre
  | _, _ => g.releaseSrvcGc handleRefCnt sre

def sreTaskDeleteEx (dead : Bool) : SreRet × Globals :=
  (if dead then .succ else env.recycle task,
    { g.emit [.deleted task] with tasks := g.tasks.erase task })

def openSessionFailGc : SreRet × Globals :=
  match g.cur?, g.curSrv? with
  | some s, some v =>
    if v.sessionCount > 0 then
      (g.editService v.index fun v => { v with sessionCount := countDown v.sessionCount }).sreTaskDeleteEx
        env s.taskId false
    else (.succ, g)
  | _, _ => (.succ, g)

/-- `get_session_id`: the first id whose bit is clear. -/
def getSessionId (b : BitVec 32) : Option Nat :=
  ((List.range maxSessionId).find? fun i => !b.getLsbD i).map (· + 1)

def addNewSessionIntoList (opener : Principal) (level : Nat) : TeeRet × Globals :=
  match g.curSrv? with
  | none => (.generic, g)
  | some v =>
    match getSessionId v.sessionBitmap with
    | none => (.sessionMaximum, g)
    | some id =>
      if !env.memory then (.outOfMemory, g)
      else
        let s : Session := { ref := g.next, srv := v.index, opener, sessionId := id, ta2taLevel := level }
        let g := g.editService v.index fun v =>
          { v with sessionBitmap := setBit v.sessionBitmap (id - 1) }
        (.success, { g with sessions := g.sessions ++ [s], curSession := some s.ref, next := g.next + 1 })

def getTa2taLevel : Option Nat :=
  match type with
  | .nsToSecure => some 0
  | .secureToSecure =>
    match g.findTask task with
    | none => none
    | some s => if s.ta2taLevel ≥ maxTa2taLevel then none else some (s.ta2taLevel + 1)

/-- The session whose child list `add_session_to_ta2ta_list` links a new session in. -/
def ta2taFather : Option Nat :=
  match type with
  | .nsToSecure => none
  | .secureToSecure => (g.findTask caller).map ref

def openerOf (cmd : SmcCmd) (caller : TaskId) : Principal :=
  match type with
  | .nsToSecure => .normalWorld cmd.devFileId
  | .secureToSecure => .task caller

/-- The process of the current service may stay when no task could be made in it. -/
def spawnThread : Globals :=
  match g.curService, env.spawned with
  | some i, some pid => g.editService i fun v => { v with serviceThread := pid }
  | _, _ => g

def createSession (handleRefCnt : Bool) : TeeRet × SmcCmd × Globals :=
  match g.getTa2taLevel type caller with
  | none => (.generic, cmd, g.releaseSrvcGc handleRefCnt .succ)
  | some level =>
    let (ret, g) := g.addNewSessionIntoList env (openerOf type cmd caller) level
    if ret ≠ .success then (ret, cmd, g.releaseSrvcGc handleRefCnt .succ)
    else
      match env.taskCreate with
      | .error sre => (.generic, cmd, (g.spawnThread env).createTaskFailGc handleRefCnt sre)
      | .ok task =>
        match g.cur?, g.curSrv? with
        | some s, some v =>
          let father := g.ta2taFather type caller
          let g := g.editCur fun s =>
            { s with taskId := task, ta2taFromTaskid := caller, father, waitTaBackMsg := false }
          let g := g.editService v.index fun v =>
            { v with sessionCount := countUp v.sessionCount, serviceThread := task.pid }
          (.success, { cmd with context := setSessionContextBit v.index s.sessionId },
            { g with tasks := g.tasks ++ [task] })
        | _, _ => (.generic, cmd, g)

def checkSessionAccessible (v : Service) : TeeRet :=
  if v.system then .accessDenied
  else if !v.multiSession && v.sessionCount > 0 then
    if env.cancelable then .busy else .accessConflict
  else .success

def checkHandleRefCnt (loadWorked : Bool) (v : Service) : Bool :=
  !((type = .secureToSecure && !loadWorked) || v.buildIn)

def openSession (loadWorked : Bool) : TeeRet × SmcCmd × Globals :=
  match g.curSrv? with
  | none => (.badParameters, cmd, g)
  | some v =>
    let handleRefCnt := checkHandleRefCnt type loadWorked v
    let ret := checkSessionAccessible env v
    if ret ≠ .success then (ret, cmd, g.createTaskFailGc handleRefCnt .succ)
    else
      let (ret, cmd, g) := g.createSession env cmd type caller handleRefCnt
      if ret ≠ .success then (ret, cmd, g)
      else
        let g := g.editCur fun s => { s with cmdType := type, cmdIn := cmd }
        let (ret, g) := g.asyncCallTaEntry env why cmd type .openSession
        if ret.isErr then
          let (sre, g) := g.openSessionFailGc env
          (ret, cmd, g.createTaskFailGc handleRefCnt sre)
        else if handleRefCnt then
          (ret, cmd, g.editService v.index fun v => { v with refCnt := v.refCnt - 1 })
        else (ret, cmd, g)

/-- `release_session`. The locks on agents that it gives back are not part of this
state. -/
def releaseSession (i r : Nat) : SreRet × Globals :=
  match g.service? i, g.session? r with
  | some v, some s =>
    let g := g.editService i fun v => { v with sessionCount := countDown v.sessionCount }
    let (sre, g) := g.sreTaskDeleteEx env s.taskId v.isServiceDead
    let g := g.releasePamNode s.pamNode
    let g := g.editService i fun v =>
      { v with sessionBitmap := clrBit v.sessionBitmap (s.sessionId - 1) }
    (sre, g.freeSession r)
  | _, _ => (.normalFail, g)

/-- What becomes of a service after a session of it has gone: `fresh` is whether a
service that is kept alive may go too. -/
def retireService (i : Nat) (sre : SreRet) (fresh : Bool) : Globals :=
  match g.service? i with
  | none => g
  | some v =>
    let restart := g.editService i fun v => { v with initBuild := false, serviceThread := 0 }
    match sre with
    | .timeout =>
      if v.sessionCount = 0 then
        if !v.buildIn then g.processReleaseService i else restart
      else g
    | _ =>
      if v.sessionCount = 0 && v.refCnt = 0 then
        if !v.buildIn then
          if !v.keepAlive || (fresh && v.firstOpen) then g.processReleaseService i else g
        else if !v.keepAlive then restart
        else g
      else g

def processCloseSessionEntry (i r : Nat) : Globals :=
  let (sre, g) := g.releaseSession env i r
  g.retireService i sre false

/-- The session the next round of `process_close_ta2ta_target_sessions` closes. -/
def targetSession (from_ : TaskId) : Option Session :=
  g.services.findSome? fun v =>
    if v.isServiceDead then none
    else (g.sessionsOf v.index).find? (·.ta2taFromTaskid = from_)

/-- `process_close_ta2ta_target_sessions`: each round closes one session, after the
sessions that one opened. `n` bounds the rounds. -/
def processCloseTa2taTargetSessions : Nat → TaskId → Nat → Globals → Globals
  | 0, _, _, g => g
  | n + 1, from_, level, g =>
    match g.targetSession from_ with
    | none => g
    | some s =>
      let g := if level < maxTa2taLevel then
          processCloseTa2taTargetSessions n s.taskId (level + 1) g
        else g
      processCloseTa2taTargetSessions n from_ level (g.processCloseSessionEntry env s.srv s.ref)

def processCloseSession : Globals :=
  match g.cur?, g.curService with
  | some s, some i =>
    let g := processCloseTa2taTargetSessions env g.sessions.length s.taskId s.ta2taLevel g
    let g := g.processCloseSessionEntry env i s.ref
    { g with curSession := none, curService := (g.service? i).map Service.index }
  | _, _ => g

def processOpenSessionError : Globals :=
  match g.cur?, g.curSrv? with
  | some s, some v =>
    let g := g.releasePamNode s.pamNode
    let g := g.editService v.index fun v => { v with sessionCount := countDown v.sessionCount }
    let (sre, g) := g.sreTaskDeleteEx env s.taskId false
    let g := g.editService v.index fun v =>
      { v with sessionBitmap := clrBit v.sessionBitmap (s.sessionId - 1) }
    let g := { g.freeSession s.ref with curSession := none }
    let g := g.retireService v.index sre true
    { g with curService := (g.service? v.index).map Service.index }
  | _, _ => g

def processOpenSession : TeeRet × Globals :=
  match g.cur?, g.curSrv? with
  | some s, some v =>
    let (ret, g) := g.getParams env s.taskId cmd type
    if ret ≠ .success then (.generic, g.processOpenSessionError env)
    else g.sendTa env .opening s (.openSession (v.sessionCount = 1))
  | _, _ => (.sessionNotExist, g)

/-- `process_init_session`: whether a non-standard property was sent. -/
def processInitSession : Bool × Globals :=
  match g.cur?, g.curSrv? with
  | some s, some v =>
    if v.hasProp then
      let (ret, g) := g.sendTa env .opening s .openSessionProp
      (ret = .success, g)
    else (false, g)
  | _, _ => (false, g)

/-- `close_session`, with whether the answer is given at once. -/
def closeSession : TeeRet × Bool × Globals :=
  match g.curSrv? with
  | none => (.badParameters, false, g)
  | some v =>
    if v.isGtask then (.success, true, g)
    else
      match g.cur? with
      | none => (.sessionNotExist, false, g)
      | some s =>
        if s.sessionId = 0 || s.sessionId > maxSessionId then (.sessionNotExist, false, g)
        else
          let g := g.editCur fun s => { s with cmdIn := cmd }
          let (ret, g) := g.asyncCallTaEntry env why cmd type .closeSession
          (ret, false, g)

/-- `close_session_async`, for a session whose caller has died. -/
def closeSessionAsync : TeeRet × Globals :=
  match g.findServiceByTaskId s.taskId with
  | none => (.serviceNotExist, g)
  | some v =>
    let cmd := { s.cmdIn with operation := 0 }
    let g := { g with curService := some v.index, curSession := some s.ref }
    (g.editCur fun s => { s with cmdIn := cmd }).asyncCallTaEntry env .fatherDead cmd s.cmdType
      .closeSession

/-- `start_internal_task`: the one session of a service of the system. -/
def startInternalTask (uuid : Nat) : Globals :=
  match g.findService uuid 0 with
  | none => g
  | some v =>
    let (ret, g) := { g with curService := some v.index }.addNewSessionIntoList env .gtask 0
    if ret ≠ .success then g
    else
      match g.cur? with
      | none => g
      | some s =>
        match env.taskCreate with
        | .ok task =>
          let g := g.editService v.index fun v =>
            { v with sessionCount := countUp v.sessionCount, serviceThread := task.pid }
          let g := g.editCur fun s => { s with taskId := task, cmdType := .secureToSecure }
          { g with tasks := g.tasks ++ [task] }
        | .error _ =>
          -- the counter goes up and, in `create_internal_task_fail`, down again
          let g := (g.spawnThread env).editService v.index fun v =>
            { v with sessionCount := countDown (countUp v.sessionCount),
                     sessionBitmap := clrBit v.sessionBitmap (s.sessionId - 1) }
          { (g.releasePamNode s.pamNode).freeSession s.ref with curSession := none }

end Globals

end TeeOs.Gtask
