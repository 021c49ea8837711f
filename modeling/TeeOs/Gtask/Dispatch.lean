import TeeOs.Gtask.Exception

/-!
# The main loop of gtask

One step of `gtask_main`: a command of the normal world is taken from its slot, or a
message of a task is served. Whatever the normal world and the tasks choose is part
of the event.
-/

namespace TeeOs.Gtask

open TeeOs.Lib

/-- The part of its work a TA says it answers. -/
inductive BackCmd where
  | invokeCmd
  | closeSession
  | openSessionInit
  | openSessionProp
  | openSession
  | unknown
  deriving DecidableEq, Repr

inductive Event where
  /-- A command the normal world has put in the slot `eventNr`. -/
  | nsCmd (cmd : SmcCmd)
  /-- A message of a TA about the command it was given. -/
  | taMsg (task : TaskId) (back : BackCmd) (ret : TeeRet) (agentId : Nat)
  /-- A TA2TA call; the command could be read from the caller's memory or not. -/
  | ta2ta (task : TaskId) (cmd : Option SmcCmd) (loadWorked : Bool)
  | agentRequest (task : TaskId) (agentId : Nat)
  | setCallerInfo (task caller : TaskId)
  /-- The permission service answers about an image. -/
  | registerElf
  | taskCrash (task : TaskId) (permService : Bool)
  | registerService (uuid index : Nat) (v : Service)
  | startInternalTask (uuid : Nat)

namespace Globals

variable (env : Env) (g : Globals)

def putAgentRequestCmd (owner : Owner) (cmd : SmcCmd) (type : CmdType) (agentId : Nat) : Globals :=
  g.putLastOutCmd owner { cmd with retVal := .pending2, agentId, cmdType := type }

variable (s : Session) (cmd : SmcCmd) (task : TaskId) (agentId : Nat) (ret : TeeRet)

def editAgent (pending : Bool) : Globals :=
  { g with agents := Keyed.edit BuildinAgent.taskId task (fun a => { a with pending }) g.agents }

/-- `service_thread_request_dequeue`, and the request it takes. -/
def serviceThreadRequestDequeue : Globals :=
  if cmd.eventNr ≠ g.svcCmd.eventNr then g
  else
    match g.svcPending with
    | [] => { g with svcWorking := false }
    | agentId :: rest =>
      { g with svcPending := rest }.putAgentRequestCmd .serviceThread g.svcCmd .buildinAgent agentId

def handleServiceAgentBackCmd : Globals :=
  match g.agents.find? (·.agentId = cmd.agentId) with
  | none => g
  | some a =>
    if !a.pending then g
    else
      let g := (g.emit [.reply a.taskId .ack]).editAgent a.taskId false
      let g := match g.findTask a.caller with
        | some s => g.editSession s.ref fun s => { s with agentPending := false }
        | none =>
          if (g.findServiceByTaskId a.caller).isNone then
            g.taExceptionHandleBuildinAgentAck env a.caller
          else g
      g.serviceThreadRequestDequeue cmd

/-- `handle_service_agent_request`, by the service with task `agentTask`. -/
def handleServiceAgentRequest (agentTask caller : TaskId) (agentId : Nat) : Globals :=
  match g.findTask caller with
  | some s =>
    let g := g.editSession s.ref fun s => { s with agentPending := true }
    (g.editAgent agentTask true).putAgentRequestCmd (.session s.ref) s.cmdIn .buildinAgent agentId
  | none =>
    if g.svcWorking then
      { g with svcPending := g.svcPending ++ [agentId] }.editAgent agentTask true
    else
      ({ g with svcWorking := true }.editAgent agentTask true).putAgentRequestCmd .serviceThread
        g.svcCmd .buildinAgent agentId

def handleTaAgentRequest : Globals :=
  if env.agentHeld then
    let type := match s.cmdType with
      | .secureToSecure => CmdType.ta2taAgent
      | .nsToSecure => CmdType.taAgent
    (g.editSession s.ref fun s => { s with agentPending := true }).putAgentRequestCmd
      (.session s.ref) s.cmdIn type agentId
  else g.emit [.reply s.taskId .ack]

/-- `find_task_by_taskid` among the agents: processes are compared. -/
def agentOf : Option BuildinAgent := g.agents.find? (·.taskId.pid = task.pid)

/-- `handle_agent_request` with `TEE_TASK_AGENT_SMC_CMD`. -/
def handleAgentRequest : Globals :=
  match g.findTask task with
  | none => g
  | some s =>
    match g.agentOf task with
    | some a => g.handleServiceAgentRequest a.taskId a.caller agentId
    | none => g.handleTaAgentRequest env s agentId

/-- The end of `handle_ta_agent_back_cmd` when the response is not the one a session
waits for. -/
def agentBackError : Globals :=
  g.nsCmdResponse env .command { cmd with retVal := ret }

/-- `handle_ta_agent_back_cmd` once the service and the session were looked up. -/
def resumeAgent (type : CallType) : Globals :=
  match g.cur? with
  | none => g.agentBackError env cmd .success
  | some s =>
    if !s.agentPending then g.agentBackError env cmd .success
    else
      let g := g.editCur fun s => { s with agentPending := false }
      let cmd := { cmd with cmdType := s.cmdIn.cmdType, agentId := 0 }
      let (ret, g) := g.startTaTask env (.agent cmd.devFileId) cmd type
      if ret ≠ .success then g.agentBackError env cmd ret else g

def handleTaAgentBackCmd : Globals :=
  let (type, ret, g) :=
    if cmd.cmdType = .ta2taAgent then (CallType.secureToSecure, g.initTa2taAgentContext cmd)
    else (CallType.nsToSecure, g.initTaContext cmd)
  if ret = .success then g.resumeAgent env cmd type
  else
    let (ack, g) :=
      if ret = .serviceNotExist then g.taExceptionHandleAgentAck env cmd else (ret, g)
    if ack = .success then g else g.agentBackError env cmd ret

/-- `age_service`, which a load command runs first. -/
def ageService : Globals :=
  { g with services := g.services.filter fun v =>
      !(!v.isServiceDead && !v.buildIn && v.sessionCount = 0 && (!v.keepAlive || v.firstOpen) &&
        env.aged v) }

/-- `process_load_image`: the image is handed over for verification, or answered. -/
def processLoadImage : TeeRet × Bool × Globals :=
  let (ret, g) := (g.ageService env).cmdGlobalNsGetParams env cmd
  if ret ≠ .success then (.generic, false, g)
  else if env.loadAsync then (.success, true, { g with loadCmd := cmd, elfLoading := true })
  else (env.globalRet, false, g)

def registerMailbox : TeeRet × Globals :=
  if g.mbState.isSome then (.accessDenied, g)
  else
    let (ret, g) := g.cmdGlobalNsGetParams env cmd
    if ret ≠ .success then (.generic, g)
    else
      match env.mailbox with
      | none => (.badParameters, g)
      | some m => if m.start > addrMax - m.size then (.badParameters, g)
        else (.success, { g with mbState := some m })

/-- The global commands gtask serves at once. -/
def nsSyncCmdTable : List Nat :=
  [needLoadAppId, 0x6, 0x7, registerMailboxId, 0x8, 0xf, 0x12, 0x1a, 0x25, 0x20, 0x22]

def dispatchNsSyncCmd : TeeRet × Globals :=
  if !nsSyncCmdTable.contains cmd.cmdId then (.invalidCmd, g)
  else if cmd.cmdId = registerMailboxId then g.registerMailbox env cmd
  else if !env.readsParams then (env.globalRet, g)
  else
    let (ret, g) := g.cmdGlobalNsGetParams env cmd
    if ret ≠ .success then (.generic, g)
    else if cmd.cmdId = needLoadAppId then
      match env.needLoad with
      | none => (env.globalRet, g)
      | some i => (env.globalRet, g.editService i fun v => { v with refCnt := v.refCnt + 1 })
    else (env.globalRet, g)

/-- `dispatch_ns_cmd` up to the answer: the result, the command, and whether it is
answered later. -/
def dispatchNsGlobalCmd : TeeRet × SmcCmd × Bool × Globals :=
  let why := .normalWorld cmd.devFileId
  if cmd.cmdId = openSessionId then
    let (ret, cmd, g) := g.openSession env why cmd .nsToSecure smcmgrPid false
    (ret, cmd, ret = .success, g)
  else if cmd.cmdId = closeSessionId then
    let (ret, sync, g) := g.closeSession env why cmd .nsToSecure
    (ret, cmd, ret = .success && !sync, g)
  else if cmd.cmdId = setServeCmdId then (.success, cmd, true, { g with svcCmd := cmd })
  else if cmd.cmdId = loadSecureAppId then
    let (ret, async, g) := g.processLoadImage env cmd
    (ret, cmd, async, g)
  else
    let (ret, g) := g.dispatchNsSyncCmd env cmd
    (ret, cmd, false, g)

def dispatchNsCmd : Globals :=
  let (ret, cmd, async, g) :=
    if cmd.cmdType = .global then g.dispatchNsGlobalCmd env cmd
    else
      let (ret, g) := g.startTaTask env (.normalWorld cmd.devFileId) cmd .nsToSecure
      (ret, cmd, ret = .success, g)
  if async then g else g.nsCmdResponse env .command { cmd with retVal := ret }

/-- `check_ns_cmd` and what follows it in `handle_ns_cmd`. -/
def checkAndDispatchNsCmd : Globals :=
  let ret := checkCmdInMailboxRange g.mbState cmd
  if ret ≠ .success then g.putLastOutCmd .command { cmd with retVal := ret }
  else
    let (ret, g) := g.initTaContext cmd
    if ret ≠ .success then g.putLastOutCmd .command { cmd with retVal := ret }
    else g.dispatchNsCmd env cmd

/-- `handle_ns_cmd`: a slot that is being worked on is taken again only to abort. -/
def handleNsCmd : Globals :=
  if cmd.eventNr ≥ maxSmcCmd || (g.cmdDoing cmd.eventNr && !isAbortCmd cmd) then g
  else if isAbortCmd cmd then g.handleKillTask env cmd
  else
    let g := { g with cmdDoing := Function.update g.cmdDoing cmd.eventNr true }
    match cmd.cmdType with
    | .buildinAgent => g.handleServiceAgentBackCmd env cmd
    | .taAgent | .ta2taAgent => g.handleTaAgentBackCmd env cmd
    | .global | .ta => g.checkAndDispatchNsCmd env cmd

/-- `process_ta2ta_cmd`, with `process_ta_common_cmd` for the global commands. -/
def processTa2taCmd (loadWorked : Bool) : Globals :=
  let why := .ta2ta task
  let (ret, cmd, async, g) :=
    if cmd.cmdType ≠ .global then
      let (ret, g) := g.startTaTask env why cmd .secureToSecure
      (ret, cmd, decide (ret = .success), g)
    else if cmd.cmdId = openSessionId then
      let (ret, cmd, g) := g.openSession env why cmd .secureToSecure task loadWorked
      (ret, cmd, decide (ret = .success), g)
    else if cmd.cmdId = closeSessionId then
      let (ret, sync, g) := g.closeSession env why cmd .secureToSecure
      (ret, cmd, ret = .success && !sync, g)
    else (.invalidCmd, cmd, false, g)
  if async then g else g.sCmdResponse env { cmd with retVal := ret } task

def handleTa2taCmd (cmd : Option SmcCmd) (loadWorked : Bool) : Globals :=
  match cmd with
  | none => g.sCmdResponse env { retVal := .outOfMemory } task
  | some cmd =>
    let (ret, cmd, g) := g.initTa2taContext cmd task
    if ret ≠ .success then g.sCmdResponse env { cmd with retVal := ret } task
    else g.processTa2taCmd env cmd task loadWorked

def checkShortBuffer : Bool :=
  match g.cur?.bind Session.pamNode with
  | none => false
  | some node => node.op.any fun p => p.type.isOutput && p.size < env.taSize p

/-- The answer at the end of `handle_ta_back_msg`. The session may have been freed
there; what is read of it is what it held. -/
def answerTa : Globals :=
  if s.sessionStatus = .normal then g.gtCmdResponse env s { s.cmdIn with retVal := ret }
  else g.taExceptionHandleAck env s.sessionStatus s.taskId s.ta2taFromTaskid

def callTaOpenSessionProp : Globals :=
  if ret ≠ .success then (g.processOpenSessionError env).answerTa env s ret
  else
    let (r, g) := g.processOpenSession env s.cmdIn s.cmdType
    if r ≠ .success then g.answerTa env s .generic else g

/-- `call_ta_open_session_init`, which goes on with the property step if there is no
property to send. -/
def callTaOpenSessionInit : Globals :=
  if ret ≠ .success then (g.processOpenSessionError env).answerTa env s ret
  else
    let (sent, g) := g.processInitSession env
    if sent then g else g.callTaOpenSessionProp env s ret

def callTaOpenSession : Globals :=
  let ret := if ret = .success && g.checkShortBuffer env then .shortBuffer else ret
  let g := if ret = .success then g.editService s.srv fun v => { v with firstOpen := false }
    else g.processOpenSessionError env
  g.answerTa env s ret

def handleTaBackMsg (back : BackCmd) (ret : TeeRet) : Globals :=
  if !s.waitTaBackMsg then g
  else
    let h := g.editSession s.ref fun s => { s with waitTaBackMsg := false }
    match back with
    | .invokeCmd => h.answerTa env s ret
    | .closeSession => (h.processCloseSession env).answerTa env s ret
    | .openSessionInit => h.callTaOpenSessionInit env s ret
    | .openSessionProp => h.callTaOpenSessionProp env s ret
    | .openSession => h.callTaOpenSession env s ret
    | .unknown => g

def handleTeeWaitPendingMsg : Globals :=
  if isOpensessionCmd s.cmdIn then g.emit [.reply s.taskId .ack]
  else g.nsCmdResponse env (.session s.ref) { s.cmdIn with operation := 0, retVal := .pending }

def handleMsgFromTa (back : BackCmd) (ret : TeeRet) (agentId : Nat) : Globals :=
  match g.findTask task with
  | none => g
  | some s =>
    let g := { g with curService := some s.srv, curSession := some s.ref }
    match ret with
    | .pending2 => g.handleAgentRequest env task agentId
    | .pending => g.handleTeeWaitPendingMsg env s
    | ret => g.handleTaBackMsg env s back ret

def sendImgLoadResponse : Globals :=
  let cmd := { g.loadCmd with retVal := ret }
  { g with loadCmd := { cmd with operation := 0 } }.nsCmdResponse env .loader cmd

def processRegisterElfReq : Globals :=
  let (ret, g) := { g with elfLoading := false }.cmdGlobalNsGetParams env g.loadCmd
  g.sendImgLoadResponse env (if ret ≠ .success then .generic else env.globalRet)

def elfVerifyCrashCallback : Globals :=
  if g.elfLoading then { g.sendImgLoadResponse env (.other 0) with elfLoading := false } else g

/-- `register_service`: a new service without sessions. -/
def registerService (uuid index : Nat) (v : Service) : Globals :=
  if (g.findService uuid 0).isSome || (g.service? index).isSome || index = 0 then g
  else { g with services := g.services ++ [{ v with
    index, uuid, sessionCount := 0, sessionBitmap := 0, initBuild := false, serviceThread := 0
    firstOpen := true, isServiceDead := false }] }

def step : Event → Globals
  | .nsCmd cmd => (reset g).handleNsCmd env cmd
  | .taMsg task back ret agentId => (reset g).handleMsgFromTa env task back ret agentId
  | .ta2ta task cmd loadWorked => (reset g).handleTa2taCmd env task cmd loadWorked
  | .agentRequest task agentId => (reset g).handleAgentRequest env task agentId
  | .setCallerInfo task caller =>
    match g.agentOf task with
    | some a => { reset g with
        agents := Keyed.edit BuildinAgent.taskId a.taskId (fun a => { a with caller }) g.agents }
    | none => reset g
  | .registerElf => (reset g).processRegisterElfReq env
  | .taskCrash task permService =>
    let g := (reset g).processTaskCrash env task
    if permService then g.elfVerifyCrashCallback env else g
  | .registerService uuid index v => (reset g).registerService uuid index v
  | .startInternalTask uuid => (reset g).startInternalTask env uuid
where
  /-- `reset_ta_context`; the record of the last step is dropped. -/
  reset (g : Globals) : Globals := { g with curService := none, curSession := none, out := [] }

end Globals

/-- One round of the main loop, with what the rest of the system answers in it. -/
def gtaskStep (g : Globals) (e : Env × Event) : Globals := g.step e.1 e.2

/-- gtask after `ta_framework_init`: it is registered as a service itself. -/
def gtaskInit (uuid : Nat) : Globals :=
  { services := [{ index := 1, uuid, buildIn := true, isGtask := true }], next := 0 }

end TeeOs.Gtask
