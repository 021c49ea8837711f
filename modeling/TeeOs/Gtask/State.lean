import TeeOs.Lib.Keyed

/-!
# The state of gtask

gtask serves the commands the normal world puts in its slots and the messages of
the TAs. Its state is the list of services, the list of sessions of each of them,
and the private bitmap of the slots it is working on. The session lists are kept
in one list, in the order of creation, with the service each session belongs to; a
session is named by its address. What one main-loop step sends, writes and maps is
recorded in `out`.
-/

namespace TeeOs.Gtask

open TeeOs.Lib

/-- A task of the TEE: its process and its thread in it. -/
structure TaskId where
  pid : Nat
  tid : Nat
  deriving DecidableEq, Repr

/-- The task that forwards the commands of the normal world. -/
def smcmgrPid : TaskId := ⟨5, 0⟩

/-- The kind of a command in a slot; every other value is served as `ta`. -/
inductive CmdType where
  | global
  | ta
  | taAgent
  | ta2taAgent
  | buildinAgent
  deriving DecidableEq, Repr

/-- From which side a session is called. -/
inductive CallType where
  | nsToSecure
  | secureToSecure
  deriving DecidableEq, Repr

/-- The return codes the modelled code tests or sets. -/
inductive TeeRet where
  | success
  | pending
  | pending2
  | badParameters
  | generic
  | busy
  | outOfMemory
  | shortBuffer
  | accessDenied
  | accessConflict
  | serviceNotExist
  | sessionNotExist
  | sessionMaximum
  | invalidCmd
  | targetDead
  | other (code : Nat)
  deriving DecidableEq, Repr

/-- `is_err_ret`. -/
def TeeRet.isErr : TeeRet → Bool
  | success | pending | pending2 => false
  | _ => true

/-- What the deletion of a task answers. -/
inductive SreRet where
  | succ
  | normalFail
  | timeout
  deriving DecidableEq, Repr

def openSessionId : Nat := 0x2
def closeSessionId : Nat := 0x3
def loadSecureAppId : Nat := 0x4
def needLoadAppId : Nat := 0x5
def killTaskId : Nat := 0x10
def registerMailboxId : Nat := 0x17
def setServeCmdId : Nat := 0x1b

def maxSmcCmd : Nat := 18
def maxSessionId : Nat := 8
def maxTa2taLevel : Nat := 1

/-- A command, as it stands in a slot. `operation` and `loginData` are the two
halves of a physical address put together. -/
structure SmcCmd where
  uuid : Nat := 0
  cmdType : CmdType := .global
  cmdId : Nat := 0
  devFileId : Nat := 0
  context : Nat := 0
  agentId : Nat := 0
  operation : Nat := 0
  loginData : Nat := 0
  loginDataLen : Nat := 0
  retVal : TeeRet := .success
  eventNr : Nat := 0
  uid : TaskId := ⟨0, 0⟩
  caPid : Nat := 0
  deriving DecidableEq, Repr

/-- `service_index_of_context`. -/
def SmcCmd.serviceIndex (cmd : SmcCmd) : Nat := cmd.context / 2 ^ 16

/-- `session_id_of_context`. -/
def SmcCmd.sessionId (cmd : SmcCmd) : Nat := cmd.context % 2 ^ 16

def setSessionContextBit (index id : Nat) : Nat := index * 2 ^ 16 + id % 2 ^ 16

def isAbortCmd (cmd : SmcCmd) : Bool := cmd.cmdType = .global && cmd.cmdId = killTaskId

def isOpensessionCmd (cmd : SmcCmd) : Bool := cmd.cmdType = .global && cmd.cmdId = openSessionId

/-- Memory that gtask can reach: the registered mailbox, memory of the normal world
mapped before there was one, memory of a task. -/
inductive Window where
  | mailbox (addr : Nat)
  | mapped (addr : Nat)
  | share (task : TaskId) (addr : Nat)
  deriving DecidableEq, Repr

inductive ParamType where
  | none
  | valueInput
  | valueOutput
  | valueInout
  | memrefInput
  | memrefOutput
  | memrefInout
  | invalid
  deriving DecidableEq, Repr

def ParamType.isMemref : ParamType → Bool
  | memrefInput | memrefOutput | memrefInout => true
  | _ => false

def ParamType.isOutput : ParamType → Bool
  | memrefOutput | memrefInout => true
  | _ => false

/-- One parameter of an operation: the address and size of a memory reference, or
the two words of a value. -/
structure Param where
  type : ParamType
  buffer : Nat
  size : Nat
  deriving DecidableEq, Repr

/-- The operation copied from the caller, with the caller's memory behind each
memory reference. -/
structure PamNode where
  ref : Nat
  op : List Param
  ree : List (Option Window)
  deriving DecidableEq, Repr

/-- A region mapped for a command. -/
structure Region where
  eventNr : Nat
  window : Window
  size : Nat
  ta2ta : Bool
  deriving DecidableEq, Repr

inductive SessionStatus where
  | normal
  | selfDead
  | fatherDead
  deriving DecidableEq, Repr

/-- Who opened a session. No function reads it. -/
inductive Principal where
  | normalWorld (devFileId : Nat)
  | task (id : TaskId)
  | gtask
  deriving DecidableEq, Repr

def Principal.isNormalWorld : Principal → Bool
  | normalWorld _ => true
  | _ => false

/-- A session. `father` is the session in whose child list it is linked, `cmdSet`
tells that the pointer `cmd` is set, which then points to `cmdIn`. -/
structure Session where
  ref : Nat
  srv : Nat
  opener : Principal := .gtask
  sessionId : Nat
  taskId : TaskId := ⟨0, 0⟩
  ta2taFromTaskid : TaskId := ⟨0, 0⟩
  ta2taLevel : Nat := 0
  agentPending : Bool := false
  cmdType : CallType := .nsToSecure
  cmdSet : Bool := false
  cmdIn : SmcCmd := {}
  operAddr : Option Window := none
  pamNode : Option PamNode := none
  mapMem : List Region := []
  waitTaBackMsg : Bool := false
  sessionStatus : SessionStatus := .normal
  father : Option Nat := none
  deriving DecidableEq, Repr

/-- A service. `buildIn`, `reet`, `isGtask` and `internal` are what the tests on its
uuid answer. -/
structure Service where
  index : Nat
  uuid : Nat
  buildIn : Bool := false
  reet : Bool := false
  isGtask : Bool := false
  internal : Bool := false
  multiSession : Bool := false
  keepAlive : Bool := false
  hasProp : Bool := false
  refCnt : Nat := 0
  sessionCount : Nat := 0
  sessionBitmap : BitVec 32 := 0
  initBuild : Bool := false
  serviceThread : Nat := 0
  firstOpen : Bool := true
  isServiceDead : Bool := false
  deriving DecidableEq, Repr

/-- `is_system_service`. -/
def Service.system (v : Service) : Bool := v.reet || v.isGtask || v.internal

/-- A service that serves an agent of the normal world, and for whom it works. -/
structure BuildinAgent where
  taskId : TaskId
  agentId : Nat
  caller : TaskId
  pending : Bool
  deriving DecidableEq, Repr

structure Mailbox where
  start : Nat
  size : Nat
  deriving DecidableEq, Repr

/-- The messages gtask sends to the task of a session. The `empty` ones have the command
id of their entry and, but for the first session, an empty body. -/
inductive TaMsg where
  | openSessionInit
  | openSessionProp
  | openSession (firstSession : Bool)
  | invokeCmd (cmdId : Nat)
  | closeSession (lastSession : Bool)
  | emptyOpenSession (firstSession : Bool)
  | emptyInvokeCmd
  | emptyCloseSession
  | ta2taRet (ret : TeeRet)
  | ack
  deriving DecidableEq, Repr

/-- The message of an entry without the fields of a command. -/
def TaMsg.emptied : TaMsg → TaMsg
  | .openSession firstSession => .emptyOpenSession firstSession
  | .closeSession _ => .emptyCloseSession
  | _ => .emptyInvokeCmd

def TaMsg.resumes : TaMsg → Bool
  | .emptyOpenSession _ | .emptyInvokeCmd | .emptyCloseSession => true
  | _ => false

/-- Why a message goes to a session: a command of the normal world, the answer of an
agent the session waits for, a TA2TA call, the session's own answer to an earlier part
of its opening, the end of its caller. -/
inductive Cause where
  | normalWorld (devFileId : Nat)
  | agent (devFileId : Nat)
  | ta2ta (caller : TaskId)
  | opening
  | fatherDead
  deriving DecidableEq, Repr

/-- For whom a slot is answered: the command just taken from it, a session, the
service thread, the loader. -/
inductive Owner where
  | command
  | session (ref : Nat)
  | serviceThread
  | loader
  deriving DecidableEq, Repr

/-- What a step does outside the tables of gtask. -/
inductive Out where
  /-- `put_last_out_cmd`: the answer, whether the slot was set in `cmd_doing_bitmap`,
  and for whom. -/
  | put (cmd : SmcCmd) (doing : Bool) (owner : Owner)
  | send (why : Cause) (session : Session) (msg : TaMsg)
  | reply (task : TaskId) (msg : TaMsg)
  /-- An address given to `mailbox_phys_to_virt` and the bytes used from there. -/
  | mailbox (addr size : Nat)
  /-- Memory of a task that gtask maps for a session of another one. -/
  | share (task : TaskId) (addr size : Nat)
  | copyBack (node : Nat) (oper : Window)
  | release (node : Nat)
  | deleted (task : TaskId)
  deriving DecidableEq, Repr

/-- The globals of gtask. `tasks` are the session tasks that were created and not
deleted, `died` the tasks whose session was found dead. -/
structure Globals where
  services : List Service := []
  sessions : List Session := []
  tasks : List TaskId := []
  died : List TaskId := []
  cmdDoing : Nat → Bool := fun _ => false
  curService : Option Nat := none
  curSession : Option Nat := none
  svcCmd : SmcCmd := {}
  svcWorking : Bool := false
  svcPending : List Nat := []
  agents : List BuildinAgent := []
  gtPamNode : Option PamNode := none
  gtOperAddr : Option Window := none
  memNs : List Region := []
  mbState : Option Mailbox := none
  loadCmd : SmcCmd := {}
  elfLoading : Bool := false
  next : Nat := 0
  out : List Out := []

namespace Globals

variable (g : Globals)

def emit (os : List Out) : Globals := { g with out := g.out ++ os }

variable (r : Nat) (i : Nat) (t : TaskId)

def service? : Option Service := g.services.find? (·.index = i)

def session? : Option Session := g.sessions.find? (·.ref = r)

def sessionsOf : List Session := g.sessions.filter (·.srv = i)

def children : List Session := g.sessions.filter (·.father = some r)

def editService (f : Service → Service) : Globals :=
  { g with services := Keyed.edit Service.index i f g.services }

def editSession (f : Session → Session) : Globals :=
  { g with sessions := Keyed.edit Session.ref r f g.sessions }

def cur? : Option Session := g.curSession.bind g.session?

def curSrv? : Option Service := g.curService.bind g.service?

def editCur (f : Session → Session) : Globals :=
  match g.curSession with
  | some r => g.editSession r f
  | none => g

def findService (uuid serviceIndex : Nat) : Option Service :=
  g.services.find? fun v => v.uuid = uuid && !v.isServiceDead &&
    (serviceIndex = 0 || serviceIndex = v.index)

def findServiceDead (uuid serviceIndex : Nat) : Option Service :=
  if serviceIndex = 0 then none
  else g.services.find? fun v => v.uuid = uuid && v.isServiceDead && serviceIndex = v.index

def findServiceByTaskId : Option Service :=
  g.services.find? fun v => v.serviceThread = t.pid && !v.isServiceDead

/-- `do_find_task`: all services with that status, all their sessions. -/
def doFindTask (dead : Bool) : Option Session :=
  g.services.findSome? fun v =>
    if v.isServiceDead = dead then (g.sessionsOf v.index).find? (·.taskId = t) else none

def findTask : Option Session := g.doFindTask t false

def findTaskDead : Option Session := g.doFindTask t true

def findSessionWithDevFileId (sessionId devFileId i : Nat) : Option Session :=
  (g.sessionsOf i).find? fun s => s.sessionId = sessionId && s.cmdIn.devFileId = devFileId

end Globals

end TeeOs.Gtask
