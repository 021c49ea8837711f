import TeeOs.Drv.Permission
import TeeOs.Lib.Keyed
import TeeOs.Lib.Runs

/-!
# The task list of drvmgr

drvmgr keeps one node for each driver and for each task that calls drivers. A node that
is not a driver's is freed when its reference count falls to zero. An access through a
null pointer or to a freed node is recorded in `fault`, and a dead process handles
nothing more.

Messages come one after another, so locks are left out. `registered` and `freed` are not
data of the code: they record the caller nodes that a REGISTER made and no UNREGISTER
ended, and the nodes as they were when freed.
-/

namespace TeeOs.DrvMgr

open TeeOs.Conf
open TeeOs.Drv
open TeeOs.Lib.CText
open TeeOs.Lib.Keyed

def taskFdCountMax : Nat := 32
def uint32Max : Nat := 0xffffffff
def drvcallDecCntIncludeRegisterOne : Nat := 2

inductive NodeState
  | load
  | spawn
  | normal
  | spawnFail
  | exit
  deriving DecidableEq

structure FdNode where
  fd : Int
  drv : Nat
  closeFlag : Bool := false
  deriving DecidableEq

structure TaskNode where
  addr : Nat
  uuid : Uuid
  pid : Option Nat := none
  drvConf : Option DrvConf := none
  drvcallPermApplyList : List DrvcallPermApplyItem := []
  state : NodeState
  refCnt : Nat
  fdCount : Nat := 0
  fds : List FdNode := []
  registered : Bool := false

/-- Whether the target type is that of a driver. -/
def TaskNode.isDrv (n : TaskNode) : Bool := n.drvConf.isSome

def TaskNode.callerConf (n : TaskNode) : CallerConf := ⟨n.uuid, n.drvcallPermApplyList⟩

structure MgrState where
  nodes : List TaskNode
  next : Nat
  freed : List TaskNode := []
  fault : Bool := false

/-- A CALL_DRV_OPEN message: the task it comes from, the name in it when that is of
an accepted length, and what the environment does where the handler asks: memory for
a caller node and for an entry, the start of the driver process, and the handle that
the driver returns. -/
structure OpenReq where
  uuid : Uuid
  pid : Nat
  drvName : Option Text
  nodeMem : Bool
  fdMem : Bool
  spawned : Bool
  handle : Int

/-- A REGISTER_DRVCALL_CONF message: whether it passes the checks of its form and
sender and memory is found, and the configuration. -/
structure RegisterReq where
  accepted : Bool
  uuid : Uuid
  drvcallPermApplyList : List DrvcallPermApplyItem

namespace MgrState

variable (s : MgrState)

variable (baseDrv : List Text) (r : OpenReq) (n : TaskNode) (drvName : Text) (a : Nat) (uuid : Uuid)

def node? : Option TaskNode := s.nodes.find? fun n => n.addr = a

def write (f : TaskNode → TaskNode) : MgrState :=
  match s.node? a with
  | none => { s with fault := true }
  | some _ => { s with nodes := edit TaskNode.addr a f s.nodes }

/-! ## References -/

/-- A node of the uuid that is in use and belongs to the process, if one is named. -/
def matchesCaller (pid : Option Nat) (n : TaskNode) : Bool :=
  n.uuid = uuid && n.state = .normal && (pid.isNone || n.pid.isNone || n.pid = pid)

def findNormalNode (pid : Option Nat) : Option TaskNode :=
  s.nodes.find? (matchesCaller uuid pid)

def findEffectiveNode : Option TaskNode :=
  s.nodes.find? fun n => n.uuid = uuid && n.state ≠ .exit

def findNodeByName : Option TaskNode :=
  s.nodes.find? fun n => n.drvConf.any (fun c =>
    c.serviceName.length = drvName.length && strncmpEq c.serviceName drvName (drvName.length+1)) &&
    n.state ≠ .exit

def incDrvNode : TaskNode := { n with refCnt := n.refCnt + 1 }

/-- The process of the first message of a caller is kept in its node. -/
def bindPid (pid : Option Nat) (n : TaskNode) : TaskNode :=
  { n with pid := if n.pid.isNone then pid else n.pid }

def setExit : TaskNode := { n with state := .exit, registered := false }

def getNodeByUuidWithLock (pid : Nat) : MgrState × Option Nat :=
  match s.findNormalNode uuid (some pid) with
  | none => (s, none)
  | some n =>
    let s := s.write n.addr (bindPid (some pid))
    if n.refCnt = uint32Max then (s, none) else (s.write n.addr incDrvNode, some n.addr)

def getTaNodeAndSetExit : MgrState × Option Nat :=
  match s.findNormalNode uuid none with
  | none => (s, none)
  | some n =>
    if n.isDrv then (s, none)
    else if n.refCnt = uint32Max then (s, none)
    else ((s.write n.addr incDrvNode).write n.addr setExit, some n.addr)

def getDrvNodeByNameWithLock : MgrState × Option Nat :=
  match s.findNodeByName drvName with
  | none => (s, none)
  | some n =>
    if n.refCnt = uint32Max then (s, none) else (s.write n.addr incDrvNode, some n.addr)

/-- Gives up `dec` references; more than the node has are not given up at all. -/
def decNode (dec : Nat) (n : TaskNode) : TaskNode :=
  if n.refCnt < dec then n else { n with refCnt := n.refCnt - dec }

def putNode (a dec : Nat) : MgrState :=
  match s.node? a with
  | none => { s with fault := true }
  | some n =>
    if (decNode dec n).refCnt = 0 && !n.isDrv then
      { s with nodes := delete TaskNode.addr a s.nodes, freed := decNode dec n :: s.freed }
    else s.write a (decNode dec)

/-! ## Descriptors of a caller -/

def getFdCount : MgrState × Bool :=
  match s.node? a with
  | none => ({ s with fault := true }, false)
  | some n =>
    if n.fdCount ≥ taskFdCountMax then (s, false)
    else (s.write a fun n => { n with fdCount := n.fdCount + 1 }, true)

def putFdCount : MgrState := s.write a fun n => { n with fdCount := n.fdCount - 1 }

def addFdToDrvcallNode (data : FdNode) (a : Nat) : MgrState :=
  s.write a fun n => { n with fds := n.fds ++ [data] }

/-- Marks the entries of the descriptor, up to one that is marked already. The
position is that of the last one marked here. -/
def markFd (fd : Int) : List FdNode → Option Nat × List FdNode
  | [] => (none, [])
  | data :: rest =>
    if data.fd = fd then
      if data.closeFlag then (none, data :: rest)
      else
        let later := markFd fd rest
        (some (later.1.elim 0 (· + 1)), { data with closeFlag := true } :: later.2)
    else
      let later := markFd fd rest
      (later.1.map (· + 1), data :: later.2)

def closeGetFdNodeWithLock (fd : Int) : MgrState × Option Nat :=
  match s.node? a with
  | none => ({ s with fault := true }, none)
  | some n =>
    (s.write a fun n => { n with fds := (markFd fd n.fds).2 }, (markFd fd n.fds).1)

def delFdToDrvcallNode (a i : Nat) : MgrState :=
  s.write a fun n => { n with fds := n.fds.eraseIdx i, fdCount := n.fdCount - 1 }

/-- Takes the first entry that is not marked out of the list. -/
def dropOpenFd : TaskNode :=
  { n with fds := n.fds.eraseP (fun d => !d.closeFlag), fdCount := n.fdCount - 1 }

/-- The loop of `exceptionCloseHandle` over the entries still to visit. -/
def closeOpenFds (a : Nat) : List FdNode → MgrState → MgrState
  | [], s => s
  | data :: rest, s =>
    if data.closeFlag then closeOpenFds a rest s
    else closeOpenFds a rest ((s.write a dropOpenFd).putNode data.drv 1)

/-- Closes what the caller has open; the number of entries closed. -/
def exceptionCloseHandle : MgrState × Nat :=
  match s.node? a with
  | none => ({ s with fault := true }, 0)
  | some n => (closeOpenFds a n.fds s, n.fds.countP fun d => !d.closeFlag)

/-! ## Opening and closing -/

/-- A driver that calls itself. -/
def isDrvCallInvalid : Bool :=
  n.drvConf.any fun c =>
    drvName.length = c.serviceName.length && strncmpEq c.serviceName drvName (drvName.length+1)

/-- A new caller node, unless one of the uuid is in use. -/
def receiveTaConf : Option MgrState :=
  match s.findEffectiveNode n.uuid with
  | some _ => none
  | none => some { s with nodes := s.nodes ++ [n], next := s.next + 1 }

/-- The node of a caller that never registered, made when it opens a base driver. -/
def allocDrvcallNodeInternalDrv : Option (MgrState × Nat) :=
  if r.nodeMem then
    (s.receiveTaConf
      { addr := s.next, uuid := r.uuid, pid := some r.pid, state := .normal, refCnt := 1 }).map
      fun s' => (s', s.next)
  else none

/-- The checks of a caller whose node is referred to, and the place for one more
descriptor. -/
def admitCaller (c : Nat) : MgrState × Option Nat :=
  match s.node? c with
  | none => ({ s with fault := true }, none)
  | some n =>
    if isDrvCallInvalid n drvName then (s.putNode c 1, none)
    else if drvName ∉ baseDrv ∧ callerOpenAuthCheck n.callerConf drvName = false then
      (s.putNode c 1, none)
    else
      match s.getFdCount c with
      | (s, true) => (s, some c)
      | (s, false) => (s.putNode c 1, none)

def getValidDrvcallNode : MgrState × Option Nat :=
  match s.getNodeByUuidWithLock r.uuid r.pid with
  | (s, some c) => s.admitCaller baseDrv drvName c
  | (s, none) =>
    if drvName ∉ baseDrv then (s, none)
    else
      match s.allocDrvcallNodeInternalDrv r with
      | some (s, c) => s.admitCaller baseDrv drvName c
      -- the check of the caller reads through the null pointer that was returned
      | none => ({ s with fault := true }, none)

def setState (state : NodeState) (n : TaskNode) : TaskNode := { n with state := state }

/-- Whether the driver process of the node runs, after it was started if need be. -/
def ensureSpawned (d : Nat) (spawned : Bool) : MgrState × Bool :=
  match s.node? d with
  | none => ({ s with fault := true }, false)
  | some n =>
    if n.state = .load then (s.write d (setState (if spawned then .normal else .spawnFail)), spawned)
    else (s, n.state = .normal)

def getValidDrvNode : MgrState × Option Nat :=
  match s.getDrvNodeByNameWithLock drvName with
  | (s, none) => (s, none)
  | (s, some d) =>
    if ((s.node? d).bind (·.drvConf)).any (drvMacOpenAuthCheck · r.uuid) = false then
      (s.putNode d 1, none)
    else
      match s.ensureSpawned d r.spawned with
      | (s, true) => (s, some d)
      | (s, false) => (s.putNode d 1, none)

/-- The handle that an open of `d` by `c` gives, or none where the permission of the
caller is refused or the driver fails. -/
def openHandle (c d : Nat) : Option Int :=
  let permitted := drvName ∈ baseDrv ∨ (do
    let caller ← s.node? c
    let conf ← (← s.node? d).drvConf
    getDrvcallerCmdPerm caller.callerConf conf).isSome
  if permitted ∧ 0 < r.handle then some r.handle else none

def driverOpenFunc : MgrState × Option Int :=
  match r.drvName with
  | none => (s, none)
  | some text =>
    match s.getValidDrvcallNode baseDrv r (cstr text) with
    | (s, none) => (s, none)
    | (s, some c) =>
      if r.fdMem = false then ((s.putFdCount c).putNode c 1, none)
      else
        match s.getValidDrvNode r (cstr text) with
        | (s, none) => ((s.putFdCount c).putNode c 1, none)
        | (s, some d) =>
          match s.openHandle baseDrv r (cstr text) c d with
          | none => (((s.putNode d 1).putFdCount c).putNode c 1, none)
          | some fd => (s.addFdToDrvcallNode { fd := fd, drv := d } c, some fd)

/-- What the driver answers to the close does not change what drvmgr keeps. -/
def driverCloseFuncOps (c i : Nat) : MgrState :=
  match (s.node? c).bind (·.fds[i]?) with
  | none => { s with fault := true }
  | some data => (s.delFdToDrvcallNode c i).putNode data.drv 1

def driverCloseFunc (pid : Nat) (fd : Int) : MgrState :=
  match s.getNodeByUuidWithLock uuid pid with
  | (s, none) => s
  | (s, some c) =>
    match s.closeGetFdNodeWithLock c fd with
    | (s, none) => s.putNode c 1
    | (s, some i) => (s.driverCloseFuncOps c i).putNode c drvcallDecCntIncludeRegisterOne

/-! ## Registering callers -/

def drvcallConfRegisterHandle (r : RegisterReq) : MgrState :=
  if r.accepted then
    (s.receiveTaConf
      { addr := s.next, uuid := r.uuid, drvcallPermApplyList := r.drvcallPermApplyList
        state := .normal, refCnt := 1, registered := true }).getD s
  else s

/-- `accepted` is whether the message passes the checks of its form and sender. -/
def drvcallConfUnregisterHandle (accepted : Bool) (uuid : Uuid) : MgrState :=
  if accepted then
    match s.getTaNodeAndSetExit uuid with
    | (s, none) => s
    | (s, some a) =>
      match s.exceptionCloseHandle a with
      | (s, closeFd) => s.putNode a (closeFd + drvcallDecCntIncludeRegisterOne)
  else s

end MgrState

inductive MgrMsg
  | register (r : RegisterReq)
  | unregister (accepted : Bool) (uuid : Uuid)
  | drvOpen (r : OpenReq)
  | drvClose (uuid : Uuid) (pid : Nat) (fd : Int)

/-- One message; `baseDrv` is the table of base drivers of the product. -/
def MgrState.step (baseDrv : List Text) (s : MgrState) (m : MgrMsg) : MgrState :=
  if s.fault then s
  else match m with
    | .register r => s.drvcallConfRegisterHandle r
    | .unregister accepted uuid => s.drvcallConfUnregisterHandle accepted uuid
    | .drvOpen r => (s.driverOpenFunc baseDrv r).1
    | .drvClose uuid pid fd => s.driverCloseFunc uuid pid fd

/-- A driver as it is listed before any message: its uuid, its configuration and the
drivers it may call. -/
structure DriverEntry where
  uuid : Uuid
  drvConf : DrvConf
  drvcallPermApplyList : List DrvcallPermApplyItem := []

def initNode (e : DriverEntry) (addr : Nat) : TaskNode :=
  { addr := addr, uuid := e.uuid, drvConf := some e.drvConf
    drvcallPermApplyList := e.drvcallPermApplyList, state := .load, refCnt := 0 }

def initMgr (drivers : List DriverEntry) : MgrState :=
  { nodes := drivers.zipIdx.map fun e => initNode e.1 e.2, next := drivers.length }

end TeeOs.DrvMgr
