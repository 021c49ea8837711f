import TeeOs.Drv.Permission
import TeeOs.Lib.Bitmap
import TeeOs.Lib.Keyed

/-!
# A driver process

Several threads take messages and call the driver module. What a thread does under one
lock is one step, and steps interleave in any order. Between two steps a thread holds
references to the record of the calling task and to a descriptor.

The descriptors of a task are those with its pid that are `listed`; one that is being
opened or closed is in no list but has its bit and its references. Each descriptor has
a number of its own, and `calls` is the history of the calls into the module, newest
first. Locks do not fail.
-/

namespace TeeOs.Drv

open TeeOs.Conf
open TeeOs.Lib TeeOs.Lib.Keyed

def fdCountMax : Nat := 1024
def taskFdCountMax : Nat := 32
def drvTaskOpenRefCntStep : Nat := 2
def uint32Max : Nat := 0xffffffff
def threadLimitMax : Nat := 8

structure DrvTask where
  taskPid : Nat
  taskCount : Nat
  refCnt : Nat
  deriving DecidableEq

inductive Stage | opening | listed | closing
  deriving DecidableEq

structure FdData where
  id : Nat
  pid : Nat
  fd : Nat
  uuid : Uuid
  cmdPerm : BitVec 64
  refCnt : Nat
  stage : Stage
  deriving DecidableEq

/-- A request to open for the task `pid`; `sender` is who sent it. -/
structure OpenReq where
  sender : Nat
  pid : Nat
  uuid : Uuid
  perm : BitVec 64
  deriving DecidableEq

/-- Where a thread stands that handles a message. -/
inductive Phase
  /-- holds two references of the task -/
  | count (req : OpenReq)
  | alloc (req : OpenReq)
  /-- the open function of the module runs -/
  | openCall (id : Nat) (req : OpenReq)
  /-- the open failed and is counted still -/
  | undo (pid : Nat)
  | added (id fd : Nat) (req : OpenReq)
  | reply (id fd : Nat) (req : OpenReq)
  | findIoctl (pid : Nat) (uuid : Uuid) (fd cmd : Nat)
  | auth (id pid : Nat) (uuid : Uuid) (cmd : Nat)
  /-- the ioctl function runs, or the command was refused -/
  | ioctl (id pid : Nat)
  | findClose (pid : Nat) (uuid : Uuid) (fd : Nat)
  | closing (id pid : Nat) (uuid : Uuid)
  /-- waits for the last reference of the descriptor -/
  | waiting (id pid : Nat) (uuid : Uuid)
  | put (pid n : Nat)
  deriving DecidableEq

/-- The history of the module and of the answers to opens. -/
inductive Call
  | opened (id sender pid : Nat) (uuid : Uuid)
  | ioctl (id pid : Nat) (uuid : Uuid)
  | closed (id pid : Nat) (uuid : Uuid)
  | unanswered (id : Nat)
  deriving DecidableEq

/-- What does not change while the process runs. -/
structure DrvEnv where
  drvMgrPid : Nat
  drvIndex : BitVec 32
  cmdPerm : List DrvCmdPermInfo
  threadLimit : Nat
  limited : threadLimit ≤ threadLimitMax

structure Core where
  tasks : List DrvTask
  datas : List FdData
  fdBitmap : BitVec fdCountMax
  nextId : Nat
  calls : List Call

structure DrvState where
  core : Core
  threads : List Phase

/-! ## Records of tasks -/

namespace Core

variable (c : Core) (pid : Nat)

def editTask (f : DrvTask → DrvTask) : Core :=
  { c with tasks := edit (·.taskPid) pid f c.tasks }

def getDrvTask : Option DrvTask := c.tasks.find? fun t => t.taskPid = pid

def updateDrvTaskRefCnt (task : DrvTask) (isOpen : Bool) : Option DrvTask :=
  if isOpen then
    if task.refCnt ≥ uint32Max-drvTaskOpenRefCntStep then none
    else some { task with refCnt := task.refCnt+drvTaskOpenRefCntStep }
  else if task.refCnt = uint32Max then none
  else some { task with refCnt := task.refCnt+1 }

/-- Takes references of the task's record; an open creates the record if memory
allows. -/
def findAndGetDrvTask (isOpen memory : Bool) : Option Core :=
  match c.getDrvTask pid with
  | some task => (updateDrvTaskRefCnt task isOpen).map fun t => c.editTask pid fun _ => t
  | none =>
    if isOpen && memory then
      some { c with tasks := c.tasks ++ [⟨pid, 0, drvTaskOpenRefCntStep⟩] }
    else none

def putDrvTask (pid putCnt : Nat) : Core :=
  match c.getDrvTask pid with
  | none => c
  | some task =>
    let refCnt := if task.refCnt < putCnt then task.refCnt else task.refCnt-putCnt
    if refCnt = 0 then { c with tasks := delete (·.taskPid) pid c.tasks }
    else c.editTask pid fun t => { t with refCnt := refCnt }

/-- Counts an open of the task, unless it has too many. -/
def getTaskCount : Option Core :=
  match c.getDrvTask pid with
  | none => none
  | some task =>
    if task.taskCount ≥ taskFdCountMax then none
    else some (c.editTask pid fun t => { t with taskCount := t.taskCount+1 })

def decTaskCount : Core :=
  c.editTask pid fun t => { t with taskCount := t.taskCount-1 }

/-! ## Descriptors -/

def editData (id : Nat) (f : FdData → FdData) : Core :=
  { c with datas := edit (·.id) id f c.datas }

def getData (id : Nat) : Option FdData := c.datas.find? fun d => d.id = id

/-- The descriptor `fd` in the list of a task, if it belongs to that uuid. -/
def findFdData (uuid : Uuid) (fd : Nat) : Option FdData :=
  match c.datas.find? fun d => d.stage = .listed ∧ d.pid = pid ∧ d.fd = fd with
  | some d => if d.uuid = uuid then some d else none
  | none => none

/-- A new descriptor under the first clear bit. -/
def allocFdData (req : OpenReq) (memory : Bool) : Option (Core × Nat) :=
  if memory then
    match Bitmap.free? c.fdBitmap with
    | none => none
    | some bit => some
        ({ c with
            datas := c.datas ++ [⟨c.nextId, req.pid, bit+1, req.uuid, req.perm, 1, .opening⟩]
            fdBitmap := Bitmap.set c.fdBitmap bit
            nextId := c.nextId+1 }, c.nextId)
  else none

def freeFdData (d : FdData) : Core :=
  { c with
    datas := delete (·.id) d.id c.datas
    fdBitmap := Bitmap.clear c.fdBitmap (d.fd-1) }

def record (call : Call) : Core := { c with calls := call :: c.calls }

end Core

/-! ## Handling a message -/

/-- What the environment decides in a step: whether memory is there, whether the
module's open succeeds and whether an answer can be sent. -/
structure Chance where
  memory : Bool
  opens : Bool
  answers : Bool

variable (env : DrvEnv)

/-- The low part of a handle, if the handle names this driver and a descriptor. -/
def checkFd (fd : Nat) : Option Nat :=
  if fd / 2^32 % 2^32 ≠ env.drvIndex.toNat then none
  else if fd % 2^32 = 0 ∨ fd % 2^32 > fdCountMax then none
  else some (fd % 2^32)

/-- The handle of a descriptor of this driver. -/
def handleOf (fd : Nat) : Nat := fd+2^32*env.drvIndex.toNat

/-- Messages to the driver. The kernel vouches for the sender's pid and uuid; whether
the parameters can be read is part of the message. -/
inductive DrvMsg
  | openFd (readable : Bool) (req : OpenReq)
  | ioctl (readable : Bool) (sender : Nat) (uuid : Uuid) (fd cmd : Nat)
  | close (readable : Bool) (sender pid : Nat) (uuid : Uuid) (fd : Nat)
  deriving DecidableEq

def driverClose (c : Core) (pid : Nat) (uuid : Uuid) (fd : Nat) : Core × List Phase :=
  match checkFd env fd with
  | none => (c, [])
  | some low =>
    match c.findAndGetDrvTask pid false true with
    | none => (c, [])
    | some c' => (c', [.findClose pid uuid low])

/-- A thread takes a message and does its first step. -/
def driverSyscall (c : Core) (chance : Chance) : DrvMsg → Core × List Phase
  | .openFd readable req =>
    if readable = false ∨ req.sender ≠ env.drvMgrPid then (c, [])
    else match c.findAndGetDrvTask req.pid true chance.memory with
      | none => (c, [])
      | some c' => (c', [.count req])
  | .ioctl readable sender uuid fd cmd =>
    if readable = false then (c, [])
    else match checkFd env fd with
      | none => (c, [])
      | some low =>
        match c.findAndGetDrvTask sender false true with
        | none => (c, [])
        | some c' => (c', [.findIoctl sender uuid low cmd])
  | .close readable sender pid uuid fd =>
    if readable = false ∨ sender ≠ env.drvMgrPid then (c, [])
    else driverClose env c pid uuid fd

/-- The next step of a thread: what it leaves and what the thread does then. -/
def advance (c : Core) (chance : Chance) : Phase → Core × List Phase
  | .count req =>
    match c.getTaskCount req.pid with
    | none => (c, [.put req.pid drvTaskOpenRefCntStep])
    | some c' => (c', [.alloc req])
  | .alloc req =>
    match c.allocFdData req chance.memory with
    | none => (c, [.undo req.pid])
    | some (c', id) => (c', [.openCall id req])
  | .openCall id req =>
    match c.getData id with
    | none => (c, [])
    | some d =>
      if chance.opens then
        ((c.editData id fun d => { d with stage := .listed }).record
          (.opened id req.sender req.pid req.uuid), [.added id d.fd req])
      else (c.freeFdData d, [.undo req.pid])
  | .undo pid => (c.decTaskCount pid, [.put pid drvTaskOpenRefCntStep])
  | .added id fd req => (c.putDrvTask req.pid 1, [.reply id fd req])
  | .reply id fd req =>
    if chance.answers then (c, [])
    else driverClose env (c.record (.unanswered id)) req.pid req.uuid (handleOf env fd)
  | .findIoctl pid uuid fd cmd =>
    match c.findFdData pid uuid fd with
    | none => (c, [.put pid 1])
    | some d =>
      if d.refCnt = uint32Max then (c, [.put pid 1])
      else (c.editData d.id fun d => { d with refCnt := d.refCnt+1 }, [.auth d.id pid uuid cmd])
  | .auth id pid uuid cmd =>
    match c.getData id with
    | none => (c, [])
    | some d =>
      if ioctlAuthCheck env.cmdPerm cmd d.cmdPerm then (c.record (.ioctl id pid uuid), [.ioctl id pid])
      else (c, [.ioctl id pid])
  | .ioctl id pid => (c.editData id fun d => { d with refCnt := d.refCnt-1 }, [.put pid 1])
  | .findClose pid uuid fd =>
    match c.findFdData pid uuid fd with
    | none => (c, [.put pid 1])
    | some d =>
      ((c.decTaskCount pid).editData d.id fun d => { d with stage := .closing },
        [.closing d.id pid uuid])
  | .closing id pid uuid =>
    (c.editData id fun d => { d with refCnt := d.refCnt-1 }, [.waiting id pid uuid])
  | .waiting id pid uuid =>
    match c.getData id with
    | none => (c, [])
    | some d =>
      if d.refCnt = 0 then
        ((c.freeFdData d).record (.closed id pid uuid), [.put pid drvTaskOpenRefCntStep])
      else (c, [.waiting id pid uuid])
  | .put pid n => (c.putDrvTask pid n, [])

/-- Events: a message is taken by a thread, if one is free, or the thread at a place
goes on. -/
inductive DrvEvent
  | deliver (chance : Chance) (msg : DrvMsg)
  | resume (place : Nat) (chance : Chance)

def DrvState.step (s : DrvState) : DrvEvent → DrvState
  | .deliver chance msg =>
    if s.threads.length < env.threadLimit then
      let r := driverSyscall env s.core chance msg
      ⟨r.1, r.2 ++ s.threads⟩
    else s
  | .resume place chance =>
    match s.threads.drop place with
    | [] => s
    | phase :: rest =>
      let r := advance env s.core chance phase
      ⟨r.1, s.threads.take place ++ r.2 ++ rest⟩

def initDrv : DrvState := ⟨⟨[], [], 0, 0, []⟩, []⟩

end TeeOs.Drv
