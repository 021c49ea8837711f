import TeeOs.Conf.Text
import TeeOs.Lib.Masks

/-!
# Command permissions of drivers

A permission is a number from 1 to 64, written as text in the command list and the mac
list of a driver and in the apply list of a caller. The builders turn the numbers into
masks of 64 bits. When a task opens a driver, drvmgr picks the mask of the caller and
hands it to the driver process, which tests it at each ioctl.

An item of a list is here the sequence of elements that its handler is given.
-/

namespace TeeOs.Drv

open TeeOs.Conf
open TeeOs.Lib.CText

def bitNumOfUint64 : Nat := 64
def drvCmdMax : Nat := 0xffffffff
def drvNameMaxLen : Nat := 32

/-- The number of items that the 16 bits of a list size can count. -/
def maxItems : Nat := 0x10000

/-- The value of `1 << n` where the builders use it. The literal has type int, so
the shift is done in 32 bits and its result is extended by its sign. A count of 32
or more is undefined in C; `wide` is what the machine makes of it. -/
def shl (wide : Nat → BitVec 32) (n : Nat) : BitVec 64 :=
  (if n < 32 then 1#32 <<< n else wide n).signExtend 64

def permMask (wide : Nat → BitVec 32) (off : Nat) : BitVec 64 := shl wide (off-1)

variable (wide : Nat → BitVec 32)

/-! ## The builders -/

/-- A permission number as one piece of text. -/
def permNumber (target : Text) : Option Nat :=
  if target.length > maxUint32Len then none
  else match transStrToInt target .ten with
    | some off => if off = 0 ∨ off > bitNumOfUint64 then none else some off
    | none => none

/-- Joins the masks of the pieces to `perm`, until one of them is no number. -/
def combineTargets : List Text → BitVec 64 → Option (BitVec 64)
  | [], perm => some perm
  | target :: rest, perm =>
    match permNumber target with
    | some off => combineTargets rest (perm ||| permMask wide off)
    | none => none

variable (caller : CallerConf) (drv : DrvConf) (item : DrvcallPermApplyItem) (value : Text)

def combinePerms : Option (BitVec 64) :=
  if value.length = 0 ∨ value.length ≥ maxImageLen then none
  else combineTargets wide (tokens '|' (cstr value)) 0

structure DrvCmdPermInfo where
  cmd : Nat := 0
  perm : BitVec 64 := 0
  deriving DecidableEq

/-- The elements of an item of the command list. -/
inductive CmdPermLeaf
  | cmd (value : Text)
  | permission (value : Text)
  | other
  deriving DecidableEq

def handleDrvCmdPermInfoItemCmd (item : DrvCmdPermInfo) (value : Text) : Option DrvCmdPermInfo :=
  if value.length = 0 ∨ value.length > maxUint32Len then none
  else match transStrToInt value .hex with
    | some cmd => if cmd > drvCmdMax then none else some { item with cmd := cmd }
    | none => none

def handleDrvCmdPermInfoItemPermission (item : DrvCmdPermInfo) (value : Text) :
    Option DrvCmdPermInfo :=
  if value.length = 0 then none
  else match permNumber value with
    | some off => some { item with perm := permMask wide off }
    | none => none

def buildDrvCmdPermInfoItem (item : DrvCmdPermInfo) : CmdPermLeaf → Option DrvCmdPermInfo
  | .cmd value => handleDrvCmdPermInfoItemCmd item value
  | .permission value => handleDrvCmdPermInfoItemPermission wide item value
  | .other => some item

/-- Whether an item has no permission or a command is set twice. -/
def checkDrvCmdPermInvalid (list : List DrvCmdPermInfo) : Bool :=
  list.any (fun i => i.perm = 0) || !(list.map (·.cmd)).Nodup

def buildDrvCmdPermInfo (items : List (List CmdPermLeaf)) : Option (List DrvCmdPermInfo) :=
  if items.length ≥ maxItems then none
  else match items.mapM (·.foldlM (buildDrvCmdPermInfoItem wide) {}) with
    | some list => if checkDrvCmdPermInvalid list then none else some list
    | none => none

def nullUuid : Uuid := ⟨0, 0, 0, List.replicate 8 0⟩

structure DrvMacInfo where
  uuid : Uuid := nullUuid
  perm : BitVec 64 := 0
  deriving DecidableEq

/-- The elements of an item of the mac list. The text of a uuid is what stands in
the configuration from its value on. -/
inductive MacLeaf
  | uuid (size : Nat) (buff : Text)
  | permission (value : Text)
  | other
  deriving DecidableEq

def buildDrvMacInfoItem (item : DrvMacInfo) : MacLeaf → Option DrvMacInfo
  | .uuid size buff => (tlvToUuid buff size).map fun u => { item with uuid := u }
  | .permission value => (combinePerms wide value).map fun p => { item with perm := p }
  | .other => some item

/-- Whether an item has no uuid or a uuid is set twice. -/
def checkDrvMacInfoInvalid (list : List DrvMacInfo) : Bool :=
  list.any (fun i => i.uuid = nullUuid) || !(list.map (·.uuid)).Nodup

def buildDrvMacInfo (items : List (List MacLeaf)) : Option (List DrvMacInfo) :=
  if items.length ≥ maxItems then none
  else match items.mapM (·.foldlM (buildDrvMacInfoItem wide) {}) with
    | some list => if checkDrvMacInfoInvalid list then none else some list
    | none => none

structure DrvcallPermApplyItem where
  name : Text := []
  perm : BitVec 64 := 0
  deriving DecidableEq

/-- The elements of an item of the apply list. -/
inductive ApplyLeaf
  | name (value : Text)
  | permission (value : Text)
  | other
  deriving DecidableEq

def handlePermApplyItemName : Option DrvcallPermApplyItem :=
  if value.length = 0 ∨ value.length ≥ drvNameMaxLen then none else some { item with name := value }

def buildDrvcallPermApplyItem : ApplyLeaf → Option DrvcallPermApplyItem
  | .name value => handlePermApplyItemName item value
  | .permission value => (combinePerms wide value).map fun p => { item with perm := p }
  | .other => some item

def checkPermApplyList : Bool :=
  0 < item.name.length ∧ item.name.length < drvNameMaxLen

def buildDrvcallPermApply (items : List (List ApplyLeaf)) : Option (List DrvcallPermApplyItem) :=
  if items.length ≥ maxItems then none
  else match items.mapM (·.foldlM (buildDrvcallPermApplyItem wide) {}) with
    | some list => if list.all checkPermApplyList then some list else none
    | none => none

/-! ## drvmgr -/

structure DrvConf where
  serviceName : Text
  macInfoList : List DrvMacInfo
  cmdPermList : List DrvCmdPermInfo

/-- What drvmgr knows of a calling task. -/
structure CallerConf where
  uuid : Uuid
  drvcallPermApplyList : List DrvcallPermApplyItem

def getMacPermByUuid (list : List DrvMacInfo) (srvUuid : Uuid) : Option (BitVec 64) :=
  (list.find? fun i => i.uuid = srvUuid).map (·.perm)

def getPermByServiceNameInPermApplyList (list : List DrvcallPermApplyItem) (serviceName : Text) :
    Option (BitVec 64) :=
  (list.find? fun i => i.name.length = serviceName.length ∧
    strncmpEq i.name serviceName i.name.length = true).map (·.perm)

def callerOpenAuthCheck (drvName : Text) : Bool :=
  drvName.length ≠ 0 ∧
    (getPermByServiceNameInPermApplyList caller.drvcallPermApplyList drvName).isSome

def drvMacOpenAuthCheck (uuid : Uuid) : Bool :=
  drv.macInfoList.length = 0 ∨ (getMacPermByUuid drv.macInfoList uuid).isSome

def getDrvcallerCmdPerm : Option (BitVec 64) :=
  if drv.macInfoList.length = 0 then
    getPermByServiceNameInPermApplyList caller.drvcallPermApplyList drv.serviceName
  else getMacPermByUuid drv.macInfoList caller.uuid

/-- The mask that drvmgr sends to the driver when `caller` opens `drv` by name, or
nothing when it refuses. The table of base drivers is that of the product. -/
def callerPerm (baseDrv : List Text) (caller : CallerConf) (drv : DrvConf) (drvName : Text) :
    Option (BitVec 64) :=
  if drv.serviceName.length ≠ drvName.length ∨
      strncmpEq drv.serviceName drvName (drvName.length+1) = false then none
  else if drvName ∉ baseDrv ∧ callerOpenAuthCheck caller drvName = false then none
  else if drvMacOpenAuthCheck drv caller.uuid = false then none
  else if drvName ∈ baseDrv then some 0
  else getDrvcallerCmdPerm caller drv

/-! ## The driver process -/

def ioctlAuthCheck (cmdPerm : List DrvCmdPermInfo) (cmd : Nat) (dataPerm : BitVec 64) : Bool :=
  match cmdPerm.find? fun i => i.cmd = cmd with
  | none => true
  | some item => item.perm &&& dataPerm ≠ 0

/-- An ioctl of the task that opened the descriptor: whether its arguments could be
read, and its command. -/
structure IoctlParam where
  readable : Bool
  cmd : Nat

/-- Whether the ioctl function of the driver is entered. -/
def driverIoctl (cmdPerm : List DrvCmdPermInfo) (dataPerm : BitVec 64) (params : IoctlParam) :
    Bool :=
  params.readable && ioctlAuthCheck cmdPerm params.cmd dataPerm

/-! ## The whole path -/

/-- The texts from which a driver and a caller are configured. -/
structure Setup where
  serviceName : Text
  cmdItems : List (List CmdPermLeaf)
  macItems : List (List MacLeaf)
  callerUuid : Uuid
  applyItems : List (List ApplyLeaf)

def Setup.drvConf (s : Setup) : Option DrvConf := do
  let cmds ← buildDrvCmdPermInfo wide s.cmdItems
  let macs ← buildDrvMacInfo wide s.macItems
  pure ⟨s.serviceName, macs, cmds⟩

def Setup.callerConf (s : Setup) : Option CallerConf := do
  let list ← buildDrvcallPermApply wide s.applyItems
  pure ⟨s.callerUuid, list⟩

/-- Whether an ioctl of the caller reaches the driver's function, once the
configurations are accepted and the driver is opened under the name in `drvName`. -/
def Setup.ioctl (s : Setup) (baseDrv : List Text) (drvName : Text) (params : IoctlParam) :
    Option Bool := do
  let drv ← s.drvConf wide
  let caller ← s.callerConf wide
  let perm ← callerPerm baseDrv caller drv (cstr drvName)
  pure (driverIoctl drv.cmdPermList perm params)

end TeeOs.Drv
