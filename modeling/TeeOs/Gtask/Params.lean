import TeeOs.Gtask.State

/-!
# The parameters of a command

A command points to an operation in memory of its caller. gtask copies the
operation into a parameter node, copies the memory behind its references for the TA
and, when the TA has answered, copies what the TA wrote back. The addresses a
command of the normal world carries must lie in the mailbox: `in_mailbox_range` is
the test, `mailbox_phys_to_virt` translates without it.
-/

namespace TeeOs.Gtask

/-- What the rest of the system answers during one step. -/
structure Env where
  /-- `sre_task_create`. -/
  taskCreate : Except SreRet TaskId := .error .normalFail
  /-- The process that was started for a service before the creation of a task failed. -/
  spawned : Option Nat := none
  /-- `gt_recycle_thread`. -/
  recycle : TaskId → SreRet := fun _ => .succ
  /-- Whether a message to the task can be sent. -/
  sent : TaskId → Bool := fun _ => true
  /-- Whether memory for a session, a node or a parameter block is found. -/
  memory : Bool := true
  /-- The operation the normal world holds at an address. -/
  nsOperation : Nat → List Param := fun _ => []
  /-- The operation a task holds at an address, if it can be mapped. -/
  taOperation : TaskId → Nat → Option (List Param) := fun _ _ => none
  /-- `task_map_ns_phy_mem`. -/
  nsMapped : Bool := true
  /-- Whether the memory of a task behind a reference can be mapped. -/
  shared : Param → Bool := fun _ => true
  /-- Whether the memory behind a reference can be copied. -/
  copied : Param → Bool := fun _ => true
  /-- The size the caller's operation holds for a reference when it is copied back. -/
  reeSize : Param → Nat := fun p => p.size
  /-- The size the TA left for a reference. -/
  taSize : Param → Nat := fun p => p.size
  /-- The byte `check_session_accessible` reads as `cancelable`. -/
  cancelable : Bool := false
  /-- Whether the session holds the agent it asks for. -/
  agentHeld : Bool := true
  /-- What the handler of a global command or the loader answers. -/
  globalRet : TeeRet := .success
  /-- Whether the handler of a global command reads its parameters. -/
  readsParams : Bool := true
  /-- Whether the loader hands the image over for verification. -/
  loadAsync : Bool := false
  /-- Whether a service was loaded long enough ago to be given up. -/
  aged : Service → Bool := fun _ => false
  /-- The service a `need_load_app` command asks for. -/
  needLoad : Option Nat := none
  /-- The memory a `register_mailbox` command names. -/
  mailbox : Option Mailbox := none

def addrMax : Nat := 2 ^ 64 - 1

/-- The bytes of an operation of the normal world, and what the range test takes for
them. -/
def operationSize : Nat := 4 * 5 + 4 * 8
def checkedSize : Nat := 4 * 5 + 4 * 16
def taOperationSize : Nat := 4 + 4 * 8 + 4 * 4

def inMailboxRange (mb : Option Mailbox) (addr size : Nat) : Bool :=
  match mb with
  | none => true
  | some m =>
    !(addr > addrMax - size || (addr < m.start || addr ≥ m.start + m.size) ||
      (addr + size < m.start || addr + size > m.start + m.size))

def checkCmdInMailboxRange (mb : Option Mailbox) (cmd : SmcCmd) : TeeRet :=
  if mb.isNone then .success
  else if cmd.operation ≠ 0 && !inMailboxRange mb cmd.operation checkedSize then .badParameters
  else if cmd.loginData ≠ 0 && !inMailboxRange mb cmd.loginData cmd.loginDataLen then
    .badParameters
  else .success

def checkOperationParamsInMailboxRange (mb : Option Mailbox) (op : List Param) : TeeRet :=
  if op.all fun p => !(p.type.isMemref && p.buffer ≠ 0 && !inMailboxRange mb p.buffer p.size) then
    .success
  else .badParameters

/-- What mapping leaves besides its result: the regions to unmap later and the
accesses made. -/
structure Mapped (α : Type) where
  result : Except TeeRet α
  regions : List Region := []
  out : List Out := []

section Mapping

variable (env : Env) (mb : Option Mailbox) (cmd : SmcCmd) (ta2ta : Bool)

def region (window : Window) (size : Nat) : Region := ⟨cmd.eventNr, window, size, ta2ta⟩

def mapCmdToOperation : Mapped (List Param × Window) :=
  if ta2ta then
    let out := [.share cmd.uid cmd.operation taOperationSize]
    match env.taOperation cmd.uid cmd.operation with
    | none => { result := .error .generic, out }
    | some op =>
      if env.memory then
        let window := .share cmd.uid cmd.operation
        { result := .ok (op, window), regions := [region cmd ta2ta window taOperationSize], out }
      else { result := .error .outOfMemory, out }
  else if mb.isSome then
    let out := [.mailbox cmd.operation operationSize]
    { result := .ok (env.nsOperation cmd.operation, .mailbox cmd.operation), out }
  else if !env.nsMapped then { result := .error .generic }
  else if !env.memory then { result := .error .outOfMemory }
  else
    let window := .mapped cmd.operation
    { result := .ok (env.nsOperation cmd.operation, window),
      regions := [region cmd ta2ta window operationSize] }

variable (global : Bool)

/-- The first parameter of a load command is read by the loader itself. -/
def isTaLoad (i : Nat) : Bool :=
  cmd.cmdId = loadSecureAppId && global && !ta2ta && i = 0

def paramsMapForTaMemref (i : Nat) (p : Param) : Mapped (Option Window) :=
  if ta2ta then
    let out := [.share cmd.uid p.buffer p.size]
    if !env.shared p then { result := .error .generic, out }
    else
      let window := .share cmd.uid p.buffer
      let regions := [region cmd ta2ta window p.size]
      if p.size = 0 then { result := .error .badParameters, regions, out }
      else if !env.copied p then { result := .error .generic, regions, out }
      else { result := .ok (some window), regions, out }
  else if mb.isNone || p.buffer = 0 then { result := .error .generic }
  else if isTaLoad cmd ta2ta global i then
    { result := .ok none, out := [.mailbox p.buffer p.size] }
  else if p.size = 0 then { result := .error .badParameters, out := [.mailbox p.buffer 0] }
  else if !env.copied p then { result := .error .generic, out := [.mailbox p.buffer 0] }
  else { result := .ok (some (.mailbox p.buffer)), out := [.mailbox p.buffer p.size] }

def setParamsForTa (i : Nat) (p : Param) : Mapped (Option Window) :=
  match p.type with
  | .none | .valueInput | .valueOutput | .valueInout => { result := .ok none }
  | .memrefInput | .memrefOutput | .memrefInout => paramsMapForTaMemref env mb cmd ta2ta global i p
  | .invalid => { result := .error .generic }

/-- The parameters are mapped in order; the first that fails ends the loop. -/
def setAllParams (global : Bool) : Nat → List Param → Mapped (List (Option Window))
  | _, [] => { result := .ok [] }
  | i, p :: ps =>
    let m := setParamsForTa env mb cmd ta2ta global i p
    match m.result with
    | .error ret => { result := .error ret, regions := m.regions, out := m.out }
    | .ok w =>
      let rest := setAllParams global (i + 1) ps
      { result := rest.result.map (w :: ·), regions := m.regions ++ rest.regions,
        out := m.out ++ rest.out }

/-- `operation_map_for_gt`, up to where the node is stored; `ref` is its address. -/
def operationMapForGt (ref : Nat) : Mapped (PamNode × Window) :=
  let m := mapCmdToOperation env mb cmd ta2ta
  match m.result with
  | .error ret => { result := .error ret, regions := m.regions, out := m.out }
  | .ok (op, window) =>
    if !env.memory then { result := .error .outOfMemory, regions := m.regions, out := m.out }
    else if !ta2ta && checkOperationParamsInMailboxRange mb op ≠ .success then
      { result := .error .badParameters, regions := m.regions, out := m.out ++ [.release ref] }
    else
      let ps := setAllParams env mb cmd ta2ta global 0 op
      let regions := m.regions ++ ps.regions
      match ps.result with
      | .error ret => { result := .error ret, regions, out := m.out ++ ps.out ++ [.release ref] }
      | .ok ree => { result := .ok (⟨ref, op, ree⟩, window), regions, out := m.out ++ ps.out }

end Mapping

/-- A write of `n` bytes through a window. -/
def Window.touch (n : Nat) : Window → List Out
  | mailbox addr => [.mailbox addr n]
  | mapped _ | share _ _ => []

/-- `copy_to_src` into the memory behind a reference of the caller. -/
def copyToSrc (ree : Option Window) (reeSize teeSize : Nat) : TeeRet × List Out :=
  match ree with
  | none => (.badParameters, [])
  | some w =>
    if reeSize = 0 then (.badParameters, [])
    else if teeSize = 0 then (.success, [])
    else if reeSize < teeSize then (.badParameters, [])
    else (.success, w.touch teeSize)

/-- The loop of `copy_params_back_to_ree`; `ret` is what it returns at its end. -/
def copyBackLoop (env : Env) (ret : TeeRet) : List Param → List (Option Window) → TeeRet × List Out
  | p :: ps, w :: ws =>
    if !p.type.isOutput then copyBackLoop env ret ps ws
    else if p.size ≠ env.reeSize p then (.badParameters, [])
    else if p.size < env.taSize p then copyBackLoop env .shortBuffer ps ws
    else
      let (eRet, out) := copyToSrc w (env.reeSize p) (env.taSize p)
      if eRet ≠ .success then (eRet, out)
      else
        let (ret', out') := copyBackLoop env ret ps ws
        (ret', out ++ out')
  | _, _ => (ret, [])

def copyParamsBackToRee (env : Env) (node : PamNode) (oper : Window) : TeeRet × List Out :=
  let (ret, out) := copyBackLoop env .success node.op node.ree
  (ret, oper.touch operationSize ++ out)

/-- The part of `copy_pam_to_src` for a load command: gtask holds the third
parameter itself, so its size is the one that was copied. -/
def copyLoadBack (env : Env) (node : PamNode) (oper : Window) : List Out :=
  let key := match node.op[2]?, node.ree[2]? with
    | some p, some w =>
      if env.reeSize p = p.size then (copyToSrc w (env.reeSize p) p.size).2 else []
    | _, _ => []
  oper.touch operationSize ++ key

end TeeOs.Gtask
