import TeeOs.Ssa.Queue
import TeeOs.Ssa.Tables

/-!
# The main loop of the agent

`ssa_handle_msg` takes one message after the other. Wherever the handling of a
message needs an answer of gtask or of the normal world, the agent sits in
`ssa_wait_msg` and `ssa_deal_msg` looks at everything else that arrives. The
points where it waits are the phases of `AgentState`: an event is a message that
arrives, or the awaited answer, which lets the handling go on up to the next wait.
-/

namespace TeeOs.Ssa

/-- The messages that work through an open handle. -/
inductive AccessCmd where
  | read | write | seek | truncate | info | attributes | sync | fileAbort
  | rename (newId : String)
  deriving DecidableEq

inductive FileMsg where
  | create (fileId : String) (flags : DataFlags)
  | openObject (fileId : String) (flags : DataFlags)
  | close (obj : Nat)
  | closeAndDelete (obj : Nat)
  | access (cmd : AccessCmd) (obj : Nat)
  | getEnumFileSize
  | startEnumerator
  deriving DecidableEq

/-- What `union ssa_agent_msg` holds for the commands in `g_ssa_cmd_tbl`. -/
inductive AgentMsg where
  | registerAgent
  | openTaSession (taskId uuid : Nat)
  | closeTaSession (taskId : Nat)
  | file (op : FileMsg)
  deriving DecidableEq

/-- `is_file_modify` of `g_ssa_cmd_tbl`. -/
def AccessCmd.modifies : AccessCmd → Bool
  | write | seek | truncate | rename _ => true
  | _ => false

def AccessCmd.cmd : AccessCmd → UInt32
  | attributes => 0x124
  | write => 0x125
  | read => 0x126
  | seek => 0x127
  | truncate => 0x128
  | rename _ => 0x129
  | sync => 0x12a
  | info => 0x12b
  | fileAbort => 0x12e

def FileMsg.cmd : FileMsg → UInt32
  | create .. => 0x121
  | openObject .. => 0x122
  | close _ => 0x12c
  | closeAndDelete _ => 0x12d
  | access cmd _ => cmd.cmd
  | getEnumFileSize => 0x141
  | startEnumerator => 0x142

def AgentMsg.cmd : AgentMsg → UInt32
  | openTaSession .. => 0x1001
  | closeTaSession _ => 0x1002
  | registerAgent => 0x1003
  | file op => op.cmd

/-- The task ids of the two services that the agent knows. -/
structure Handles where
  globalTask : Nat
  permsrv : Nat

/-- What the agent waits for. The indices of a client and of a file instance stand for the
pointers that are kept across the wait. -/
inductive Phase where
  /-- in `ssa_get_msg`. -/
  | idle
  /-- for the answer to `TEE_TASK_SET_CALLER_INFO`, with the message in hand. -/
  | callerInfo (sender : Nat) (msg : AgentMsg)
  /-- `ssa_fs_faccess` in `create_permission_check`. -/
  | checking (sender : Nat) (object : ObjectId) (flags : DataFlags)
  /-- `ssa_open`, or `ssa_create` and the first writes. -/
  | opening (sender : Nat) (sfd : LinkedSfd) (created : Bool)
  /-- `get_object_attr_header`, with the new handle. -/
  | heading (sender obj : Nat)
  /-- `ssa_close` and `ssa_sync` in `close_file_from_client`. -/
  | closing (i j : Nat)
  | syncing (i j : Nat)
  /-- `ssa_close_and_delete` in `delete_file`. -/
  | deleting (i j : Nat)
  | accessing (sender i j : Nat) (cmd : AccessCmd)
  /-- `ssa_close` in the loop of `unregister_uuid`, and the instances to come. -/
  | cleaning (i j : Nat) (rest : List Nat)
  /-- a wait that no access to the tables follows. -/
  | working
  deriving DecidableEq

/-- The globals of the agent. `sessions` are the task ids of the sessions that were opened
and not closed again, as the messages received so far tell. -/
structure AgentState where
  tables : Tables
  queue : SsMsgQueue AgentMsg
  isSsaReg : Bool
  phase : Phase
  sessions : List Nat

/-- A message arrives, or the answer the agent waits for. -/
inductive AgentEvent where
  | message (sender : UInt32) (msg : AgentMsg)
  | answer (ok : Bool)

/-- `init_global_param`. -/
def initAgent : AgentState := ⟨initTables, initMsgQueue .registerAgent, false, .idle, []⟩

namespace AgentState

variable (t : Tables) (h : Handles) (s : AgentState) (sender : Nat)

/-- The sessions after a message has been received. -/
def noted (sessions : List Nat) (sender : Nat) : AgentMsg → List Nat
  | .openTaSession taskId _ =>
    if sender = h.globalTask ∨ sender = h.permsrv then taskId :: sessions else sessions
  | .closeTaSession taskId =>
    if sender = h.globalTask ∨ sender = h.permsrv then sessions.erase taskId else sessions
  | _ => sessions

def ssaRegisterAgent : AgentState :=
  if s.isSsaReg then s
  else if sender ≠ h.globalTask then s
  else { s with isSsaReg := true }

def ssaRegisterUuid (sender taskId uuid : Nat) : AgentState :=
  if sender = h.globalTask ∨ sender = h.permsrv then
    { s with tables := registerUuid s.tables taskId uuid }
  else s

/-- The end of `ssa_deal_msg`. -/
def queueMsg (sender : UInt32) (msg : AgentMsg) : AgentState :=
  if isClientRegister s.tables sender.toNat then
    { s with queue := (ssaMsgqueueAdd s.queue ⟨msg.cmd, sender, msg⟩).2 }
  else s

/-- `ssa_deal_msg`: a message that arrives while the agent waits. -/
def ssaDealMsg (sender : UInt32) (msg : AgentMsg) : AgentState :=
  match msg with
  | .openTaSession taskId uuid => ssaRegisterUuid h s sender.toNat taskId uuid
  | .closeTaSession taskId =>
    let r := preUnregisterUuid s.tables taskId
    if r.1 then { s with tables := r.2 }.queueMsg sender msg else { s with tables := r.2 }
  | .registerAgent => ssaRegisterAgent h s sender.toNat
  | .file _ => s.queueMsg sender msg

/-- The loop of `unregister_uuid` over the instances `js`, up to the first `ssa_close`. -/
def forceCleanFrom (s : AgentState) (i : Nat) : List Nat → AgentState
  | [] => { s with
      tables := s.tables.setClient i
        { s.tables.clients i with uuid := 0, taskId := 0, dead := false }
      phase := .idle }
  | j :: js =>
    match (s.tables.clients i).fileInstance j with
    | none => forceCleanFrom s i js
    | some k =>
      let link := s.tables.privateStorage k
      if link.linkCount = 0 then
        forceCleanFrom { s with tables := s.tables.setInstance i j none } i js
      else if link.linkCount - 1 = 0 then
        { s with
          tables := s.tables.setLink k { link with linkCount := 0 }
          phase := .cleaning i j js }
      else
        let t := s.tables.setLink k { link with linkCount := link.linkCount - 1 }
        forceCleanFrom { s with tables := t.setInstance i j none } i js

def unregisterClient (taskId : Nat) : AgentState :=
  match unregGetSenderClient s.tables taskId with
  | none => { s with phase := .idle }
  | some i =>
    let t := s.tables.setClient i { s.tables.clients i with dead := true }
    forceCleanFrom { s with tables := t } i (List.range maxClientOpenFiles)

/-- `close_file_from_client` up to its wait. -/
def closeFile (sender obj : Nat) : AgentState :=
  match fileLinkOf s.tables sender obj with
  | none => { s with phase := .idle }
  | some (i, k) =>
    let link := s.tables.privateStorage k
    if link.linkCount = 0 then { s with phase := .idle }
    else
      { s with
        tables := s.tables.setLink k { link with linkCount := link.linkCount - 1 },
        phase := if link.linkCount - 1 = 0 then .closing i (obj - 1) else .syncing i (obj - 1) }

/-- `get_file_pointer`: the instance, if its file is there; a handle whose file was deleted is
dropped. -/
def getFilePointer (sender obj : Nat) : Option (Nat × Nat) × Tables :=
  match fileLinkOf t sender obj with
  | none => (none, t)
  | some (i, k) =>
    let link := t.privateStorage k
    if link.sfd = none then
      (none, (t.setLink k { link with linkCount := link.linkCount - 1 }).setInstance i (obj - 1) none)
    else (some (i, obj - 1), t)

def flagsAt (i j : Nat) : Option DataFlags :=
  ((t.clients i).fileInstance j).bind fun k => (t.privateStorage k).sfd.map LinkedSfd.flags

/-- `ssa_close_and_delete_object` up to its first wait. -/
def closeAndDelete (sender obj : Nat) : AgentState :=
  match getSenderClient s.tables sender with
  | none => { s with phase := .idle }
  | some _ =>
    match getFilePointer s.tables sender obj with
    | (none, t) => { s with tables := t, phase := .idle }
    | (some (i, j), t) =>
      if (flagsAt t i j).any DataFlags.accessWriteMeta then
        { s with tables := t, phase := .deleting i j }
      else { s with tables := t }.closeFile sender obj

def fileProc : FileMsg → AgentState
  | .create fileId flags =>
    match getSenderClient s.tables sender with
    | none => { s with phase := .idle }
    | some i => { s with phase := .checking sender ⟨(s.tables.clients i).uuid, fileId⟩ flags }
  | .openObject fileId flags =>
    match getSenderClient s.tables sender with
    | none => { s with phase := .idle }
    | some i =>
      if sharedAccess s.tables ⟨(s.tables.clients i).uuid, fileId⟩ flags true then
        { s with phase := .opening sender ⟨⟨(s.tables.clients i).uuid, fileId⟩, flags⟩ false }
      else { s with phase := .idle }
  | .close obj => s.closeFile sender obj
  | .closeAndDelete obj => s.closeAndDelete sender obj
  | .access cmd obj =>
    match getFilePointer s.tables sender obj with
    | (none, t) => { s with tables := t, phase := .idle }
    | (some (i, j), t) => { s with tables := t, phase := .accessing sender i j cmd }
  | .getEnumFileSize | .startEnumerator => { s with phase := .working }

def ssaCmdProc : AgentMsg → AgentState
  | .registerAgent => ssaRegisterAgent h { s with phase := .idle } sender
  | .openTaSession taskId uuid => ssaRegisterUuid h { s with phase := .idle } sender taskId uuid
  | .closeTaSession taskId =>
    if sender = h.globalTask ∨ sender = h.permsrv then s.unregisterClient taskId
    else { s with phase := .idle }
  | .file op => if s.isSsaReg then s.fileProc sender op else { s with phase := .idle }

/-- `set_ssa_caller_info` up to its wait. -/
def setSsaCallerInfo (msg : AgentMsg) : AgentState :=
  match msg with
  | .closeTaSession _ => { s with phase := .callerInfo sender msg }
  | _ =>
    if sender = h.globalTask then s.ssaCmdProc h sender msg
    else { s with phase := .callerInfo sender msg }

def receive (sender : UInt32) (msg : AgentMsg) : AgentState :=
  match s.phase with
  | .idle =>
    match ssaGetMsg s.queue ⟨msg.cmd, sender, msg⟩ with
    | (.queued m, q) => { s with queue := q }.setSsaCallerInfo h m.sender.toNat m.msg
    | (_, q) =>
      { s with queue := q, sessions := noted h s.sessions sender.toNat msg }.setSsaCallerInfo h
        sender.toNat msg
  | _ => ssaDealMsg h { s with sessions := noted h s.sessions sender.toNat msg } sender msg

/-- Taking an instance and what is left of its link out of the tables. -/
def dropInstance (i j : Nat) (f : FileLink → FileLink) : Tables :=
  match (t.clients i).fileInstance j with
  | none => t
  | some k => (t.setLink k (f (t.privateStorage k))).setInstance i j none

def renameAt (i j : Nat) (newId : String) : Tables :=
  match (t.clients i).fileInstance j with
  | none => t
  | some k => t.setLink k { t.privateStorage k with
      sfd := (t.privateStorage k).sfd.map fun sfd =>
        { sfd with object := { sfd.object with fileId := newId } } }

/-- The handling goes on with the answer; `ok` is what it says. -/
def goOn (ok : Bool) : AgentState :=
  match s.phase with
  | .idle => s
  | .callerInfo sender msg => if ok then s.ssaCmdProc h sender msg else { s with phase := .idle }
  | .checking sender object flags =>
    if ok && sharedAccess s.tables object flags false then
      { s with phase := .opening sender ⟨object, flags⟩ true }
    else { s with phase := .idle }
  | .opening sender sfd created =>
    if ok then
      match createFileInstanceToClient s.tables sender sfd with
      | (none, t) => { s with tables := t, phase := .working }
      | (some obj, t) =>
        { s with tables := t, phase := if created then .working else .heading sender obj }
    else { s with phase := .working }
  | .heading sender obj => if ok then { s with phase := .idle } else s.closeFile sender obj
  | .closing i j =>
    { s with
      tables := dropInstance s.tables i j fun l => { l with sfd := none, firstOpened := false }
      phase := .idle }
  | .syncing i j => { s with tables := dropInstance s.tables i j id, phase := .idle }
  | .deleting i j =>
    { s with
      tables := dropInstance s.tables i j fun l => { l with sfd := none, linkCount := l.linkCount - 1 }
      phase := .working }
  | .accessing sender i j cmd =>
    if ok then
      match cmd with
      | .rename newId => { s with tables := renameAt s.tables i j newId, phase := .working }
      | _ => { s with phase := .idle }
    else if cmd.modifies then
      { s with tables := (getFilePointer s.tables sender (j + 1)).2, phase := .idle }
    else { s with phase := .idle }
  | .cleaning i j rest =>
    forceCleanFrom { s with tables := dropInstance s.tables i j fun l => { l with sfd := none } } i rest
  | .working => { s with phase := .idle }

def step : AgentEvent → AgentState
  | .message sender msg => s.receive h sender msg
  | .answer ok => s.goOn h ok

end AgentState

end TeeOs.Ssa
