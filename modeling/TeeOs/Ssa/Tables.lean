import TeeOs.Lib.Runs
import TeeOs.Ssa.Agent

/-!
# The clients of the agent and their open files

`g_clients` and `g_private_storage` of `secure_storage_agent.c`. A client has a
row of file instances; an instance points to a link of the private storage, and
the link to the descriptor of an open file. Of a descriptor only the object and
the open flags are kept here. Whether the storage carried out an open or a
create is a choice of the environment (`stored`).
-/

namespace TeeOs.Ssa

open Lib.Runs List

def srvMaxClients : Nat := 80

def maxClientOpenFiles : Nat := 24

def maxPrivateOpenFiles : Nat := 64

/-- The object behind a descriptor: the uuid of the TA and the file id. -/
structure ObjectId where
  uuid : Nat
  fileId : String
  deriving DecidableEq

structure LinkedSfd where
  object : ObjectId
  flags : DataFlags
  deriving DecidableEq

structure FileLink where
  sfd : Option LinkedSfd
  linkCount : Nat
  firstOpened : Bool
  deriving DecidableEq

/-- `client_t`; an instance holds the index of its link. -/
structure Client where
  uuid : Nat
  taskId : Nat
  dead : Bool
  fileInstance : Nat → Option Nat

structure Tables where
  clients : Nat → Client
  privateStorage : Nat → FileLink

/-- A client slot after `memset_s`. -/
def noClient : Client := ⟨0, 0, false, fun _ => none⟩

def initTables : Tables := ⟨fun _ => noClient, fun _ => ⟨none, 0, false⟩⟩

namespace Tables

def setClient (s : Tables) (i : Nat) (c : Client) : Tables :=
  { s with clients := Function.update s.clients i c }

def setLink (s : Tables) (k : Nat) (l : FileLink) : Tables :=
  { s with privateStorage := Function.update s.privateStorage k l }

def setInstance (s : Tables) (i j : Nat) (link : Option Nat) : Tables :=
  s.setClient i { s.clients i with
    fileInstance := Function.update (s.clients i).fileInstance j link }

end Tables

section Clients

variable (s : Tables) (sender : Nat)

def getSenderClientProc (dead : Bool) : Option Nat :=
  (range srvMaxClients).find? fun i =>
    decide ((s.clients i).taskId = sender ∧ (s.clients i).dead = dead)

def getSenderClient : Option Nat := getSenderClientProc s sender false

def isClientRegister : Bool := (getSenderClient s sender).isSome

def unregGetSenderClient : Option Nat :=
  match getSenderClientProc s sender true with
  | some i => some i
  | none => getSenderClientProc s sender false

/-- `register_uuid`: the first free slot, or none. -/
def registerUuid (sender uuid : Nat) : Tables :=
  match (range srvMaxClients).find? fun i => decide ((s.clients i).taskId = 0) with
  | none => s
  | some i => s.setClient i ⟨uuid, sender, false, fun _ => none⟩

/-- `files_count == 0`. -/
def noFiles (c : Client) : Bool := (range maxClientOpenFiles).all fun j => (c.fileInstance j).isNone

/-- `pre_unregister_uuid`: whether the client is marked dead now, and the tables. -/
def preUnregisterUuid (taskId : Nat) : Bool × Tables :=
  match getSenderClientProc s taskId false with
  | none => (false, s)
  | some i =>
    if noFiles (s.clients i) then (false, s.setClient i noClient)
    else (true, s.setClient i { s.clients i with dead := true })

end Clients

section Files

variable (s : Tables) (object : ObjectId) (sender : Nat)

/-- One round of the loop of `unregister_uuid`, for the client in slot `i`. -/
def forceClean (i j : Nat) : Tables :=
  match (s.clients i).fileInstance j with
  | none => s
  | some k =>
    let link := s.privateStorage k
    if link.linkCount = 0 then s.setInstance i j none
    else if link.linkCount - 1 = 0 then
      (s.setLink k { link with linkCount := 0, sfd := none }).setInstance i j none
    else (s.setLink k { link with linkCount := link.linkCount - 1 }).setInstance i j none

def unregisterUuid : Tables :=
  match unregGetSenderClient s sender with
  | none => s
  | some i =>
    let t := (range maxClientOpenFiles).foldl (fun t j => forceClean t i j)
      (s.setClient i { s.clients i with dead := true })
    t.setClient i { t.clients i with uuid := 0, taskId := 0, dead := false }

def checkSharedAccess (old flags : DataFlags) : Bool :=
  !(flags.accessRead && !(old.shareRead && flags.shareRead)) &&
  !(flags.accessWrite && !(old.shareWrite && flags.shareWrite)) &&
  !(flags.accessWriteMeta || old.accessWriteMeta) &&
  !decide (flags = ⟨false, false, false, false, false, false, false, false⟩)

/-- The link is in use for the object. -/
def FileLink.serves (l : FileLink) (object : ObjectId) : Bool :=
  l.linkCount != 0 && l.sfd.any fun sfd => sfd.object == object

/-- `find_already_open`: only a link marked `first_opened` is found. -/
def findAlreadyOpen : Option Nat :=
  (range maxPrivateOpenFiles).find? fun k =>
    (s.privateStorage k).serves object && (s.privateStorage k).firstOpened

/-- Another link than `k` serves the object. -/
def opensElsewhere (k : Nat) (object : ObjectId) : Bool :=
  (range maxPrivateOpenFiles).any fun j => j != k && (s.privateStorage j).serves object

/-- `create_file_instance_to_client`: the number of the handle, if there is room. -/
def createFileInstanceToClient (sfd : LinkedSfd) : Option Nat × Tables :=
  match getSenderClient s sender with
  | none => (none, s)
  | some i =>
    match (range maxPrivateOpenFiles).find? fun k =>
        decide ((s.privateStorage k).linkCount = 0) with
    | none => (none, s)
    | some k =>
      match (range maxClientOpenFiles).find? fun j =>
          ((s.clients i).fileInstance j).isNone with
      | none => (none, s)
      | some j =>
        (some (j+1), (s.setLink k ⟨some sfd, 1, !opensElsewhere s k sfd.object⟩).setInstance i j
          (some k))

/-- The sharing check in front of an open or a create; `lost` is the answer for a link without a
descriptor. -/
def sharedAccess (flags : DataFlags) (lost : Bool) : Bool :=
  match findAlreadyOpen s object with
  | none => true
  | some k =>
    match (s.privateStorage k).sfd with
    | none => lost
    | some sfd => checkSharedAccess sfd.flags flags

/-- The common course of `open_file` and `create_object`. -/
def admitFile (fileId : String) (flags : DataFlags)
    (lost stored : Bool) : Tables :=
  match getSenderClient s sender with
  | none => s
  | some i =>
    let object : ObjectId := ⟨(s.clients i).uuid, fileId⟩
    if sharedAccess s object flags lost && stored then
      (createFileInstanceToClient s sender ⟨object, flags⟩).2
    else s

def openFile (fileId : String) (flags : DataFlags) (stored : Bool) : Tables :=
  admitFile s sender fileId flags true stored

def createObject (fileId : String) (flags : DataFlags)
    (stored : Bool) : Tables :=
  admitFile s sender fileId flags false stored

variable (sender obj : Nat)

/-- The slot of the client and the link behind a handle. -/
def fileLinkOf : Option (Nat × Nat) :=
  match getSenderClient s sender with
  | none => none
  | some i =>
    if obj = 0 ∨ obj > maxClientOpenFiles then none
    else ((s.clients i).fileInstance (obj - 1)).map fun k => (i, k)

def closeFileFromClient : Tables :=
  match fileLinkOf s sender obj with
  | none => s
  | some (i, k) =>
    let link := s.privateStorage k
    if link.linkCount = 0 then s
    else if link.linkCount - 1 = 0 then
      (s.setLink k ⟨none, 0, false⟩).setInstance i (obj - 1) none
    else (s.setLink k { link with linkCount := link.linkCount - 1 }).setInstance i (obj - 1) none

def deleteFile : Tables :=
  match fileLinkOf s sender obj with
  | none => s
  | some (i, k) =>
    let link := s.privateStorage k
    if link.sfd = none then s
    else
      (s.setLink k { link with sfd := none, linkCount := link.linkCount - 1 }).setInstance i (obj - 1)
        none

/-- `ssa_close_and_delete_object`; `get_file_pointer` drops a handle whose file was deleted. -/
def ssaCloseAndDeleteObject : Tables :=
  match fileLinkOf s sender obj with
  | none => s
  | some (i, k) =>
    match (s.privateStorage k).sfd with
    | none =>
      (s.setLink k { s.privateStorage k with
        linkCount := (s.privateStorage k).linkCount - 1 }).setInstance i (obj - 1) none
    | some sfd =>
      if sfd.flags.accessWriteMeta = false then closeFileFromClient s sender obj
      else deleteFile s sender obj

end Files

/-- The messages that change the tables. -/
inductive TableMsg where
  | register (taskId uuid : Nat)
  | preUnregister (taskId : Nat)
  | unregister (taskId : Nat)
  | create (sender : Nat) (fileId : String) (flags : DataFlags) (stored : Bool)
  | openObject (sender : Nat) (fileId : String) (flags : DataFlags) (stored : Bool)
  | close (sender obj : Nat)
  | closeAndDelete (sender obj : Nat)

def Tables.step (s : Tables) : TableMsg → Tables
  | .register taskId uuid => registerUuid s taskId uuid
  | .preUnregister taskId => (preUnregisterUuid s taskId).2
  | .unregister taskId => unregisterUuid s taskId
  | .create sender fileId flags stored => createObject s sender fileId flags stored
  | .openObject sender fileId flags stored => openFile s sender fileId flags stored
  | .close sender obj => closeFileFromClient s sender obj
  | .closeAndDelete sender obj => ssaCloseAndDeleteObject s sender obj

end TeeOs.Ssa
