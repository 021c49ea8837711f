import TeeOs.Lib.Dlist
import TeeOs.PermSrv.TaConfig

/-!
# The registry of TAs, with its pointers

The entries of `g_config_list` and the tasks of each entry are circular lists through
nodes that lie in the entries and tasks themselves (`perm_srv_ta_config.c`, `dlist.h`).
An entry has two such nodes: the one it is listed by, and the head of its task list.
Memory is given out at fresh addresses, so that a pointer to freed memory is seen; an
operation that reads through one, or does not come to an end, gives `none`.
-/

namespace TeeOs.PermSrv

open TeeOs.Lib.Dlist Function

/-- The nodes: `g_config_list`, the two nodes of an entry, and the node of a task. -/
inductive Addr
  | configList
  | head (entry : Nat)
  | tasks (entry : Nat)
  | task (task : Nat)
  deriving DecidableEq

structure Registry where
  links : Links Addr := ⟨id, id⟩
  entry : Nat → Option ConfigInfo := fun _ => none
  task : Nat → Option TaskConfig := fun _ => none
  /-- How many addresses were given out. -/
  allocs : Nat := 0

namespace Registry

variable (s : Registry) (uuid : TeeUuid) (taskid : Nat)

/-- No list has more nodes than addresses were given out. -/
def fuel : Nat := s.allocs + 1

def entryMatches : Addr → Option Bool
  | .head e => (s.entry e).map fun c => decide (c.uuid = uuid)
  | _ => none

def taskMatches : Addr → Option Bool
  | .task t => (s.task t).map fun t => decide (t.taskid = taskid)
  | _ => none

/-- `get_config_entry`, from the tail of the list. -/
def getConfigEntry : Option (Option Nat) :=
  match Links.search s.links.prev (s.entryMatches uuid) .configList s.fuel
      (s.links.prev .configList) with
  | some none => some none
  | some (some (.head e)) => some (some e)
  | _ => none

/-- The first task of an entry with this id. -/
def findTask (e taskid : Nat) : Option (Option Nat) :=
  match Links.search s.links.next (s.taskMatches taskid) (.tasks e) s.fuel
      (s.links.next (.tasks e)) with
  | some none => some none
  | some (some (.task t)) => some (some t)
  | _ => none

/-- The entries from `pos` on, up to one that has the task. -/
def lookupLoop (s : Registry) (taskid : Nat) : Nat → Addr → Option (Option ConfigInfo)
  | 0, _ => none
  | _ + 1, .configList => some none
  | fuel + 1, .head e =>
    match s.entry e, s.findTask e taskid with
    | some c, some (some _) => some (some c)
    | some _, some none => lookupLoop s taskid fuel (s.links.next (.head e))
    | _, _ => none
  | _ + 1, _ => none

def permSrvGetConfigByTaskid : Option (Option ConfigInfo) :=
  s.lookupLoop taskid s.fuel (s.links.next .configList)

/-- A new entry, which is not listed yet. -/
def newEntry (config : ConfigInfo) : Registry :=
  { s with entry := update s.entry s.allocs (some config), allocs := s.allocs + 1 }

/-- A new task at the end of the list of an entry. -/
def addTask (e : Nat) (task : TaskConfig) : Registry :=
  { s with
    links := s.links.insertTail (.task s.allocs) (.tasks e)
    task := update s.task s.allocs (some task)
    allocs := s.allocs + 1 }

def freeEntry (e : Nat) : Registry :=
  { s with entry := update s.entry e none }

def deleteTask (t : Nat) : Registry :=
  { s with links := s.links.delete (.task t), task := update s.task t none }

/-- `perm_srv_register_ta_taskid`: an entry is made if there is none. -/
def permSrvRegisterTaTaskid (taskid userid : Nat) : Option Registry :=
  match s.getConfigEntry uuid with
  | none => none
  | some (some e) => some (s.addTask e ⟨taskid, userid⟩)
  | some none =>
    let e := s.allocs
    let s := s.newEntry { uuid := uuid }
    let s := { s with links := (s.links.init (.tasks e)).insertTail (.head e) .configList }
    some (s.addTask e ⟨taskid, userid⟩)

def permSrvUnregisterTaTaskid : Option Registry :=
  match s.getConfigEntry uuid with
  | none => none
  | some none => some s
  | some (some e) =>
    match s.findTask e taskid with
    | none => none
    | some none => some s
    | some (some t) => some (s.deleteTask t)

/-- `ta_clear_list`, from `pos` on; the node behind it is read before it is freed. -/
def taClearList (e : Nat) : Nat → Addr → Registry → Option Registry
  | 0, _, _ => none
  | fuel + 1, pos, s =>
    if pos = .tasks e then some s
    else match pos with
      | .task t =>
        match s.task t with
        | none => none
        | some _ => taClearList e fuel (s.links.next pos) (s.deleteTask t)
      | _ => none

def permSrvClearTaPermissions : Option Registry :=
  match Links.search s.links.next (s.entryMatches uuid) .configList s.fuel
      (s.links.next .configList) with
  | some none => some s
  | some (some (.head e)) =>
    let s := { s with links := s.links.delete (.head e) }
    (taClearList e s.fuel (s.links.next (.tasks e)) s).map fun s => s.freeEntry e
  | _ => none

/-- `perm_srv_update_config_by_same_uuid`, with the entry that the configuration was read
into. -/
def permSrvUpdateConfigBySameUuid (config : ConfigInfo) : Option Registry :=
  let new := s.allocs
  let s := s.newEntry config
  match s.getConfigEntry config.uuid with
  | none => none
  | some (some old) =>
    let links := s.links.delete (.head old)
    let links := links.replace (.tasks old) (.tasks new)
    some { s.freeEntry old with links := links.insertTail (.head new) .configList }
  | some none =>
    some { s with links := (s.links.init (.tasks new)).insertTail (.head new) .configList }

end Registry

/-! ## Histories -/

inductive RegistryEvent
  | register (uuid : TeeUuid) (taskid userid : Nat)
  | unregister (uuid : TeeUuid) (taskid : Nat)
  | release (uuid : TeeUuid)
  | install (config : ConfigInfo)

def RegistryEvent.run (s : Registry) : RegistryEvent → Option Registry
  | .register uuid taskid userid => s.permSrvRegisterTaTaskid uuid taskid userid
  | .unregister uuid taskid => s.permSrvUnregisterTaTaskid uuid taskid
  | .release uuid => s.permSrvClearTaPermissions uuid
  | .install config => s.permSrvUpdateConfigBySameUuid config

def registryStep (s : Option Registry) (e : RegistryEvent) : Option Registry :=
  s.bind fun s => e.run s

/-- The tasks registered for a TA since it was last released, and not unregistered since. -/
def RegistryEvent.tasks (u : TeeUuid) (ts : List TaskConfig) : RegistryEvent → List TaskConfig
  | .register v taskid userid => if v = u then ts ++ [⟨taskid, userid⟩] else ts
  | .unregister v taskid => if v = u then ts.filter fun t => t.taskid ≠ taskid else ts
  | .release v => if v = u then [] else ts
  | .install _ => ts

/-- The current configuration of a TA: the one installed last, unless it was released
since. A task that is registered before brings an empty one. -/
def RegistryEvent.config (u : TeeUuid) (c : Option ConfigInfo) :
    RegistryEvent → Option ConfigInfo
  | .register v _ _ => if v = u then some (c.getD { uuid := u }) else c
  | .unregister _ _ => c
  | .release v => if v = u then none else c
  | .install new => if new.uuid = u then some new else c

def tasksAfter (es : List RegistryEvent) (u : TeeUuid) : List TaskConfig :=
  es.foldl (RegistryEvent.tasks u) []

def configAfter (es : List RegistryEvent) (u : TeeUuid) : Option ConfigInfo :=
  es.foldl (RegistryEvent.config u) none

end TeeOs.PermSrv
