import TeeOs.Lib.Runs

/-!
# The session threads of a TA

The message loop of `elf_main_entry.c` in every thread of a TA instance. The first thread is
started with `INIT_BUILD` and creates the TA while it opens a session; the others wait for it,
on `g_init_cond` and `g_init_done`. A thread is at one point of the code at a time, and one
event moves one thread on, with the code that the call at this point returns.
-/

namespace TeeOs.TaEntry

open TeeOs.Lib

/-- `struct ta_routine_info`, as far as it decides the order of the calls. -/
structure Routine where
  addcallerFlag : Bool

def getCallerFlag : Option Routine → Bool
  | none => true
  | some routine => routine.addcallerFlag

/-- `TEE_SUCCESS`, `SRE_OK` and the like. -/
def success : Nat := 0

inductive Message
  | openSession
  | invokeCmd
  | closeSession (lastSession : Bool)
  | other
  deriving DecidableEq

/-- Where a thread is. -/
inductive Point
  /-- `msg_rcv_elf` -/
  | receiving
  /-- the call of `tee_init` -/
  | initializing
  /-- in the create entry point -/
  | creating
  /-- before the lock in `tee_task_entry_open_session_check`; with the result of the creation -/
  | created (ret : Nat)
  /-- with the lock there -/
  | announcing (ret : Nat)
  /-- before the unlock there -/
  | announced (ret : Nat)
  /-- before the lock in `tee_task_entry_open_session_main` -/
  | entering
  /-- with the lock, before the test of `g_init_done` -/
  | testing
  /-- in `pthread_cond_wait` -/
  | waiting
  /-- woken there, without the lock -/
  | woken
  /-- before the unlock there -/
  | leaving
  /-- the call of `check_client_perm` -/
  | permitting
  /-- the call of the open-session entry point -/
  | opening
  /-- terminated -/
  | gone
  deriving DecidableEq

/-- What has happened, with the thread and the number of its message. -/
inductive Action
  | created (ret : Nat)
  | permitted (t n : Nat)
  | opened (t n : Nat)
  | invoked (t n : Nat)
  | closed (t n : Nat)
  | destroyed
  deriving DecidableEq

structure State where
  at_ : Nat → Point
  messages : Nat → Nat
  gInitDone : Bool
  gInitMutex : Option Nat
  history : List Action

def State.init : State := ⟨fun _ => .receiving, fun _ => 0, false, none, []⟩

namespace State

def go (t : Nat) (p : Point) (s : State) : State := { s with at_ := Function.update s.at_ t p }

def lock (t : Nat) (s : State) : State := { s with gInitMutex := some t }

def unlock (s : State) : State := { s with gInitMutex := none }

def record (a : Action) (s : State) : State := { s with history := s.history ++ [a] }

/-- `pthread_cond_broadcast`. -/
def broadcast (s : State) : State :=
  { s with at_ := fun t => if s.at_ t = .waiting then .woken else s.at_ t }

end State

/-- The mutex is taken when it is free; a call that fails leads back to the loop. -/
def takeLock (t code : Nat) (next : Point) (s : State) : State :=
  if code ≠ success then s.go t .receiving
  else if s.gInitMutex = none then (s.lock t).go t next
  else s

/-- A message is received; `mapped` says that its parameters could be mapped. -/
def receive (t : Nat) (m : Message) (mapped : Bool) (s : State) : State :=
  let s := { s with messages := Function.update s.messages t (s.messages t + 1) }
  if mapped = false then s
  else
    match m with
    | .openSession => if t = 0 then s.go t .initializing else s.go t .entering
    | .invokeCmd => s.record (.invoked t (s.messages t))
    | .closeSession lastSession =>
      let s := s.record (.closed t (s.messages t))
      if lastSession then s.record .destroyed else s
    | .other => s

variable (routine : Option Routine)

/-- The thread goes on with the code that the call returns. -/
def proceed (t code : Nat) (s : State) : State :=
  match s.at_ t with
  | .receiving | .waiting | .gone => s
  | .initializing => s.go t (if code = success then .creating else .receiving)
  | .creating => (s.record (.created code)).go t (.created code)
  | .created ret => takeLock t code (.announcing ret) s
  | .announcing ret =>
    let s := { s with gInitDone := true }
    if code ≠ success then s.unlock.go t .receiving
    else s.broadcast.go t (.announced ret)
  | .announced ret =>
    if code ≠ success then s.go t .receiving
    else s.unlock.go t (if ret = success then .entering else .receiving)
  | .entering => takeLock t code .testing s
  | .testing =>
    if s.gInitDone then s.go t .leaving
    else if code ≠ success then s.unlock.go t .receiving
    else s.unlock.go t .waiting
  | .woken =>
    if s.gInitMutex ≠ none then s
    else if code ≠ success then s.go t .receiving
    else (s.lock t).go t .leaving
  | .leaving =>
    if code ≠ success then s.go t .receiving
    else s.unlock.go t (if getCallerFlag routine then .permitting else .opening)
  | .permitting =>
    if code ≠ success then s.go t .receiving
    else (s.record (.permitted t (s.messages t))).go t .opening
  | .opening => (s.record (.opened t (s.messages t))).go t .receiving

inductive Event
  | receive (t : Nat) (m : Message) (mapped : Bool)
  | proceed (t code : Nat)
  /-- `pthread_cond_wait` returns by itself -/
  | wake (t : Nat)
  | exit (t : Nat)
  deriving DecidableEq

def step (s : State) : Event → State
  | .receive t m mapped => if s.at_ t = .receiving then receive t m mapped s else s
  | .proceed t code => proceed routine t code s
  | .wake t => if s.at_ t = .waiting then s.go t .woken else s
  | .exit t => (if s.gInitMutex = some t then s.unlock else s).go t .gone

abbrev runs (es : List Event) : State :=
  Runs.runs (step routine) State.init es

/-- The open-session entry point runs after the creation has succeeded and, where this is
asked for, after the client of this request was accepted. -/
structure Ordered (routine : Option Routine) (history : List Action) : Prop where
  created : ∀ before after t n, history = before ++ .opened t n :: after → .created success ∈ before
  permitted : getCallerFlag routine = true → ∀ before after t n,
    history = before ++ .opened t n :: after → .permitted t n ∈ before

end TeeOs.TaEntry
