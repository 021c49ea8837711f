import TeeOs.Gtask.State

/-!
# Locking and unlocking of agents

A session that asks for an agent gets it when it is free and waits in the agent's list
otherwise; one that unlocks an agent hands it to the first in that list. One that does
not hold it is taken out of the list by a loop that runs until the list is empty; a call
that never returns has no result for any fuel.

Lists are their elements. That a session waits for one agent only is not checked.
-/

namespace TeeOs.Gtask.AgentLock

/-- The answers of `tee_unblock_agent`. -/
inductive LockAck
  | agentLock
  | invalidAgent
  deriving DecidableEq

structure AgentControl where
  locked : Bool := false
  lockingSession : Option Nat := none
  waitingSessions : List Nat := []
  buffer : Nat := 0

/-- The agents by their ids, the list of those registered, and for each session the
agents it holds and the answers sent to it. -/
structure AgentState where
  listed : Nat → Bool
  control : Nat → AgentControl
  lockedAgents : Nat → List Nat
  acks : List (Nat × LockAck) := []

namespace AgentState

variable (s : AgentState) (id : Nat)

def edit (f : AgentControl → AgentControl) : AgentState :=
  { s with control := Function.update s.control id (f (s.control id)) }

def teeUnblockAgent (session : Nat) (ack : LockAck) : AgentState :=
  { s with acks := s.acks ++ [(session, ack)] }

/-- `tee_lock_agent` with `add_waiting_session`. -/
def teeLockAgent (id session : Nat) : TeeRet × AgentState :=
  if s.listed id = false then (.generic, s)
  else if (s.control id).lockingSession = some session then (.success, s)
  else if (s.control id).locked then
    (.busy, s.edit id fun c => if session ∈ c.waitingSessions then c
      else { c with waitingSessions := c.waitingSessions ++ [session] })
  else
    let t := s.edit id fun c => { c with lockingSession := some session, locked := true }
    (.success, { t with
      lockedAgents := Function.update t.lockedAgents session (t.lockedAgents session ++ [id]) })

def isSystemAgent : Bool :=
  [0x46536673, 0x4d495343, 0x69e85664, 0x4c4f4144, 0x564c544d].contains id

/-- `process_lock_agent`; `permitted` is the answer of `check_system_agent_permission`. -/
def processLockAgent (permitted : Bool) (s : AgentState) (id session : Nat) : TeeRet × AgentState :=
  if isSystemAgent id && !permitted then
    (.badParameters, s.teeUnblockAgent session .invalidAgent)
  else
    match s.teeLockAgent id session with
    | (.success, t) => (.success, t.teeUnblockAgent session .agentLock)
    | (.busy, t) => (.busy, t)
    | (ret, t) => (ret, t.teeUnblockAgent session .invalidAgent)

/-- `tee_unlock_agent`: the agent goes to the first session that waits for it. -/
def teeUnlockAgent : AgentState :=
  let t := s.edit id fun c => { c with locked := false, lockingSession := none, buffer := 0 }
  match (t.control id).waitingSessions with
  | [] => t
  | first :: rest =>
    match (t.edit id fun c => { c with waitingSessions := rest }).teeLockAgent id first with
    | (.success, t) => t.teeUnblockAgent first .agentLock
    | (_, t) => t.teeUnblockAgent first .invalidAgent

/-- The loop over the waiting list: its first session is removed if it is the sender,
and looked at again if it is not. -/
def dropWaiting (session : Nat) : Nat → List Nat → Option (List Nat)
  | 0, _ => none
  | _ + 1, [] => some []
  | fuel + 1, w :: ws =>
    if w = session then dropWaiting session fuel ws else dropWaiting session fuel (w :: ws)

def processUnlockAgent (fuel : Nat) (s : AgentState) (id session : Nat) :
    Option (TeeRet × AgentState) :=
  if id ∈ s.lockedAgents session then
    let t := { s with
      lockedAgents := Function.update s.lockedAgents session ((s.lockedAgents session).erase id) }
    some (.success, (t.teeUnlockAgent id).teeUnblockAgent session .agentLock)
  else if s.listed id = false then some (.generic, s.teeUnblockAgent session .invalidAgent)
  else do
    let waiting ← dropWaiting session fuel (s.control id).waitingSessions
    let t := s.edit id fun c => { c with waitingSessions := waiting }
    return (.generic, t.teeUnblockAgent session .agentLock)

def waiting : List Nat := (s.control id).waitingSessions

end AgentState

open AgentState List Function

variable {s : AgentState} {id session : Nat} {l : List Nat}

/-- `l'` is `l` without the session at most, the others in their order. -/
def LosesAtMost (session : Nat) (l l' : List Nat) : Prop :=
  l'.Sublist l ∧ l'.filter (· ≠ session) = l.filter (· ≠ session)

theorem LosesAtMost.refl (session : Nat) (l : List Nat) : LosesAtMost session l l :=
  ⟨List.Sublist.refl l, rfl⟩

/-- The call returns, and every waiting list loses the sender at most. -/
def Unlocks (s : AgentState) (id session : Nat) : Prop :=
  ∃ fuel ret t, s.processUnlockAgent fuel id session = some (ret, t) ∧
    ∀ a, LosesAtMost session (s.waiting a) (t.waiting a)

/-- The loop only returns when nobody but the sender is in the list. -/
theorem dropWaiting_eq_some {fuel : Nat} {l' : List Nat} (h : dropWaiting session fuel l = some l') :
    l' = [] ∧ ∀ w ∈ l, w = session := by
  induction fuel generalizing l with
  | zero => simp [dropWaiting] at h
  | succ fuel ih =>
    cases l with
    | nil => simpa [dropWaiting, eq_comm] using h
    | cons w ws =>
      rw [dropWaiting] at h
      split at h
      · obtain ⟨hl, hall⟩ := ih h
        exact ⟨hl, by simpa [*] using hall⟩
      · exact ih h

theorem dropWaiting_all (h : ∀ w ∈ l, w = session) :
    dropWaiting session (l.length + 1) l = some [] := by
  induction l with
  | nil => rfl
  | cons w ws ih =>
    rw [length_cons, dropWaiting, if_pos (h w mem_cons_self)]
    exact ih fun v hv => h v (mem_cons_of_mem w hv)

theorem waiting_edit (s : AgentState) (id a : Nat) (f : AgentControl → AgentControl) :
    (s.edit id f).waiting a = if a = id then (f (s.control id)).waitingSessions else s.waiting a := by
  simp only [waiting, edit]
  by_cases h : a = id
  · rw [h, if_pos rfl, update_self]
  · rw [if_neg h, update_of_ne h]

theorem waiting_teeUnblockAgent (s : AgentState) (session a : Nat) (ack : LockAck) :
    (s.teeUnblockAgent session ack).waiting a = s.waiting a := rfl

/-- A free agent is locked without any change of the waiting lists. -/
theorem waiting_teeLockAgent (s : AgentState) (id session a : Nat)
    (hfree : (s.control id).locked = false) (hnone : (s.control id).lockingSession = none) :
    (s.teeLockAgent id session).2.waiting a = s.waiting a := by
  unfold teeLockAgent
  rw [hfree, hnone]
  split
  · rfl
  · show (s.edit id fun c => { c with lockingSession := some session, locked := true }).waiting a = _
    rw [waiting_edit]
    grind [waiting]

/-- Handing the agent on removes the first of its waiting list. -/
theorem waiting_teeUnlockAgent (s : AgentState) (id a : Nat) :
    (s.teeUnlockAgent id).waiting a = if a = id then (s.waiting id).tail else s.waiting a := by
  unfold teeUnlockAgent
  simp only [edit, update_self]
  cases hw : (s.control id).waitingSessions with
  | nil => grind [waiting, update]
  | cons first rest =>
    simp only [update_idem]
    have hlock := waiting_teeLockAgent
      { s with control := update s.control id { waitingSessions := rest } } id first a
      (by simp) (by simp)
    split <;> rename_i hres <;> rw [hres] at hlock <;>
      exact hlock.trans (by grind [waiting, update])

/-- The agent is not handed to another session, and the loop finds nobody but the
sender. -/
def Harmless (s : AgentState) (id session : Nat) : Prop :=
  if id ∈ s.lockedAgents session then ∀ w ∈ (s.waiting id).head?, w = session
  else s.listed id = true → ∀ w ∈ s.waiting id, w = session

theorem losesAtMost_tail_iff : LosesAtMost session l l.tail ↔ ∀ w ∈ l.head?, w = session := by
  cases l with
  | nil => simp [LosesAtMost]
  | cons w ws =>
    simp only [LosesAtMost, tail_cons, sublist_cons_self, true_and, head?_cons,
      Option.mem_some_iff, forall_eq']
    by_cases h : w = session
    · simp [h]
    · refine iff_of_false (fun heq => ?_) h
      have hlen := congrArg List.length heq
      simp [h] at hlen

theorem losesAtMost_nil (h : ∀ w ∈ l, w = session) : LosesAtMost session l [] := by
  refine ⟨nil_sublist l, ?_⟩
  symm
  simpa using h

theorem Unlocks.only_sender (hheld : id ∉ s.lockedAgents session) (hlisted : s.listed id = true)
    (h : Unlocks s id session) : ∀ w ∈ s.waiting id, w = session := by
  obtain ⟨fuel, ret, t, h, -⟩ := h
  simp only [processUnlockAgent, if_neg hheld, hlisted, Bool.true_eq_false, if_false] at h
  obtain ⟨l, hl, -⟩ := Option.bind_eq_some_iff.mp h
  exact (dropWaiting_eq_some hl).2

/-- The agents before any message: one registered agent, nobody holds or waits. -/
def oneAgent : AgentState := { listed := (· = 7), control := fun _ => {}, lockedAgents := fun _ => [] }

end TeeOs.Gtask.AgentLock
