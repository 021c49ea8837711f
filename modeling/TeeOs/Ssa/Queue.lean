import TeeOs.Lib.Ring

/-!
# The pending messages of the agent

`g_ssa_msg_queue` of `agent.c`: while the agent waits for the normal world it
puts the messages it receives into a ring, and `ssa_get_msg` takes them out
again before it receives the next one. A free slot is one whose command is
`0xFFFFFFFF`. The copies between the slots and the buffers have constant sizes
and do not fail; the answer to an overflow is the outcome `overflow`.
-/

namespace TeeOs.Ssa

open Lib.Ring Function

def ssAgentMsgQueueSize : Nat := 64

/-- The command of a free slot. -/
def freeMsgId : UInt32 := 0xFFFFFFFF

structure SsMsg (M : Type) where
  msgId : UInt32
  sender : UInt32
  msg : M
  deriving DecidableEq

structure SsMsgQueue (M : Type) where
  inPos : Nat
  outPos : Nat
  msg : Nat → SsMsg M

open SsMsgQueue

/-- What a call did to the queue. -/
inductive QueueOutcome (M : Type) where
  | accepted (m : SsMsg M)
  | overflow
  | queued (m : SsMsg M)
  | received (m : SsMsg M)
  deriving DecidableEq

/-- A call of the queue; `get` comes with the message that is received when nothing is queued. -/
inductive QueueCall (M : Type) where
  | add (m : SsMsg M)
  | get (incoming : SsMsg M)

open QueueCall

section Model

variable {M : Type}

def SsMsgQueue.setMsg (q : SsMsgQueue M) (i : Nat) (m : SsMsg M) : SsMsgQueue M :=
  { q with msg := update q.msg i m }

/-- `init_global_param`. -/
def initMsgQueue (blank : M) : SsMsgQueue M := ⟨0, 0, fun _ => ⟨freeMsgId, 0xFFFFFFFF, blank⟩⟩

variable (q : SsMsgQueue M)

def ssaMsgqueueAdd (m : SsMsg M) : QueueOutcome M × SsMsgQueue M :=
  if q.inPos ≥ ssAgentMsgQueueSize then (.overflow, q)
  else if (q.msg q.inPos).msgId = freeMsgId then
    (.accepted m, { q.setMsg q.inPos m with inPos := next ssAgentMsgQueueSize q.inPos })
  else (.overflow, q)

def ssaGetMsg (incoming : SsMsg M) : QueueOutcome M × SsMsgQueue M :=
  if (q.msg q.outPos).msgId ≠ freeMsgId then
    (.queued (q.msg q.outPos), { q.setMsg q.outPos { q.msg q.outPos with msgId := freeMsgId } with
        outPos := next ssAgentMsgQueueSize q.outPos })
  else (.received incoming, q)

def QueueCall.run : QueueCall M → QueueOutcome M × SsMsgQueue M
  | .add m => ssaMsgqueueAdd q m
  | .get incoming => ssaGetMsg q incoming

/-- The outcomes of a run and the queue it leaves. -/
def runQueue (q : SsMsgQueue M) : List (QueueCall M) → List (QueueOutcome M) × SsMsgQueue M
  | [] => ([], q)
  | c :: cs => ((c.run q).1 :: (runQueue (c.run q).2 cs).1, (runQueue (c.run q).2 cs).2)

def QueueOutcome.acceptedMsg? : QueueOutcome M → Option (SsMsg M)
  | .accepted m => some m
  | _ => none

def QueueOutcome.queuedMsg? : QueueOutcome M → Option (SsMsg M)
  | .queued m => some m
  | _ => none

/-- The messages the outcomes accepted into the queue, in that order. -/
def acceptedMsgs (os : List (QueueOutcome M)) : List (SsMsg M) :=
  os.filterMap QueueOutcome.acceptedMsg?

/-- The messages the outcomes took out of it. -/
def queuedMsgs (os : List (QueueOutcome M)) : List (SsMsg M) :=
  os.filterMap QueueOutcome.queuedMsg?

/-- The slot for the next message is taken. -/
abbrev SsMsgQueue.Full (q : SsMsgQueue M) : Prop := (q.msg q.inPos).msgId ≠ freeMsgId

/-- No call puts a message with the command of a free slot into the queue. -/
def NoFreeMsgId (q : SsMsgQueue M) : List (QueueCall M) → Prop
  | [] => True
  | .add m :: cs => (m.msgId = freeMsgId → q.Full) ∧
      NoFreeMsgId (ssaMsgqueueAdd q m).2 cs
  | .get incoming :: cs => NoFreeMsgId (ssaGetMsg q incoming).2 cs

/-- What a lossless bounded queue has done in a run: `pending` was accepted and not handed out yet;
a further message is refused only at the limit, and the next calls hand out what is pending. -/
structure Lossless (os : List (QueueOutcome M)) (q : SsMsgQueue M) (pending : List (SsMsg M)) :
    Prop where
  order : acceptedMsgs os = queuedMsgs os ++ pending
  bound : pending.length ≤ ssAgentMsgQueueSize
  refuses : ∀ m, (ssaMsgqueueAdd q m).1 = .overflow → pending.length = ssAgentMsgQueueSize
  drains : ∀ incoming : List (SsMsg M), incoming.length = pending.length →
    (runQueue q (incoming.map .get)).1 = pending.map .queued

end Model

variable {M : Type} {q : SsMsgQueue M} {m : SsMsg M} {pending : List (SsMsg M)}

section Ring

/-- The message in a slot, if it is not free. -/
def SsMsgQueue.slot (q : SsMsgQueue M) (i : Nat) : Option (SsMsg M) :=
  if (q.msg i).msgId = freeMsgId then none else some (q.msg i)

/-- The queue is a ring that holds `pending`. -/
def Queued (q : SsMsgQueue M) (pending : List (SsMsg M)) : Prop :=
  Represents ssAgentMsgQueueSize q.slot q.inPos q.outPos pending

theorem slot_eq_none {i : Nat} : q.slot i = none ↔ (q.msg i).msgId = freeMsgId := by
  unfold slot
  by_cases h : (q.msg i).msgId = freeMsgId
  · rw [if_pos h]
    exact ⟨fun _ => h, fun _ => rfl⟩
  · rw [if_neg h]
    constructor
    · intro hs
      cases hs
    · intro hf
      exact absurd hf h

theorem slot_setMsg {i : Nat} : (q.setMsg i m).slot =
      update q.slot i (if m.msgId = freeMsgId then none else some m) := by
  funext k
  by_cases hk : k = i
  · subst hk
    simp only [slot, setMsg, update_self]
  · simp only [slot, setMsg, update_of_ne hk]

theorem init_queued (blank : M) : Queued (initMsgQueue blank) [] :=
  represents_empty (by decide) fun _ => if_pos rfl

theorem Queued.add_full (h : Queued q pending) (hfull : pending.length = ssAgentMsgQueueSize) :
    ssaMsgqueueAdd q m = (.overflow, q) := by
  have hbusy : ¬ (q.msg q.inPos).msgId = freeMsgId := by
    intro hfree
    have hlt := h.slot_in_none.mp (slot_eq_none.mpr hfree)
    omega
  unfold ssaMsgqueueAdd
  rw [if_neg (Nat.not_le.mpr h.in_lt), if_neg hbusy]

theorem Queued.add (h : Queued q pending) (hlt : pending.length < ssAgentMsgQueueSize) :
    (ssaMsgqueueAdd q m).1 = .accepted m ∧
      (m.msgId ≠ freeMsgId → Queued (ssaMsgqueueAdd q m).2 (pending ++ [m])) := by
  have hfree := slot_eq_none.mp (h.slot_in_none.mpr hlt)
  unfold ssaMsgqueueAdd
  rw [if_neg (Nat.not_le.mpr h.in_lt), if_pos hfree]
  refine ⟨rfl, fun hm => ?_⟩
  have hpush := Represents.push h hlt m
  change Represents _ (q.setMsg q.inPos m).slot _ _ _
  rw [slot_setMsg, if_neg hm]
  exact hpush

theorem Queued.get_nil (h : Queued q []) (incoming : SsMsg M) :
    ssaGetMsg q incoming = (.received incoming, q) := by
  have hfree := slot_eq_none.mp h.slot_out
  unfold ssaGetMsg
  rw [if_neg (not_not.mpr hfree)]

theorem Queued.get_cons (h : Queued q (m :: pending)) (incoming : SsMsg M) :
    (ssaGetMsg q incoming).1 = .queued m ∧ Queued (ssaGetMsg q incoming).2 pending := by
  have hout : q.slot q.outPos = some m := h.slot_out
  have hbusy : (q.msg q.outPos).msgId ≠ freeMsgId := by
    intro hfree
    rw [slot_eq_none.mpr hfree] at hout
    cases hout
  have hmsg : q.msg q.outPos = m := by
    unfold slot at hout
    rw [if_neg hbusy] at hout
    exact Option.some.inj hout
  unfold ssaGetMsg
  rw [if_pos hbusy]
  refine ⟨congrArg QueueOutcome.queued hmsg, ?_⟩
  have hpop := Represents.pop h
  change Represents _ (q.setMsg q.outPos _).slot _ _ _
  rw [slot_setMsg, if_pos rfl]
  exact hpop

theorem Queued.drains (h : Queued q pending) {incoming : List (SsMsg M)}
    (hl : incoming.length = pending.length) :
    (runQueue q (incoming.map .get)).1 = pending.map .queued := by
  induction pending generalizing q incoming with
  | nil =>
    rw [List.length_nil, List.length_eq_zero_iff] at hl
    rw [hl]
    rfl
  | cons m pending ih =>
    cases incoming with
    | nil => cases hl
    | cons x incoming =>
      obtain ⟨hret, hrest⟩ := h.get_cons x
      have htail := ih hrest (Nat.succ.inj hl)
      simp only [List.map_cons, runQueue, run, hret, htail]

end Ring

section Runs

/-- From a queue that holds `pending`, a run hands out a list that continues what it accepts. -/
theorem Queued.run (h : Queued q pending) {cs : List (QueueCall M)} (hcs : NoFreeMsgId q cs) :
    ∃ rest, pending ++ acceptedMsgs (runQueue q cs).1 = queuedMsgs (runQueue q cs).1 ++ rest ∧
      Queued (runQueue q cs).2 rest := by
  induction cs generalizing q pending with
  | nil => exact ⟨pending, List.append_nil _, h⟩
  | cons c cs ih =>
    cases c with
    | add m =>
      obtain ⟨hm, htail⟩ := hcs
      rcases Nat.lt_or_ge pending.length ssAgentMsgQueueSize with hlt | hge
      · obtain ⟨hret, hnext⟩ := h.add hlt
        have hne : m.msgId ≠ freeMsgId := by
          intro hfree
          exact hm hfree (slot_eq_none.mp (h.slot_in_none.mpr hlt))
        obtain ⟨rest, horder, hrest⟩ := ih (hnext hne) htail
        refine ⟨rest, ?_, hrest⟩
        rw [List.append_assoc] at horder
        simp only [runQueue, run, hret]
        exact horder
      · have hfull := h.add_full (m := m) (Nat.le_antisymm h.length_le hge)
        rw [hfull] at htail
        obtain ⟨rest, horder, hrest⟩ := ih h htail
        refine ⟨rest, ?_, ?_⟩
        · simp only [runQueue, run, hfull]
          exact horder
        · simp only [runQueue, run, hfull]
          exact hrest
    | get incoming =>
      cases pending with
      | nil =>
        have hnone := h.get_nil incoming
        unfold NoFreeMsgId at hcs
        rw [hnone] at hcs
        obtain ⟨rest, horder, hrest⟩ := ih h hcs
        refine ⟨rest, ?_, ?_⟩
        · simp only [runQueue, run, hnone]
          exact horder
        · simp only [runQueue, run, hnone]
          exact hrest
      | cons m pending =>
        obtain ⟨hret, hnext⟩ := h.get_cons incoming
        obtain ⟨rest, horder, hrest⟩ := ih hnext hcs
        refine ⟨rest, ?_, hrest⟩
        simp only [runQueue, run, hret]
        exact congrArg (m :: ·) horder

theorem Queued.lossless {os : List (QueueOutcome M)} (h : Queued q pending)
    (horder : acceptedMsgs os = queuedMsgs os ++ pending) : Lossless os q pending where
  order := horder
  bound := h.length_le
  refuses := by
    intro m hover
    rcases Nat.lt_or_ge pending.length ssAgentMsgQueueSize with hlt | hge
    · rw [(h.add hlt).1] at hover
      cases hover
    · exact Nat.le_antisymm h.length_le hge
  drains := fun _ hl => h.drains hl

/-- In every run that queues no message with the command of a free slot, the queue is a lossless
bounded FIFO at every point. -/
theorem msgQueue_lossless (blank : M) {cs : List (QueueCall M)}
    (hcs : NoFreeMsgId (initMsgQueue blank) cs) :
    ∃ pending, Lossless (runQueue (initMsgQueue blank) cs).1 (runQueue (initMsgQueue blank) cs).2
      pending := by
  obtain ⟨pending, horder, h⟩ := (init_queued blank).run hcs
  exact ⟨pending, h.lossless horder⟩

theorem msgQueue_lossless_sample :
    ∃ pending, Lossless (runQueue (initMsgQueue ()) [.add ⟨5, 1, ()⟩, .add ⟨6, 2, ()⟩]).1
      (runQueue (initMsgQueue ()) [.add ⟨5, 1, ()⟩, .add ⟨6, 2, ()⟩]).2 pending :=
  msgQueue_lossless () ⟨by decide, by decide, trivial⟩

/-- A message with the command `0xFFFFFFFF` is accepted and never handed out: behind it, the next
message waits while `ssa_get_msg` receives. -/
theorem msgQueue_stuck : ¬ ∃ pending, Lossless
      (runQueue (initMsgQueue ()) [.add ⟨0xFFFFFFFF, 1, ()⟩, .add ⟨5, 2, ()⟩]).1
      (runQueue (initMsgQueue ()) [.add ⟨0xFFFFFFFF, 1, ()⟩, .add ⟨5, 2, ()⟩]).2 pending := by
  rintro ⟨pending, h⟩
  have horder := h.order
  subst horder
  have hget := h.drains [⟨7, 3, ()⟩, ⟨7, 3, ()⟩] rfl
  revert hget
  decide

end Runs

end TeeOs.Ssa
