import TeeOs.Gtask.ServiceThread
import TeeOs.Lib.Runs

/-!
# The requests of the service thread are served in order

A log beside the state of gtask holds the requests that were accepted for the service
thread, those put out, and those put out and not yet answered.
-/

namespace TeeOs.Gtask

open TeeOs.Lib TeeOs.Lib.Runs List Keyed Bool

/-- The request an event adds. -/
def ThreadEvent.accepted : ThreadEvent → List Nat
  | request _ agentId => [agentId]
  | _ => []

open ThreadEvent

/-- The request an event answers: its slot and its agent. -/
def ThreadEvent.answers : ThreadEvent → Option (Nat × Nat)
  | response slot agentId => some (slot, agentId)
  | _ => none

/-- gtask, with what has become of the requests. -/
structure ServiceLog where
  g : Globals
  accepted : List Nat := []
  put : List Nat := []
  outstanding : List (Nat × Nat) := []

namespace ServiceLog

def step (l : ServiceLog) (e : Env × Event) : ServiceLog :=
  let g := gtaskStep l.g e
  let event := l.g.threadEvent e.2
  { g
    accepted := l.accepted ++ (event.map ThreadEvent.accepted).getD []
    put := l.put ++ g.thread.puts.map Prod.snd
    outstanding := (l.outstanding.filter fun p => event.bind answers ≠ some p) ++
      g.thread.puts }

/-- The agents whose answer the service thread is to bring. -/
def waiting (l : ServiceLog) : List Nat := l.outstanding.map Prod.snd ++ l.g.svcPending

/-- A service asks for its own agent and not before the last answer; the slot is not
replaced under a request; an agent that is waited for answers the request that is out,
in its slot. -/
def inTurn (l : ServiceLog) (e : Env × Event) : Bool :=
  match l.g.threadEvent e.2 with
  | some (.request task agentId) =>
    l.g.agents.any fun a => a.taskId = task && a.agentId = agentId && !a.pending
  | some (.setServeCmd slot) => !l.g.svcWorking || slot = l.g.svcCmd.eventNr
  | some (.response slot agentId) =>
    !(l.g.agents.any fun a => a.agentId = agentId && a.pending) ||
      if slot = l.g.svcCmd.eventNr then
        !l.g.svcWorking || l.outstanding.contains (slot, agentId)
      else !l.waiting.contains agentId
  | _ => true

/-- At most one request is out, and in the slot of the service thread; requests wait
only while one is out; what was put out is what was accepted, in that order, up to the
requests that wait. -/
structure Orderly (l : ServiceLog) : Prop where
  single : l.outstanding.length ≤ 1
  inSlot : ∀ p ∈ l.outstanding, p.1 = l.g.svcCmd.eventNr
  queued : l.g.svcPending ≠ [] → l.g.svcWorking = true
  order : l.accepted = l.put ++ l.g.svcPending
  rest : l.outstanding = [] → l.g.svcWorking = false

/-- The next request is put out, or the service thread is done. -/
def PassedOn (l l' : ServiceLog) : Prop :=
  (∃ agentId, l.g.svcPending = agentId :: l'.g.svcPending ∧ l'.put = l.put ++ [agentId]) ∨
    l'.g.svcWorking = false

end ServiceLog

/-- The service thread has nothing to do; each agent is served by one service. -/
structure Globals.ServiceIdle (g : Globals) : Prop where
  slot : g.svcCmd.eventNr < maxSmcCmd
  working : g.svcWorking = false
  pending : g.svcPending = []
  tasks : (g.agents.map BuildinAgent.taskId).Nodup
  ids : (g.agents.map BuildinAgent.agentId).Nodup

/-! ### The service thread by itself -/

variable {t : Thread} {o : List (Nat × Nat)} {e : ThreadEvent} {task caller : TaskId}
  {slot agentId : Nat} {b : Bool} {a : BuildinAgent}

/-- The service of the agent waits for an answer. -/
def Thread.Awaits (t : Thread) (agentId : Nat) : Prop :=
  ∃ a ∈ t.agents, a.agentId = agentId ∧ a.pending = true

open Thread

/-- The requests that are out, and the agents that are waited for. -/
inductive Thread.Turn (t : Thread) : List (Nat × Nat) → Prop where
  | idle (working : t.working = false) (pending : t.pending = []) : Turn t []
  | busy (agentId : Nat) (working : t.working = true) (distinct : (agentId :: t.pending).Nodup)
      (awaits : ∀ id ∈ agentId :: t.pending, t.Awaits id) : Turn t [(t.slot, agentId)]

/-- No two services share a task or an agent; the slot is one. -/
structure Thread.Sound (t : Thread) : Prop where
  slot : t.slot < maxSmcCmd
  tasks : (t.agents.map BuildinAgent.taskId).Nodup
  ids : (t.agents.map BuildinAgent.agentId).Nodup

namespace Thread

theorem put_eq (t : Thread) (h : t.slot < maxSmcCmd) :
    t.put agentId = { t with puts := t.puts ++ [(t.slot, agentId)] } := if_neg (Nat.not_le.mpr h)

theorem Awaits.edit_true (h : t.Awaits agentId) : (t.editAgent task true).Awaits agentId := by
  obtain ⟨a, ha, hid, hp⟩ := h
  refine ⟨_, mem_edit.mpr ⟨a, ha, rfl⟩, ?_, ?_⟩
  · split <;> exact hid
  · split
    · rfl
    · exact hp

/-- A change of the table under which the agents that are waited for still are. -/
theorem Turn.change {t' : Thread} (h : t.Turn o) (hslot : t'.slot = t.slot)
    (hworking : t'.working = t.working) (hpending : t'.pending = t.pending)
    (hawaits : ∀ id ∈ o.map Prod.snd ++ t.pending, t.Awaits id → t'.Awaits id) : t'.Turn o := by
  cases h with
  | idle working pending => exact .idle (hworking.trans working) (hpending.trans pending)
  | busy agentId working distinct awaits =>
    rw [← hslot]
    apply Turn.busy agentId (hworking.trans working)
    · rw [hpending]; exact distinct
    · rw [hpending]
      intro id hid
      exact hawaits id hid (awaits id hid)

/-- After an event the turn is kept, and the accepted requests are those put out and
those that wait. -/
structure Served (t : Thread) (o : List (Nat × Nat)) (e : ThreadEvent) : Prop where
  turn : (t.step e).Turn (o.filter (fun p => e.answers ≠ some p) ++ (t.step e).puts)
  order : t.pending ++ e.accepted = (t.step e).puts.map Prod.snd ++ (t.step e).pending

/-- An event that neither adds nor answers a request. -/
theorem Served.of_turn {t' : Thread} (hstep : t.step e = t')
    (hanswers : ∀ p ∈ o, e.answers ≠ some p) (haccepted : e.accepted = [])
    (hputs : t'.puts = []) (hpending : t'.pending = t.pending) (ht : t'.Turn o) : t.Served o e := by
  subst hstep
  constructor
  · rw [filter_eq_self.mpr fun p hp => decide_eq_true (hanswers p hp), hputs, append_nil]
    exact ht
  · rw [haccepted, hputs, hpending, append_nil, map_nil, nil_append]

/-- A response nobody waits for does nothing. -/
theorem step_response_unasked (h : ¬t.Awaits agentId) : t.step (.response slot agentId) = t := by
  unfold step
  dsimp only
  split
  · rfl
  · next a ha =>
    have hid := find?_some ha
    have hid : a.agentId = agentId := of_decide_eq_true hid
    cases hp : a.pending with
    | false => rfl
    | true => exact absurd ⟨a, mem_of_find?_eq_some ha, hid, hp⟩ h

theorem dequeue_elsewhere (h : slot ≠ t.slot) : t.dequeue slot = t := if_pos h

theorem dequeue_last (h : t.pending = []) : t.dequeue t.slot = { t with working := false } := by
  unfold dequeue
  rw [if_neg (not_not_intro rfl), h]

theorem dequeue_next {next : Nat} {rest : List Nat} (hslot : t.slot < maxSmcCmd)
    (h : t.pending = next :: rest) :
    t.dequeue t.slot = { t with pending := rest, puts := t.puts ++ [(t.slot, next)] } := by
  unfold dequeue
  rw [if_neg (not_not_intro rfl), h]
  exact put_eq { t with pending := rest } hslot

section

variable (ha : a ∈ t.agents)
include ha

theorem awaits_own : (t.editAgent a.taskId true).Awaits a.agentId :=
  ⟨{ a with pending := true }, mem_edit.mpr ⟨a, ha, (if_pos rfl).symm⟩, rfl, rfl⟩

variable (hs : t.Sound)
include hs

/-- The answer for one service leaves the others waiting. -/
theorem Awaits.edit_false (h : t.Awaits agentId) (hne : a.agentId ≠ agentId) :
    (t.editAgent a.taskId false).Awaits agentId := by
  obtain ⟨c, hc, hid, hp⟩ := h
  have htask : c.taskId ≠ a.taskId := by
    intro heq
    have hca : c = a := inj_on_of_nodup_map hs.tasks hc ha heq
    exact hne (hca ▸ hid)
  exact ⟨c, mem_edit.mpr ⟨c, hc, (if_neg htask).symm⟩, hid, hp⟩

theorem not_awaits (hp : a.pending = false) : ¬t.Awaits a.agentId := by
  rintro ⟨c, hc, hid, hc'⟩
  have hca : c = a := inj_on_of_nodup_map hs.ids hc ha hid
  rw [hca, hp] at hc'
  exact false_ne_true hc'

theorem served_request (h0 : t.puts = []) (ht : t.Turn o) (hp : a.pending = false) :
    t.Served o (.request a.taskId a.agentId) := by
  have hkeep : o.filter (fun p => (request a.taskId a.agentId).answers ≠ some p) = o :=
    filter_eq_self.mpr fun p _ => decide_eq_true nofun
  cases ht with
  | idle working pending =>
    have hstep : t.step (.request a.taskId a.agentId) =
        { t.editAgent a.taskId true with working := true, puts := [(t.slot, a.agentId)] } := by
      have hw : ¬t.working = true := eq_false_iff.mp working
      show (if t.working then _ else _) = _
      rw [if_neg hw]
      refine (put_eq ({ t with working := true }.editAgent a.taskId true) hs.slot).trans ?_
      simp only [editAgent, h0, nil_append]
    constructor
    · rw [hkeep, hstep]
      apply Turn.busy a.agentId rfl
      · show (a.agentId :: t.pending).Nodup
        rw [pending]
        exact nodup_singleton _
      · show ∀ id ∈ a.agentId :: t.pending, _
        rw [pending]
        intro id hid
        rw [mem_singleton.mp hid]
        exact awaits_own ha
    · rw [hstep]
      show t.pending ++ [a.agentId] = [a.agentId] ++ t.pending
      rw [pending, nil_append, append_nil]
  | busy agentId working distinct awaits =>
    have hstep : t.step (.request a.taskId a.agentId) =
        { t.editAgent a.taskId true with pending := t.pending ++ [a.agentId] } := if_pos working
    have hnew : a.agentId ∉ agentId :: t.pending := fun hm => not_awaits ha hs hp (awaits _ hm)
    constructor
    · rw [hkeep, hstep]
      show Turn _ ([(t.slot, agentId)] ++ t.puts)
      rw [h0, append_nil]
      refine Turn.busy agentId working ?_ ?_
      · exact distinct.append (nodup_singleton _) (disjoint_singleton.mpr hnew)
      · show ∀ id ∈ (agentId :: t.pending) ++ [a.agentId], _
        intro id hid
        rcases mem_append.mp hid with hid | hid
        · exact (awaits id hid).edit_true
        · rw [mem_singleton.mp hid]
          exact awaits_own ha
    · rw [hstep]
      show t.pending ++ [a.agentId] = t.puts.map Prod.snd ++ (t.pending ++ [a.agentId])
      rw [h0, map_nil, nil_append]

theorem step_response (slot : Nat) (hp : a.pending = true) :
    t.step (.response slot a.agentId) = (t.editAgent a.taskId false).dequeue slot := by
  unfold step
  dsimp only
  rw [find?_of_mem hs.ids ha]
  simp only [hp, Bool.not_true, Bool.false_eq_true, if_false]

/-- The answer to the request that is out. -/
theorem served_answer (h0 : t.puts = []) (hp : a.pending = true) (working : t.working = true)
    (distinct : (a.agentId :: t.pending).Nodup) (awaits : ∀ id ∈ t.pending, t.Awaits id) :
    t.Served [(t.slot, a.agentId)] (.response t.slot a.agentId) := by
  have hgone : [(t.slot, a.agentId)].filter
      (fun p => (response t.slot a.agentId).answers ≠ some p) = [] := by
    simp [answers]
  have hstep := step_response ha hs t.slot hp
  cases hq : t.pending with
  | nil =>
    have hlast := hstep.trans (dequeue_last hq)
    constructor
    · rw [hgone, hlast]
      show Turn _ ([] ++ t.puts)
      rw [h0]
      exact .idle rfl hq
    · rw [hlast]
      show t.pending ++ [] = t.puts.map Prod.snd ++ t.pending
      rw [h0, hq]
      rfl
  | cons next rest =>
    have hnext : t.step (.response t.slot a.agentId) =
        { t.editAgent a.taskId false with pending := rest, puts := t.puts ++ [(t.slot, next)] } :=
      hstep.trans (dequeue_next hs.slot hq)
    rw [hq, nodup_cons] at distinct
    constructor
    · rw [hgone, hnext]
      rw [h0]
      refine Turn.busy next working distinct.2 ?_
      intro id hid
      have hne : a.agentId ≠ id := fun heq => distinct.1 (heq ▸ hid)
      exact (awaits id (hq ▸ hid)).edit_false ha hs hne
    · rw [hnext]
      show t.pending ++ [] = (t.puts ++ [(t.slot, next)]).map Prod.snd ++ rest
      rw [h0, hq, append_nil]
      rfl

end

section

variable (h0 : t.puts = []) (ht : t.Turn o)
include h0 ht

theorem served_inSession : t.Served o (.inSession task) :=
  .of_turn rfl (fun _ _ => nofun) rfl h0 rfl (ht.change rfl rfl rfl fun _ _ hw => hw.edit_true)

theorem served_callerInfo : t.Served o (.callerInfo task caller) := by
  refine .of_turn rfl (fun _ _ => nofun) rfl h0 rfl (ht.change rfl rfl rfl ?_)
  rintro id - ⟨a, ha, hid, hp⟩
  refine ⟨_, mem_edit.mpr ⟨a, ha, rfl⟩, ?_, ?_⟩
  · split <;> exact hid
  · split <;> exact hp

theorem served_setServeCmd (hslot : t.working = true → slot = t.slot) :
    t.Served o (.setServeCmd slot) := by
  refine .of_turn rfl (fun _ _ => nofun) rfl h0 rfl ?_
  cases ht with
  | idle working pending => exact .idle working pending
  | busy agentId working distinct awaits =>
    rw [hslot working]
    exact .busy agentId working distinct awaits

theorem served_response (hs : t.Sound)
    (hslot : t.Awaits agentId → slot = t.slot → t.working = true → (slot, agentId) ∈ o)
    (helse : t.Awaits agentId → slot ≠ t.slot → agentId ∉ o.map Prod.snd ++ t.pending) :
    t.Served o (.response slot agentId) := by
  by_cases hw : t.Awaits agentId
  · obtain ⟨a, ha, rfl, hp⟩ := hw
    have hstep := step_response ha hs slot hp
    by_cases hsl : slot = t.slot
    · subst hsl
      cases ht with
      | idle working pending =>
        have hlast := hstep.trans (dequeue_last pending)
        exact .of_turn hlast nofun rfl h0 rfl (.idle rfl pending)
      | busy id working distinct awaits =>
        cases mem_singleton.mp (hslot ⟨a, ha, rfl, hp⟩ rfl working)
        exact served_answer ha hs h0 hp working distinct fun id hid =>
          awaits id (mem_cons_of_mem _ hid)
    · have hout := helse ⟨a, ha, rfl, hp⟩ hsl
      refine .of_turn (hstep.trans (dequeue_elsewhere hsl)) ?_ rfl h0 rfl ?_
      · rintro p hp' heq
        cases heq
        exact hout (mem_append_left _ (mem_map_of_mem hp'))
      · refine ht.change rfl rfl rfl fun id hid hw => hw.edit_false ha hs fun heq => ?_
        exact hout (heq ▸ hid)
  · refine .of_turn (step_response_unasked hw) (fun p hp heq => ?_) rfl h0 rfl ht
    cases ht with
    | idle _ _ => cases hp
    | busy id working distinct awaits =>
      cases mem_singleton.mp hp
      cases heq
      exact hw (awaits _ mem_cons_self)

end

variable (h : t.Sound)
include h

/-- An edit of the table that leaves tasks and agents. -/
theorem Sound.edit {f : BuildinAgent → BuildinAgent} (htask : ∀ a, (f a).taskId = a.taskId)
    (hid : ∀ a, (f a).agentId = a.agentId) :
    { t with agents := edit BuildinAgent.taskId task f t.agents }.Sound := by
  constructor
  · exact h.slot
  · rw [map_edit fun a _ _ => htask a]
    exact h.tasks
  · rw [map_edit fun a _ _ => hid a]
    exact h.ids

theorem sound_editAgent : (t.editAgent task b).Sound :=
  h.edit (fun _ => rfl) fun _ => rfl

theorem Sound.of_eq {t' : Thread} (hslot : t'.slot = t.slot) (hagents : t'.agents = t.agents) :
    t'.Sound := by
  constructor
  · rw [hslot]; exact h.slot
  · rw [hagents]; exact h.tasks
  · rw [hagents]; exact h.ids

theorem sound_put : (t.put agentId).Sound := by
  rw [put_eq t h.slot]
  exact h.of_eq rfl rfl

theorem sound_dequeue : (t.dequeue slot).Sound := by
  unfold dequeue
  split
  · exact h
  · split
    · exact h.of_eq rfl rfl
    · next rest _ => exact sound_put (h.of_eq rfl rfl)

/-- The table of the agents stays what it is but for who waits and for whom. -/
theorem sound_step (hslot : ∀ slot, e = .setServeCmd slot → slot < maxSmcCmd) :
    (t.step e).Sound := by
  cases e with
  | request task agentId =>
    show (if t.working then _ else _ : Thread).Sound
    split
    · exact sound_editAgent (h.of_eq rfl rfl)
    · exact sound_put (sound_editAgent (h.of_eq rfl rfl))
  | inSession task => exact sound_editAgent h
  | setServeCmd slot => exact ⟨hslot slot rfl, h.tasks, h.ids⟩
  | response slot agentId =>
    by_cases hw : t.Awaits agentId
    · obtain ⟨a, ha, rfl, hp⟩ := hw
      rw [step_response ha h slot hp]
      exact sound_dequeue (sound_editAgent h)
    · rw [step_response_unasked hw]
      exact h
  | callerInfo task caller => exact h.edit (fun _ => rfl) fun _ => rfl

end Thread

/-! ### The runs of gtask -/

namespace ServiceLog

variable {l : ServiceLog} {g : Globals} {es : List (Env × Event)} {e : Env × Event} {p : Nat × Nat}

/-- What holds along a run in which everything is in turn. -/
structure Inv (l : ServiceLog) : Prop where
  sound : l.g.thread.Sound
  turn : l.g.thread.Turn l.outstanding
  order : l.accepted = l.put ++ l.g.svcPending

theorem Inv.orderly (h : l.Inv) : l.Orderly := by
  have hturn := h.turn
  generalize ho : l.outstanding = o at hturn
  cases hturn with
  | idle working pending =>
    constructor
    · rw [ho]; exact Nat.zero_le 1
    · rw [ho]; exact nofun
    · exact fun hne => absurd pending hne
    · exact h.order
    · exact fun _ => working
  | busy agentId working distinct awaits =>
    constructor
    · rw [ho]; exact Nat.le_refl 1
    · rw [ho]
      intro p hp
      rw [mem_singleton.mp hp]
      rfl
    · exact fun _ => working
    · exact h.order
    · rw [ho]; exact nofun

theorem requestEvent_ne_setServeCmd : g.requestEvent task agentId ≠ some (.setServeCmd slot) := by
  unfold Globals.requestEvent
  split
  · split <;> exact fun h => nomatch Option.some.inj h
  · exact nofun

theorem threadEvent_slot {e : Event} (h : g.threadEvent e = some (.setServeCmd slot)) :
    slot < maxSmcCmd := by
  cases e with
  | nsCmd cmd =>
    unfold Globals.threadEvent at h
    dsimp only at h
    split_ifs at h with htakes hkind hadmit <;> cases h
    unfold Globals.takes at htakes
    simp only [not_eq_true', not_eq_false, and_eq_true, decide_eq_true_eq] at htakes
    exact htakes.1
  | taMsg task back ret agentId | agentRequest task agentId =>
    exact absurd h requestEvent_ne_setServeCmd
  | setCallerInfo task caller =>
    obtain ⟨a, -, ha⟩ := Option.map_eq_some_iff.1 h
    cases ha
  | _ => cases h

/-- Only one request is out, so its answer leaves none. -/
theorem answered_none (h : l.Inv) (hp : p ∈ l.outstanding) :
    l.outstanding.filter (fun q => some p ≠ some q) = [] := by
  rw [filter_eq_nil_iff]
  intro q hq
  obtain ⟨x, hx⟩ := length_eq_one_iff.mp (Nat.le_antisymm h.orderly.single (length_pos_of_mem hp))
  rw [hx, mem_singleton] at hp hq
  simp [hp, hq]

section

variable (h : l.Inv) (hturn : l.inTurn e = true)
include h hturn

/-- What is in turn for gtask is what the service thread by itself needs. -/
theorem served_of_inTurn {te : ThreadEvent} (he : l.g.threadEvent e.2 = some te) :
    l.g.thread.fresh.Served l.outstanding te := by
  have hs : l.g.thread.fresh.Sound := h.sound.of_eq rfl rfl
  have ht : l.g.thread.fresh.Turn l.outstanding :=
    h.turn.change rfl rfl rfl fun _ _ hw => hw
  unfold inTurn at hturn
  rw [he] at hturn
  cases te with
  | request task agentId =>
    obtain ⟨a, ha, hcond⟩ := any_eq_true.mp hturn
    simp only [Bool.and_eq_true, decide_eq_true_eq, Bool.not_eq_true'] at hcond
    obtain ⟨⟨rfl, rfl⟩, hp⟩ := hcond
    exact served_request ha hs rfl ht hp
  | inSession task => exact served_inSession rfl ht
  | callerInfo task caller => exact served_callerInfo rfl ht
  | setServeCmd slot =>
    apply served_setServeCmd rfl ht
    intro hw
    have hw : l.g.svcWorking = true := hw
    rw [hw] at hturn
    exact of_decide_eq_true hturn
  | response slot agentId =>
    have hasked : l.g.thread.fresh.Awaits agentId →
        (l.g.agents.any fun a => a.agentId = agentId && a.pending) = true := by
      rintro ⟨a, ha, hid, hp⟩
      exact any_eq_true.mpr ⟨a, ha, by rw [hid, hp, decide_eq_true rfl]; rfl⟩
    apply served_response rfl ht hs
    · intro hw hslot hworking
      have hworking : l.g.svcWorking = true := hworking
      have hslot : slot = l.g.svcCmd.eventNr := hslot
      simp only [hasked hw, if_pos hslot, hworking, Bool.not_true, Bool.false_or] at hturn
      exact contains_iff_mem.mp hturn
    · intro hw hslot
      have hslot : ¬slot = l.g.svcCmd.eventNr := hslot
      simp only [hasked hw, if_neg hslot, Bool.not_true, Bool.false_or, Bool.not_eq_true'] at hturn
      intro hmem
      have hmem : agentId ∈ l.waiting := hmem
      rw [contains_iff_mem.mpr hmem] at hturn
      exact Bool.noConfusion hturn

theorem inv_step (htraffic : e.2.serviceTraffic = true) : (l.step e).Inv := by
  have hthread : (gtaskStep l.g e).thread = _ := thread_gtaskStep htraffic
  have hs : l.g.thread.fresh.Sound := h.sound.of_eq rfl rfl
  unfold step
  cases he : l.g.threadEvent e.2 with
  | none =>
    rw [he] at hthread
    constructor
    · rw [hthread]; exact hs
    · show (gtaskStep l.g e).thread.Turn
        ((l.outstanding.filter fun p => none ≠ some p) ++ (gtaskStep l.g e).thread.puts)
      rw [hthread, filter_eq_self.mpr fun p _ => decide_eq_true nofun]
      show Thread.Turn _ (l.outstanding ++ [])
      rw [append_nil]
      exact h.turn.change rfl rfl rfl fun _ _ hw => hw
    · show l.accepted ++ [] = l.put ++ (gtaskStep l.g e).thread.puts.map Prod.snd ++
        (gtaskStep l.g e).thread.pending
      rw [hthread, append_nil]
      show l.accepted = l.put ++ [] ++ l.g.svcPending
      rw [append_nil]
      exact h.order
  | some te =>
    rw [he] at hthread
    have hserved := served_of_inTurn h hturn he
    constructor
    · rw [hthread]
      exact sound_step hs fun slot heq => threadEvent_slot (heq ▸ he)
    · show (gtaskStep l.g e).thread.Turn
        ((l.outstanding.filter fun p => te.answers ≠ some p) ++ (gtaskStep l.g e).thread.puts)
      rw [hthread]
      exact hserved.turn
    · show l.accepted ++ te.accepted = l.put ++ (gtaskStep l.g e).thread.puts.map Prod.snd ++
        (gtaskStep l.g e).thread.pending
      rw [hthread, h.order, append_assoc, append_assoc]
      exact congrArg (l.put ++ ·) hserved.order

/-- After the answer to the request that is out the next one is put out, or the service
thread rests. -/
theorem passedOn_step (htraffic : e.2.serviceTraffic = true) (hp : p ∈ l.outstanding)
    (hans : (l.g.threadEvent e.2).bind answers = some p) : l.PassedOn (l.step e) := by
  have hafter : (l.step e).Inv := inv_step h hturn htraffic
  have haccepted : (l.step e).accepted = l.accepted := by
    obtain ⟨te, he, hte⟩ := Option.bind_eq_some_iff.mp hans
    cases te with
    | response slot agentId =>
      show l.accepted ++ ((l.g.threadEvent e.2).map ThreadEvent.accepted).getD [] = _
      rw [he]
      exact append_nil _
    | _ => cases hte
  have hout : (l.step e).outstanding = (gtaskStep l.g e).thread.puts := by
    show (l.outstanding.filter fun q => (l.g.threadEvent e.2).bind answers ≠ some q) ++ _ = _
    rw [hans, answered_none h hp, nil_append]
  have hput : (l.step e).put = l.put ++ (gtaskStep l.g e).thread.puts.map Prod.snd := rfl
  have horder : l.g.svcPending =
      (gtaskStep l.g e).thread.puts.map Prod.snd ++ (l.step e).g.svcPending := by
    have horder := hafter.order
    rw [haccepted, h.order, hput, append_assoc] at horder
    exact append_cancel_left horder
  cases hputs : (gtaskStep l.g e).thread.puts with
  | nil => exact .inr (hafter.orderly.rest (hout.trans hputs))
  | cons q rest =>
    have hsingle := hafter.orderly.single
    rw [hout, hputs, length_cons] at hsingle
    have hrest : rest = [] := eq_nil_of_length_eq_zero (by omega)
    rw [hputs, hrest] at horder hput
    exact .inl ⟨q.2, horder, hput⟩

end

theorem inv_start (h : g.ServiceIdle) : (ServiceLog.mk g [] [] []).Inv where
  sound := ⟨h.slot, h.tasks, h.ids⟩
  turn := .idle h.working h.pending
  order := by rw [h.pending]; rfl

theorem inv_run (h : g.ServiceIdle) (htraffic : ∀ e ∈ es, e.2.serviceTraffic = true)
    (hturn : Along step (fun l e => l.inTurn e = true) { g } es) : (runs step { g } es).Inv :=
  invariant_run (fun _ _ hi hok => inv_step hi hok.2 hok.1) (inv_start h)
    ((Along.of_forall htraffic).and hturn)

end ServiceLog

/-- In every run of requests of service agents, `SET_SERVE_CMD` commands and responses
in which everything is in turn, the requests of the service thread are put out one at a
time and in their order, and each answer to the one that is out brings the next. -/
theorem service_requests_in_order (g : Globals) (es : List (Env × Event)) (h : g.ServiceIdle)
    (htraffic : ∀ e ∈ es, e.2.serviceTraffic = true)
    (hturn : Along ServiceLog.step (fun l e => l.inTurn e = true) { g } es) :
    (runs ServiceLog.step { g } es).Orderly ∧
      ∀ e p, (runs ServiceLog.step { g } es).inTurn e = true → e.2.serviceTraffic = true →
        p ∈ (runs ServiceLog.step { g } es).outstanding →
        ((runs ServiceLog.step { g } es).g.threadEvent e.2).bind answers = some p →
        (runs ServiceLog.step { g } es).PassedOn ((runs ServiceLog.step { g } es).step e) := by
  have hinv := ServiceLog.inv_run h htraffic hturn
  constructor
  · exact hinv.orderly
  · intro e p he htr hp hans
    exact ServiceLog.passedOn_step hinv he htr hp hans

/-- Two services that serve agents, for callers without a session. -/
def twoAgents : Globals :=
  { services := [{ index := 1, uuid := 1, isGtask := true }, { index := 2, uuid := 2, internal := true },
      { index := 3, uuid := 3, internal := true }]
    sessions := [{ ref := 0, srv := 2, opener := .gtask, sessionId := 1, taskId := ⟨20, 0⟩ },
      { ref := 1, srv := 3, opener := .gtask, sessionId := 1, taskId := ⟨30, 0⟩ }]
    agents := [⟨⟨20, 0⟩, 1, ⟨90, 0⟩, false⟩, ⟨⟨30, 0⟩, 2, ⟨90, 0⟩, false⟩] }

theorem twoAgents_idle : twoAgents.ServiceIdle := by
  constructor <;> decide

def setServeCmd (slot : Nat) : Env × Event :=
  ({}, .nsCmd { uuid := 1, cmdType := .global, cmdId := setServeCmdId, eventNr := slot })

def agentBack (slot agentId : Nat) : Env × Event :=
  ({}, .nsCmd { cmdType := .buildinAgent, eventNr := slot, agentId })

/-- Both services ask; the second request waits. -/
def bothAsk : List (Env × Event) :=
  [setServeCmd 3, ({}, .agentRequest ⟨20, 0⟩ 1), ({}, .agentRequest ⟨30, 0⟩ 2)]

theorem service_requests_in_order_bothAsk :
    (runs ServiceLog.step { g := twoAgents } bothAsk).PassedOn
      ((runs ServiceLog.step { g := twoAgents } bothAsk).step (agentBack 3 1)) :=
  (service_requests_in_order twoAgents bothAsk twoAgents_idle (by decide) (by decide)).2
    (agentBack 3 1) (3, 1) (by decide) (by decide) (by decide) (by decide)

/-- A second `SET_SERVE_CMD` replaces the slot of the request that is out: its answer does
not bring the next request, which waits for ever. -/
theorem service_request_stranded : twoAgents.ServiceIdle ∧
      (∀ e ∈ bothAsk ++ [setServeCmd 4, agentBack 3 1], e.2.serviceTraffic = true) ∧
      (runs ServiceLog.step { g := twoAgents } (bothAsk ++ [setServeCmd 4])).outstanding = [(3, 1)] ∧
      ¬(runs ServiceLog.step { g := twoAgents }
        (bothAsk ++ [setServeCmd 4, agentBack 3 1])).Orderly := by
  refine ⟨twoAgents_idle, by decide, by decide, fun h => ?_⟩
  exact absurd (h.rest (by decide)) (by decide)

end TeeOs.Gtask
