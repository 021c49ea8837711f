import TeeOs.Ssa.MainLoop
import TeeOs.Ssa.Sharing

/-!
# Clients whose session was closed

A session that is closed while the agent waits is taken out at once if its client has
no open files; otherwise the client is marked dead and the message should come again in
the main loop. It never does, since gtask is not a client and `ssa_deal_msg` drops what
others send. As long as no session is closed that way, no client and no file of a closed
session stays in the tables, whatever arrives and wherever the agent waits.
-/

namespace TeeOs.Ssa

open Lib.Runs List Function AgentState Nat Option

variable {t : Tables} {i j k : Nat} {l : FileLink} {c : Client} {sfd : LinkedSfd}

section Links

variable {out : Option (Nat × Nat)} {sender : Nat}

/-- The link of an instance is given back and the instance stays. -/
theorem Linked.release (h : Linked t none) (hk : t.linkAt i j = some k) (hl : l.linkCount = 0)
    (hs : l.sfd ≠ none) : Linked (t.setLink k l) (some (i, j)) := by
  obtain ⟨free, row, unique, counted, sfd, used⟩ := h
  exact ⟨free, row, unique, by grind, by grind, fun k' hk' => used k' (by grind)⟩

/-- A link that stays in use. -/
theorem Linked.setLink (h : Linked t out) (hl : l.linkCount = (t.privateStorage k).linkCount)
    (hs : (t.privateStorage k).sfd ≠ none → l.sfd ≠ none) : Linked (t.setLink k l) out := by
  obtain ⟨free, row, unique, counted, sfd, used⟩ := h
  exact ⟨free, row, unique, by grind, by grind, fun k' hk' => used k' (by grind)⟩

theorem getSenderClientProc_none {dead : Bool}
    (h : getSenderClientProc t sender dead = none) (hi : i < srvMaxClients) :
    ¬ ((t.clients i).taskId = sender ∧ (t.clients i).dead = dead) := by
  have hno := find?_eq_none.1 h i (mem_range.2 hi)
  rwa [decide_eq_true_eq] at hno

end Links

section Seats

/-- The slots that the task has and that are not marked dead. -/
def liveSlots (t : Tables) (taskId : Nat) : Finset Nat :=
  (Finset.range srvMaxClients).filter fun i =>
    (t.clients i).taskId = taskId ∧ (t.clients i).dead = false

/-- At most the slot `cleaned` is marked dead, and a task has no more slots than `limit`
says. -/
structure Seated (t : Tables) (cleaned : Option Nat) (limit : Nat → Nat) : Prop where
  slot : ∀ i, (t.clients i).taskId ≠ 0 → i < srvMaxClients
  dead : ∀ i, (t.clients i).dead = true → cleaned = some i
  live : ∀ id, id ≠ 0 → (liveSlots t id).card ≤ limit id

variable {t' : Tables} {cleaned : Option Nat} {limit limit' : Nat → Nat} {id : Nat} {c : Client}

theorem mem_liveSlots : i ∈ liveSlots t id ↔
    i < srvMaxClients ∧ (t.clients i).taskId = id ∧ (t.clients i).dead = false := by
  unfold liveSlots
  rw [Finset.mem_filter, Finset.mem_range]

/-- A slot that comes to no live client: one live slot of its task less. -/
theorem card_liveSlots_gone (hi : i ∈ liveSlots t id) (hc : c.taskId ≠ id ∨ c.dead = true) :
    (liveSlots (t.setClient i c) id).card ≤ (liveSlots t id).card - 1 := by
  rw [← Finset.card_erase_of_mem hi]
  refine Finset.card_le_card fun i' hi' => ?_
  rw [mem_liveSlots] at hi'
  rw [Finset.mem_erase, mem_liveSlots]
  grind

theorem card_liveSlots_of_ne (hc : c.taskId ≠ id ∨ c.dead = true) :
    (liveSlots (t.setClient i c) id).card ≤ (liveSlots t id).card := by
  refine Finset.card_le_card fun i' hi' => ?_
  rw [mem_liveSlots] at hi' ⊢
  grind

theorem card_liveSlots_le : (liveSlots (t.setClient i c) id).card ≤ (liveSlots t id).card + 1 := by
  refine le_trans (Finset.card_le_card fun i' hi' => ?_) (Finset.card_insert_le i (liveSlots t id))
  rw [mem_liveSlots] at hi'
  rw [Finset.mem_insert, mem_liveSlots]
  grind

theorem Seated.vacate (h : Seated t (some i) limit) (hid : c.taskId = 0) (hd : c.dead = false) :
    Seated (t.setClient i c) none limit := by
  obtain ⟨slot, dead, live⟩ := h
  refine ⟨by grind, by grind, fun u hu => ?_⟩
  exact le_trans (card_liveSlots_of_ne (by grind)) (live u hu)

section

variable (h : Seated t cleaned limit)
include h

theorem Seated.mono (hl : ∀ id, limit id ≤ limit' id) : Seated t cleaned limit' :=
  ⟨h.slot, h.dead, fun id hid => le_trans (h.live id hid) (hl id)⟩

/-- Slots are kept by what changes neither task nor mark. -/
theorem Seated.congr (hc : SameSeats t t') : Seated t' cleaned limit := by
  have hlive : ∀ id, liveSlots t' id = liveSlots t id := by
    intro id
    refine Finset.filter_congr fun i _ => ?_
    rw [(hc i).1, (hc i).2]
  constructor
  · intro i hi
    exact h.slot i ((hc i).1 ▸ hi)
  · intro i hi
    exact h.dead i ((hc i).2 ▸ hi)
  · intro id hid
    rw [hlive]
    exact h.live id hid

/-- `register_uuid` takes one slot more for the task. -/
theorem Seated.registerUuid (id uuid : Nat) :
    Seated (registerUuid t id uuid) cleaned fun u => limit u + if u = id then 1 else 0 := by
  unfold Ssa.registerUuid
  split
  · exact h.mono fun u => le_add_right _ _
  next i hi =>
  obtain ⟨slot, dead, live⟩ := h
  refine ⟨by grind, by grind, fun u hu => ?_⟩
  by_cases hid : u = id
  · rw [if_pos hid]
    exact le_trans card_liveSlots_le (succ_le_succ (live u hu))
  · rw [if_neg hid]
    exact le_trans (card_liveSlots_of_ne (.inl fun h => hid h.symm)) (live u hu)

/-- A live slot of the task `id` is given up: it is cleared, or marked dead. -/
theorem Seated.giveUp {cleaned' : Option Nat} (hi : getSenderClientProc t id false = some i)
    (hc : c.taskId = 0 ∨ c.taskId = id ∧ c.dead = true) (hd : c.dead = true → cleaned' = some i)
    (hd' : ∀ i', (t.clients i').dead = true → cleaned' = some i') :
    Seated (t.setClient i c) cleaned' fun u => limit u - if u = id then 1 else 0 := by
  obtain ⟨hlt, htask, hlive⟩ := getSenderClientProc_some hi
  obtain ⟨slot, dead, live⟩ := h
  refine ⟨by grind, by grind, fun u hu => ?_⟩
  by_cases hui : u = id
  · rw [if_pos hui]
    have hmem : i ∈ liveSlots t u := mem_liveSlots.2 ⟨hlt, htask.trans hui.symm, hlive⟩
    exact le_trans (card_liveSlots_gone hmem (by grind)) (Nat.sub_le_sub_right (live u hu) 1)
  · rw [if_neg hui]
    exact le_trans (card_liveSlots_of_ne (by grind)) (live u hu)

theorem Seated.none_live (hi : getSenderClientProc t id false = none) :
    Seated t cleaned fun u => limit u - if u = id then 1 else 0 := by
  refine ⟨h.slot, h.dead, fun u hu => ?_⟩
  by_cases hui : u = id
  · have hempty : liveSlots t u = ∅ := by
      refine Finset.eq_empty_of_forall_notMem fun i hmem => ?_
      obtain ⟨hlt, htask, hlive⟩ := mem_liveSlots.1 hmem
      exact getSenderClientProc_none hi hlt ⟨htask.trans hui, hlive⟩
    rw [hempty]
    exact zero_le _
  · rw [if_neg hui]
    exact h.live u hu

end

/-- What happens to a client that is closed while it has no open file. -/
theorem preUnregisterUuid_noFiles
    (hf : ∀ i, getSenderClientProc t id false = some i → noFiles (t.clients i) = true) :
    (preUnregisterUuid t id).1 = false ∧
      ((getSenderClientProc t id false = none ∧ (preUnregisterUuid t id).2 = t) ∨
        ∃ i, getSenderClientProc t id false = some i ∧
          (preUnregisterUuid t id).2 = t.setClient i noClient) := by
  unfold preUnregisterUuid
  cases hi : getSenderClientProc t id false with
  | none => exact ⟨rfl, .inl ⟨rfl, rfl⟩⟩
  | some i =>
    dsimp only
    rw [if_pos (hf i hi)]
    exact ⟨rfl, .inr ⟨i, rfl, rfl⟩⟩

end Seats

section States

variable {h : Handles} {s : AgentState} {q : SsMsgQueue AgentMsg} {m : SsMsg AgentMsg}

/-- The instance whose link has been given back while the agent waits. -/
def Phase.released : Phase → Option (Nat × Nat)
  | .closing i j => some (i, j)
  | .cleaning i j _ => some (i, j)
  | _ => none

/-- The slot that is being cleaned. -/
def Phase.cleaned : Phase → Option Nat
  | .cleaning i _ _ => some i
  | _ => none

/-- The task whose CLOSE is in hand and not carried out yet. -/
def Phase.owes (h : Handles) : Phase → Option Nat
  | .callerInfo sender (.closeTaSession taskId) =>
    if sender = h.globalTask ∨ sender = h.permsrv then some taskId else none
  | _ => none

/-- What may stand in the queue or be in hand: a session is never opened from there, and a
file message comes from a task. -/
def Sendable (sender : Nat) : AgentMsg → Prop
  | .openTaSession .. => False
  | .file _ => sender ≠ 0
  | _ => True

/-- Every message of the queue. -/
abbrev AllSendable (q : SsMsgQueue AgentMsg) : Prop :=
  ∀ p, Sendable (q.msg p).sender.toNat (q.msg p).msg

theorem AllSendable.setMsg (hq : AllSendable q) (hm : Sendable m.sender.toNat m.msg) (pos : Nat) :
    AllSendable (q.setMsg pos m) := by
  intro p
  dsimp only [SsMsgQueue.setMsg]
  by_cases hp : p = pos
  · rw [hp, update_self]
    exact hm
  · rw [update_of_ne hp]
    exact hq p

/-- What a phase knows of the tables. -/
def Phase.fits (t : Tables) : Phase → Prop
  | .callerInfo sender msg => Sendable sender msg
  | .checking sender _ _ => sender ≠ 0
  | .opening sender _ _ => sender ≠ 0
  | .syncing _ _ => False
  | .cleaning i j rest => (t.clients i).dead = true ∧ (t.clients i).taskId ≠ 0 ∧
      ∀ j', t.linkAt i j' ≠ none → j' = j ∨ j' ∈ rest
  | _ => True

/-- How many slots a task may have. -/
def AgentState.limit (h : Handles) (s : AgentState) (id : Nat) : Nat :=
  s.sessions.count id + if s.phase.owes h = some id then 1 else 0

/-- What holds in every state, whatever the agent waits for. -/
structure Booked (h : Handles) (s : AgentState) : Prop where
  linked : Linked s.tables s.phase.released
  seated : Seated s.tables s.phase.cleaned (s.limit h)
  fits : s.phase.fits s.tables
  queue : ∀ p, Sendable (s.queue.msg p).sender.toNat (s.queue.msg p).msg

/-- What the handling of a message starts from. -/
structure Ready (s : AgentState) : Prop where
  linked : Linked s.tables none
  seated : Seated s.tables none (s.sessions.count ·)
  queue : ∀ p, Sendable (s.queue.msg p).sender.toNat (s.queue.msg p).msg

/-- A phase in which nothing is under way. -/
def Phase.plain (p : Phase) : Prop := p.released = none ∧ p.cleaned = none

theorem Ready.booked (hr : Ready s) {p : Phase} (hp : p.plain) (hf : p.fits s.tables) :
    Booked h { s with phase := p } := by
  refine ⟨?_, ?_, hf, hr.queue⟩
  · exact hp.1 ▸ hr.linked
  · have hs : Seated s.tables none (limit h { s with phase := p }) :=
      hr.seated.mono fun _ => le_add_right _ _
    exact hp.2 ▸ hs

theorem Booked.ready (hb : Booked h s) (hp : s.phase.plain) (ho : s.phase.owes h = none) :
    Ready s := by
  refine ⟨hp.1 ▸ hb.linked, ?_, hb.queue⟩
  have hlim : s.limit h = (s.sessions.count ·) := by
    funext id
    unfold limit
    rw [ho, if_neg nofun, add_zero]
  exact hp.2 ▸ hlim ▸ hb.seated

/-- Nothing is under way. -/
theorem Ready.idle (hr : Ready s) : Booked h { s with phase := .idle } :=
  hr.booked ⟨rfl, rfl⟩ trivial

theorem Ready.working (hr : Ready s) : Booked h { s with phase := .working } :=
  hr.booked ⟨rfl, rfl⟩ trivial

theorem Ready.tables (hr : Ready s) (hl : Linked t none) (hc : SameSeats s.tables t) :
    Ready { s with tables := t } :=
  ⟨hl, hr.seated.congr hc, hr.queue⟩

variable {sender obj taskId : Nat} {msg : AgentMsg} {f : FileLink → FileLink} {sessions : List Nat}

theorem Ready.closeFile (hr : Ready s) : Booked h (s.closeFile sender obj) := by
  unfold AgentState.closeFile
  split
  · exact hr.idle
  · next i k hf =>
    have hk := fileLinkOf_some hf
    dsimp only
    rw [hr.linked.counted_one hk, if_neg one_ne_zero, if_pos rfl]
    refine ⟨hr.linked.release hk rfl (hr.linked.sfd _ _ _ hk), ?_, trivial, hr.queue⟩
    exact hr.seated.congr fun _ => ⟨rfl, rfl⟩

theorem getFilePointer_linked (sender obj : Nat) (hl : Linked t none) :
    ∃ p, getFilePointer t sender obj = (p, t) := by
  unfold getFilePointer
  split
  · exact ⟨_, rfl⟩
  · next i k hf =>
    rw [if_neg (hl.sfd _ _ _ (fileLinkOf_some hf))]
    exact ⟨_, rfl⟩

theorem Ready.closeAndDelete (hr : Ready s) : Booked h (s.closeAndDelete sender obj) := by
  unfold AgentState.closeAndDelete
  split
  · exact hr.idle
  obtain ⟨p, hp⟩ := getFilePointer_linked sender obj hr.linked
  rw [hp]
  cases p with
  | none => exact hr.idle
  | some p =>
    dsimp only
    split
    · exact hr.booked ⟨rfl, rfl⟩ trivial
    · exact hr.closeFile

theorem Ready.fileProc {op : FileMsg} (hr : Ready s) (hs : sender ≠ 0) :
    Booked h (s.fileProc sender op) := by
  unfold AgentState.fileProc
  cases op with
  | create fileId flags =>
    dsimp only
    split
    · exact hr.idle
    · exact hr.booked ⟨rfl, rfl⟩ hs
  | openObject fileId flags =>
    dsimp only
    split
    · exact hr.idle
    · split
      · exact hr.booked ⟨rfl, rfl⟩ hs
      · exact hr.idle
  | close obj => exact hr.closeFile
  | closeAndDelete obj => exact hr.closeAndDelete
  | access cmd obj =>
    obtain ⟨p, hp⟩ := getFilePointer_linked sender obj hr.linked
    dsimp only
    rw [hp]
    cases p with
    | none => exact hr.idle
    | some p => exact hr.booked ⟨rfl, rfl⟩ trivial
  | getEnumFileSize | startEnumerator => exact hr.working

/-- An instance goes: the link is given back now, or has been already. -/
theorem Linked.dropInstance {out : Option (Nat × Nat)} (hl : Linked t out)
    (ho : out = none ∨ out = some (i, j))
    (hf : ∀ k, t.linkAt i j = some k → (f (t.privateStorage k)).linkCount = 0) :
    Linked (dropInstance t i j f) none := by
  unfold AgentState.dropInstance
  split
  · next hnone =>
    refine { hl with counted := fun i' j' k hk => ?_ }
    have hother : out ≠ some (i', j') := by
      rintro heq
      rcases ho with ho | ho
      · rw [ho] at heq
        cases heq
      · rw [ho, some.injEq, Prod.mk.injEq] at heq
        rw [← heq.1, ← heq.2] at hk
        exact nomatch hnone.symm.trans hk
    rw [hl.counted i' j' k hk, if_neg hother, if_neg nofun]
  · next k hk => exact hl.drop ho hk (hf k hk)

theorem seats_dropInstance : SameSeats t (dropInstance t i j f) := by
  unfold dropInstance
  split
  · exact fun _ => ⟨rfl, rfl⟩
  · exact seats_setInstance

theorem seats_createFileInstance : SameSeats t (createFileInstanceToClient t sender sfd).2 := by
  unfold createFileInstanceToClient
  split
  · exact fun _ => ⟨rfl, rfl⟩
  · split
    · exact fun _ => ⟨rfl, rfl⟩
    · split
      · exact fun _ => ⟨rfl, rfl⟩
      · exact seats_setInstance

theorem Linked.renameAt (hl : Linked t none) (i j : Nat) (newId : String) :
    Linked (renameAt t i j newId) none ∧
      (renameAt t i j newId).clients = t.clients := by
  unfold AgentState.renameAt
  split
  · exact ⟨hl, rfl⟩
  · refine ⟨hl.setLink rfl fun hs => ?_, rfl⟩
    rwa [ne_eq, map_eq_none_iff]

/-- What is assumed of a message that arrives: sessions are opened by gtask, and a file
message comes from a task. -/
def Authentic (h : Handles) (sender : Nat) : AgentMsg → Prop
  | .openTaSession .. => sender = h.globalTask
  | .file _ => sender ≠ 0
  | _ => True

theorem Ready.ssaCmdProc (hr : Ready s) (hm : Sendable sender msg)
    (hc : ∀ taskId, msg ≠ .closeTaSession taskId) : Booked h (s.ssaCmdProc h sender msg) := by
  cases msg with
  | registerAgent =>
    unfold ssaCmdProc ssaRegisterAgent
    dsimp only
    split_ifs
    · exact hr.idle
    · exact hr.idle
    · exact ⟨hr.linked, hr.idle.seated, trivial, hr.queue⟩
  | openTaSession taskId uuid => exact hm.elim
  | closeTaSession taskId => exact absurd rfl (hc taskId)
  | file op =>
    unfold ssaCmdProc
    dsimp only
    split_ifs
    · exact hr.fileProc hm
    · exact hr.idle

section

variable {js : List Nat} {id : Nat} (hl : Linked s.tables none) (hq : AllSendable s.queue)
include hl hq

/-- The loop of `unregister_uuid`, from a slot that is marked dead and whose instances are
among those to come. -/
theorem booked_forceCleanFrom (hs : Seated s.tables (some i) (s.sessions.count ·))
    (hd : (s.tables.clients i).dead = true) (hjs : ∀ j, s.tables.linkAt i j ≠ none → j ∈ js) :
    Booked h (s.forceCleanFrom i js) := by
  induction js with
  | nil =>
    have hnone : ∀ j, s.tables.linkAt i j = none := by
      intro j
      by_contra hj
      exact absurd (hjs j hj) not_mem_nil
    exact ⟨hl.setClient (fun _ => rfl) fun _ => hnone, hs.vacate rfl rfl, trivial, hq⟩
  | cons j js ih =>
    unfold forceCleanFrom
    split
    · next hnone =>
      refine ih fun j' hj' => ?_
      rcases mem_cons.1 (hjs j' hj') with rfl | hmem
      · exact absurd hnone hj'
      · exact hmem
    · next k hk =>
      have hk' : s.tables.linkAt i j = some k := hk
      dsimp only
      rw [hl.counted_one hk', if_neg one_ne_zero, if_pos rfl]
      refine ⟨hl.release hk' rfl (hl.sfd i j k hk'), ?_, ⟨hd, fun h0 => ?_, fun j' hj' => ?_⟩, hq⟩
      · exact hs.congr fun _ => ⟨rfl, rfl⟩
      · rw [hl.free i j h0] at hk'
        cases hk'
      · exact mem_cons.1 (hjs j' hj')

theorem booked_unregisterClient
    (hs : Seated s.tables none fun u => s.sessions.count u + if u = id then 1 else 0) :
    Booked h (s.unregisterClient id) := by
  -- no slot is marked dead, so `unreg_get_sender_client` finds a live one
  have hnodead : getSenderClientProc s.tables id true = none := by
    cases hd : getSenderClientProc s.tables id true with
    | none => rfl
    | some i => exact nomatch hs.dead i (getSenderClientProc_some hd).2.2
  have hless : ∀ u, (s.sessions.count u + if u = id then 1 else 0) - (if u = id then 1 else 0) ≤
      s.sessions.count u := by
    intro u
    omega
  unfold unregisterClient unregGetSenderClient
  rw [hnodead]
  cases hi : getSenderClientProc s.tables id false with
  | none => exact ⟨hl, hs.none_live hi |>.mono hless, trivial, hq⟩
  | some i =>
    obtain ⟨hlt, htask, -⟩ := getSenderClientProc_some hi
    have hmark : Seated (s.tables.setClient i { s.tables.clients i with dead := true }) (some i)
        fun u => (s.sessions.count u + if u = id then 1 else 0) - if u = id then 1 else 0 :=
      hs.giveUp hi (.inr ⟨htask, rfl⟩) (fun _ => rfl) fun i' hd => nomatch hs.dead i' hd
    have hlinked : Linked (s.tables.setClient i { s.tables.clients i with dead := true }) none :=
      hl.setClient (fun _ => rfl) fun h0 j => hl.free i j h0
    refine booked_forceCleanFrom hlinked hq (hmark.mono hless) ?_ fun j hj => ?_
    · rw [clients_setClient, if_pos rfl]
    · cases hk : (s.tables.setClient i { s.tables.clients i with dead := true }).linkAt i j with
      | none => exact absurd hk hj
      | some k => exact mem_range.2 (hlinked.row i j k hk)

theorem booked_closeTaSession (hs : Seated s.tables none
      (limit h { s with phase := .callerInfo sender (.closeTaSession taskId) })) :
    Booked h (s.ssaCmdProc h sender (.closeTaSession taskId)) := by
  unfold ssaCmdProc
  dsimp only
  by_cases hh : sender = h.globalTask ∨ sender = h.permsrv
  · rw [if_pos hh]
    refine booked_unregisterClient hl hq (hs.mono fun u => ?_)
    simp only [limit, Phase.owes, if_pos hh, some.injEq, eq_comm, le_refl]
  · rw [if_neg hh]
    refine ⟨hl, hs.mono fun u => ?_, trivial, hq⟩
    simp [limit, Phase.owes, if_neg hh]

end

/-- Slots other than the one being cleaned do not matter to a phase. -/
theorem fits_setClient {p : Phase} (hf : p.fits t) (hi : p.cleaned ≠ some i) :
    p.fits (t.setClient i c) := by
  cases p with
  | cleaning i' j rest =>
    have hne : i' ≠ i := fun heq => hi (congrArg some heq)
    unfold Phase.fits at hf ⊢
    simp only [clients_setClient, linkAt_setClient, if_neg hne]
    exact hf
  | _ => exact hf

theorem AllSendable.ssaMsgqueueAdd (hq : AllSendable q) (hm : Sendable m.sender.toNat m.msg) :
    AllSendable (ssaMsgqueueAdd q m).2 := by
  unfold Ssa.ssaMsgqueueAdd
  split_ifs
  · exact hq
  · exact hq.setMsg hm _
  · exact hq

theorem count_noted_close (u : Nat) :
    sessions.count u - (if u = taskId then 1 else 0) ≤
      (noted h sessions sender (.closeTaSession taskId)).count u := by
  unfold noted
  split_ifs with hu
  · rw [hu, count_erase_self]
  · exact sub_le _ _
  · rw [count_erase_of_ne hu]
    exact le_refl _
  · exact le_refl _

section

variable (hb : Booked h s)
include hb

/-- The handling goes on with the answer it waited for. -/
theorem Booked.goOn {ok : Bool}
    (hok : ∀ sender taskId, s.phase = .callerInfo sender (.closeTaSession taskId) → ok = true) :
    Booked h (s.goOn h ok) := by
  obtain ⟨tables, queue, isSsaReg, phase, sessions⟩ := s
  have hl := hb.linked
  have hs := hb.seated
  have hf := hb.fits
  cases phase with
  | idle => exact hb
  | callerInfo sender msg =>
    unfold goOn
    dsimp only
    by_cases hclose : ∃ taskId, msg = .closeTaSession taskId
    · obtain ⟨taskId, rfl⟩ := hclose
      rw [hok sender taskId rfl, if_pos rfl]
      exact booked_closeTaSession hl hb.queue hs
    · have hno : ∀ taskId, msg ≠ .closeTaSession taskId := fun taskId heq => hclose ⟨taskId, heq⟩
      have howes : Phase.owes h (.callerInfo sender msg) = none := by
        cases msg with
        | closeTaSession taskId => exact absurd rfl (hno taskId)
        | _ => rfl
      have hr := hb.ready ⟨rfl, rfl⟩ howes
      split_ifs
      · exact hr.ssaCmdProc hf hno
      · exact hr.idle
  | checking sender object flags =>
    have hr := hb.ready ⟨rfl, rfl⟩ rfl
    unfold goOn
    dsimp only
    split_ifs
    · exact hr.booked ⟨rfl, rfl⟩ hf
    · exact hr.idle
  | opening sender sfd created =>
    have hr := hb.ready ⟨rfl, rfl⟩ rfl
    have hnew := hr.tables (hl.createFileInstance sfd hf) seats_createFileInstance
    unfold goOn
    dsimp only
    split
    · split
      · next t ht =>
        rw [ht] at hnew
        exact hnew.working
      · next obj t ht =>
        rw [ht] at hnew
        cases created with
        | true => exact hnew.working
        | false => exact hnew.booked ⟨rfl, rfl⟩ trivial
    · exact hr.working
  | heading sender obj =>
    have hr := hb.ready ⟨rfl, rfl⟩ rfl
    unfold goOn
    split_ifs
    · exact hr.idle
    · exact hr.closeFile
  | closing i j =>
    have hdrop := hl.dropInstance (f := fun l => { l with sfd := none, firstOpened := false })
      (.inr rfl) fun k hk => (hl.counted i j k hk).trans (if_pos rfl)
    exact ⟨hdrop, hs.congr seats_dropInstance, trivial, hb.queue⟩
  | syncing i j => exact hf.elim
  | deleting i j =>
    have hdrop := hl.dropInstance
      (f := fun l => { l with sfd := none, linkCount := l.linkCount - 1 }) (i := i) (j := j)
      (.inl rfl) fun k hk => by rw [hl.counted_one hk]
    exact ⟨hdrop, hs.congr seats_dropInstance, trivial, hb.queue⟩
  | accessing sender i j cmd =>
    have hr := hb.ready ⟨rfl, rfl⟩ rfl
    unfold goOn
    dsimp only
    by_cases hk : ok = true
    · rw [if_pos hk]
      split
      · next newId =>
        obtain ⟨hname, hclients⟩ := hl.renameAt i j newId
        exact (hr.tables hname fun i' => by rw [hclients]; exact ⟨rfl, rfl⟩).working
      · exact hr.idle
    · obtain ⟨p, hp⟩ := getFilePointer_linked sender (j + 1) hl
      rw [if_neg hk, hp, ite_self]
      exact hr.idle
  | cleaning i j rest =>
    obtain ⟨hdead, -, hrest⟩ := hf
    have hdrop := hl.dropInstance (f := fun l => { l with sfd := none })
      (.inr rfl) fun k hk => (hl.counted i j k hk).trans (if_pos rfl)
    have hseats := hs.congr (seats_dropInstance (i := i) (j := j) (f := fun l => { l with sfd := none }))
    refine booked_forceCleanFrom hdrop hb.queue hseats ?_ fun j' hj' => ?_
    · exact (seats_dropInstance i).2.trans hdead
    have hlink : tables.linkAt i j' ≠ none ∧ j' ≠ j := by
      dsimp only [dropInstance] at hj'
      split at hj'
      · next hnone =>
        refine ⟨hj', ?_⟩
        rintro rfl
        exact hj' hnone
      · rw [linkAt_setInstance, linkAt_setLink] at hj'
        by_cases hjj : j' = j
        · rw [if_pos ⟨rfl, hjj⟩] at hj'
          exact absurd rfl hj'
        · rw [if_neg fun h => hjj h.2] at hj'
          exact ⟨hj', hjj⟩
    exact (hrest j' hlink.1).resolve_left hlink.2
  | working => exact (hb.ready ⟨rfl, rfl⟩ rfl).idle

/-- The slot that is cleaned is marked dead and not free. -/
theorem Booked.cleaned_dead (hi : s.phase.cleaned = some i) :
    (s.tables.clients i).dead = true ∧ (s.tables.clients i).taskId ≠ 0 := by
  have hf := hb.fits
  cases hp : s.phase with
  | cleaning i' j rest =>
    rw [hp] at hi hf
    obtain rfl := some.inj hi
    exact ⟨hf.1, hf.2.1⟩
  | _ =>
    rw [hp] at hi
    cases hi

/-- A session is opened in a free slot, in any phase. -/
theorem Booked.register {uuid : Nat} :
    Booked h { s with
      tables := registerUuid s.tables taskId uuid
      sessions := taskId :: s.sessions } := by
  refine ⟨?_, (hb.seated.registerUuid taskId uuid).mono fun u => ?_, ?_, hb.queue⟩
  · unfold Ssa.registerUuid
    split
    · exact hb.linked
    · next i hi =>
      have hfound := find?_some hi
      have hnone := fun j => hb.linked.free i j (of_decide_eq_true hfound)
      exact hb.linked.setClient (fun j => (hnone j).symm) fun _ => hnone
  · simp only [limit, count_cons, beq_iff_eq, eq_comm (a := taskId)]
    omega
  · unfold Ssa.registerUuid
    split
    · exact hb.fits
    · next i hi =>
      have hfound := find?_some hi
      refine fits_setClient hb.fits fun hcl => ?_
      exact (hb.cleaned_dead hcl).2 (of_decide_eq_true hfound)

/-- A session without open files is closed, in any phase. -/
theorem Booked.preUnregister (hn : ∀ i, getSenderClientProc s.tables taskId false = some i →
      noFiles (s.tables.clients i) = true)
    (hle : ∀ u, s.sessions.count u - (if u = taskId then 1 else 0) ≤ sessions.count u) :
    Booked h { s with tables := (preUnregisterUuid s.tables taskId).2, sessions := sessions } := by
  have hcases := (preUnregisterUuid_noFiles hn).2
  generalize (preUnregisterUuid s.tables taskId).2 = t at hcases ⊢
  have hlim : ∀ u, s.limit h u - (if u = taskId then 1 else 0) ≤
      limit h { s with tables := t, sessions := sessions } u := by
    intro u
    have hu := hle u
    simp only [limit]
    omega
  rcases hcases with ⟨hi, rfl⟩ | ⟨i, hi, rfl⟩
  · exact { hb with seated := (hb.seated.none_live hi).mono hlim }
  have hlive := (getSenderClientProc_some hi).2.2
  have hnone := hb.linked.noFiles (hn i hi)
  refine ⟨?_, ?_, fits_setClient hb.fits ?_, hb.queue⟩
  · exact hb.linked.setClient (fun j => (hnone j).symm) fun _ => hnone
  · exact (hb.seated.giveUp hi (.inl rfl) (fun hd => absurd hd Bool.false_ne_true)
      hb.seated.dead).mono hlim
  · intro hcl
    exact nomatch hlive.symm.trans (hb.cleaned_dead hcl).1

theorem Booked.queueMsg {sender : UInt32} (hm : Sendable sender.toNat msg) :
    Booked h (s.queueMsg sender msg) := by
  unfold AgentState.queueMsg
  split_ifs
  · exact { hb with queue := AllSendable.ssaMsgqueueAdd hb.queue hm }
  · exact hb

/-- A message that arrives while the agent waits. -/
theorem Booked.ssaDealMsg {sender : UInt32} (hm : Authentic h sender.toNat msg)
    (hn : ∀ taskId, msg = .closeTaSession taskId → ∀ i,
      getSenderClientProc s.tables taskId false = some i → noFiles (s.tables.clients i) = true) :
    Booked h (ssaDealMsg h
      { s with sessions := noted h s.sessions sender.toNat msg } sender msg) := by
  cases msg with
  | registerAgent =>
    unfold ssaDealMsg ssaRegisterAgent
    split_ifs
    · exact hb
    · exact hb
    · exact { hb with }
  | openTaSession taskId uuid =>
    have hs : sender.toNat = h.globalTask ∨ sender.toNat = h.permsrv := .inl hm
    unfold ssaDealMsg ssaRegisterUuid noted
    dsimp only
    rw [if_pos hs, if_pos hs]
    exact hb.register
  | closeTaSession taskId =>
    have hone := (preUnregisterUuid_noFiles (hn taskId rfl)).1
    unfold ssaDealMsg
    dsimp only
    rw [hone, if_neg nofun]
    exact hb.preUnregister (hn taskId rfl) count_noted_close
  | file op => exact hb.queueMsg hm

end

theorem Ready.setSsaCallerInfo (hr : Ready s)
    (hm : Sendable sender msg) : Booked h (s.setSsaCallerInfo h sender msg) := by
  have hwait : Booked h { s with phase := .callerInfo sender msg } := hr.booked ⟨rfl, rfl⟩ hm
  cases msg with
  | openTaSession taskId uuid => exact hm.elim
  | closeTaSession taskId => exact hwait
  | registerAgent | file =>
    unfold setSsaCallerInfo
    split_ifs
    · exact hr.ssaCmdProc hm nofun
    · exact hwait

/-- A message that `ssa_get_msg` receives. -/
theorem Ready.receive (hr : Ready s) (hm : Authentic h sender msg) :
    Booked h (AgentState.setSsaCallerInfo h
      { s with sessions := noted h s.sessions sender msg } sender msg) := by
  cases msg with
  | registerAgent => exact hr.setSsaCallerInfo trivial
  | file op => exact hr.setSsaCallerInfo hm
  | openTaSession taskId uuid =>
    obtain rfl : sender = h.globalTask := hm
    unfold AgentState.setSsaCallerInfo AgentState.ssaCmdProc ssaRegisterUuid noted
    dsimp only
    rw [if_pos rfl, if_pos (.inl rfl), if_pos (.inl rfl)]
    exact hr.idle.register
  | closeTaSession taskId =>
    have hle : ∀ u, s.sessions.count u ≤ limit h
        { s with
          sessions := noted h s.sessions sender (.closeTaSession taskId)
          phase := .callerInfo sender (.closeTaSession taskId) } u := by
      intro u
      simp only [limit, noted, Phase.owes]
      by_cases hh : sender = h.globalTask ∨ sender = h.permsrv
      · simp only [if_pos hh, some.injEq]
        by_cases hu : taskId = u
        · rw [if_pos hu, hu, count_erase_self]
          omega
        · rw [if_neg hu, count_erase_of_ne fun heq => hu heq.symm, add_zero]
      · rw [if_neg hh]
        exact le_add_right _ _
    exact ⟨hr.linked, hr.seated.mono hle, trivial, hr.queue⟩

theorem Booked.receiveMsg {sender : UInt32} (hb : Booked h s) (hm : Authentic h sender.toNat msg)
    (hn : s.phase ≠ .idle → ∀ taskId, msg = .closeTaSession taskId → ∀ i,
      getSenderClientProc s.tables taskId false = some i → noFiles (s.tables.clients i) = true) :
    Booked h (s.receive h sender msg) := by
  obtain ⟨tables, queue, isSsaReg, phase, sessions⟩ := s
  by_cases hp : phase = .idle
  · subst hp
    have hr := hb.ready ⟨rfl, rfl⟩ rfl
    unfold receive
    unfold ssaGetMsg
    split_ifs with hfree
    · have htaken := AllSendable.setMsg hb.queue
        (m := { queue.msg queue.outPos with msgId := freeMsgId }) (hb.queue queue.outPos) queue.outPos
      have hr' : Ready ⟨tables, { queue.setMsg queue.outPos
          { queue.msg queue.outPos with msgId := freeMsgId } with
          outPos := Lib.Ring.next ssAgentMsgQueueSize queue.outPos }, isSsaReg, .idle, sessions⟩ :=
        ⟨hr.linked, hr.seated, htaken⟩
      exact hr'.setSsaCallerInfo (hb.queue queue.outPos)
    · exact hr.receive hm
  · have hdeal := hb.ssaDealMsg hm (hn hp)
    cases phase with
    | idle => exact absurd rfl hp
    | _ => exact hdeal

/-- What the messages are assumed to be. -/
def AgentEvent.authentic (h : Handles) : AgentEvent → Bool
  | .message sender (.openTaSession ..) => sender.toNat == h.globalTask
  | .message sender (.file _) => sender.toNat != 0
  | _ => true

/-- A session that is closed while the agent waits has no open files, and gtask takes the
caller info of every CLOSE. -/
def AgentState.closedClean (s : AgentState) : AgentEvent → Bool
  | .message _ (.closeTaSession taskId) => decide (s.phase = .idle) ||
      (getSenderClientProc s.tables taskId false).all fun i => noFiles (s.tables.clients i)
  | .message .. => true
  | .answer ok =>
    match s.phase with
    | .callerInfo _ (.closeTaSession _) => ok
    | _ => true

theorem authentic_message {sender : UInt32}
    (hm : (AgentEvent.message sender msg).authentic h = true) : Authentic h sender.toNat msg := by
  cases msg with
  | registerAgent => trivial
  | openTaSession taskId uuid => exact beq_iff_eq.1 hm
  | closeTaSession taskId => trivial
  | file op => exact bne_iff_ne.1 hm

theorem Booked.step {e : AgentEvent} (hb : Booked h s) (hm : e.authentic h = true)
    (hc : s.closedClean e = true) : Booked h (s.step h e) := by
  cases e with
  | message sender msg =>
    refine hb.receiveMsg (authentic_message hm) fun hp taskId hmsg i hi => ?_
    subst hmsg
    unfold closedClean at hc
    dsimp only at hc
    rw [decide_eq_false hp, Bool.false_or, hi] at hc
    exact hc
  | answer ok =>
    refine hb.goOn fun sender taskId hp => ?_
    unfold closedClean at hc
    rw [hp] at hc
    exact hc

theorem booked_initAgent : Booked h initAgent := by
  refine ⟨⟨fun _ _ _ => rfl, nofun, nofun, nofun, nofun, fun k hk => absurd rfl hk⟩,
    ⟨fun i hi => absurd rfl hi, nofun, fun id hid => ?_⟩, trivial, fun _ => trivial⟩
  have hempty : liveSlots initTables id = ∅ := by
    refine Finset.eq_empty_of_forall_notMem fun i hmem => ?_
    exact hid (mem_liveSlots.1 hmem).2.1.symm
  exact (congrArg Finset.card hempty).trans_le (zero_le _)

end States

/-- A CLOSE of the task is queued. -/
def CloseQueued (q : SsMsgQueue AgentMsg) (taskId : Nat) : Prop :=
  ∃ p < ssAgentMsgQueueSize, ∃ m, q.slot p = some m ∧ m.msg = .closeTaSession taskId

/-- No client is left behind: one that is marked dead has its CLOSE in the queue or is being
cleaned up; and between two messages, once the queue is drained, every slot, every file
instance and every link in use belongs to a task that has an open session. -/
structure NoneLeaked (s : AgentState) : Prop where
  dead : ∀ i < srvMaxClients, (s.tables.clients i).dead = true →
    CloseQueued s.queue (s.tables.clients i).taskId ∨ ∃ j rest, s.phase = .cleaning i j rest
  slots : s.phase = .idle → (∀ p < ssAgentMsgQueueSize, s.queue.slot p = none) →
    ∀ i, (s.tables.clients i).taskId ≠ 0 → (s.tables.clients i).taskId ∈ s.sessions
  files : s.phase = .idle → (∀ p < ssAgentMsgQueueSize, s.queue.slot p = none) →
    ∀ i j k, s.tables.linkAt i j = some k → (s.tables.clients i).taskId ∈ s.sessions
  links : s.phase = .idle → (∀ p < ssAgentMsgQueueSize, s.queue.slot p = none) →
    ∀ k, (s.tables.privateStorage k).linkCount ≠ 0 →
      ∃ i j, s.tables.linkAt i j = some k ∧ (s.tables.clients i).taskId ∈ s.sessions

theorem Booked.noneLeaked {h : Handles} {s : AgentState} (hb : Booked h s) : NoneLeaked s := by
  have hslots : s.phase = .idle → ∀ i, (s.tables.clients i).taskId ≠ 0 →
      (s.tables.clients i).taskId ∈ s.sessions := by
    intro hp i hi
    have hr := hb.ready (by rw [hp]; exact ⟨rfl, rfl⟩) (by rw [hp]; rfl)
    have hlive : (s.tables.clients i).dead = false := by
      cases hd : (s.tables.clients i).dead with
      | false => rfl
      | true => exact nomatch hr.seated.dead i hd
    have hmem := mem_liveSlots.2 ⟨hr.seated.slot i hi, rfl, hlive⟩
    have hpos := Finset.card_pos.2 ⟨i, hmem⟩
    exact count_pos_iff.1 (lt_of_lt_of_le hpos (hr.seated.live _ hi))
  have hfiles : s.phase = .idle → ∀ i j k, s.tables.linkAt i j = some k →
      (s.tables.clients i).taskId ∈ s.sessions := by
    intro hp i j k hk
    refine hslots hp i fun h0 => ?_
    exact nomatch (hb.linked.free i j h0).symm.trans hk
  constructor
  · intro i _ hd
    right
    have hcl := hb.seated.dead i hd
    cases hp : s.phase with
    | cleaning i' j rest =>
      rw [hp] at hcl
      obtain rfl := some.inj hcl
      exact ⟨j, rest, rfl⟩
    | _ =>
      rw [hp] at hcl
      cases hcl
  · exact fun hp _ => hslots hp
  · exact fun hp _ => hfiles hp
  · intro hp _ k hk
    obtain ⟨i, j, hat⟩ := hb.linked.used k hk
    exact ⟨i, j, hat, hfiles hp i j k hat⟩

/-- However the messages come in between, no client of a closed session is left behind. -/
theorem agent_noneLeaked (h : Handles) (es : List AgentEvent)
    (hm : Along (step h) (fun _ e => e.authentic h = true) initAgent es)
    (hc : Along (step h) (fun s e => s.closedClean e = true) initAgent es) :
    NoneLeaked (runs (step h) initAgent es) :=
  (invariant_run (fun _ _ hb he => hb.step he.1 he.2) booked_initAgent (hm.and hc)).noneLeaked

/-- Also while an answer is awaited, every open file of a client has a link of its own, and every
link in use belongs to one. -/
theorem agent_links_exact (h : Handles) (es : List AgentEvent)
    (hm : Along (step h) (fun _ e => e.authentic h = true) initAgent es)
    (hc : Along (step h) (fun s e => s.closedClean e = true) initAgent es) :
    Linked (runs (step h) initAgent es).tables (runs (step h) initAgent es).phase.released :=
  (invariant_run (fun _ _ hb he => hb.step he.1 he.2) booked_initAgent (hm.and hc)).linked

/-- The global task has the id 1. A task opens a session and creates an object. -/
def createdOnce : List AgentEvent :=
  [.message 1 .registerAgent, .message 1 (.openTaSession 7 3),
    .message 7 (.file (.create "a" readShared)), .answer true, .answer true, .answer true,
    .answer true]

/-- The task reads, and while the agent waits its session is closed. -/
def closedWaiting : List AgentEvent :=
  createdOnce ++ [.message 7 (.file (.access .read 1)), .message 1 (.closeTaSession 7),
    .answer true, .answer true]

theorem agent_noneLeaked_createdOnce : NoneLeaked (runs (step ⟨1, 2⟩) initAgent
      (createdOnce ++ [.message 1 (.closeTaSession 7), .answer true, .message 1 (.closeTaSession 8),
        .answer true])) :=
  agent_noneLeaked ⟨1, 2⟩ _ (by decide +kernel) (by decide +kernel)

theorem agent_links_exact_createdOnce :
    Linked (runs (step ⟨1, 2⟩) initAgent createdOnce).tables
      (runs (step ⟨1, 2⟩) initAgent createdOnce).phase.released :=
  agent_links_exact ⟨1, 2⟩ _ (by decide +kernel) (by decide +kernel)

/-- The client is marked dead, its CLOSE is dropped, and its file stays open. -/
theorem closed_while_waiting_leaks :
    Along (step ⟨1, 2⟩) (fun _ e => e.authentic ⟨1, 2⟩ = true) initAgent closedWaiting ∧
      ¬ NoneLeaked (runs (step ⟨1, 2⟩) initAgent closedWaiting) := by
  refine ⟨by decide +kernel, fun h => ?_⟩
  obtain ⟨hidle, hdrained, hlink, hclosed⟩ :
      let s := runs (step ⟨1, 2⟩) initAgent closedWaiting
      s.phase = .idle ∧ (∀ p < ssAgentMsgQueueSize, s.queue.slot p = none) ∧
        s.tables.linkAt 0 0 = some 0 ∧ (s.tables.clients 0).taskId ∉ s.sessions := by
    decide +kernel
  exact hclosed (h.files hidle hdrained 0 0 0 hlink)

end TeeOs.Ssa
