import TeeOs.Gtask.Opening

/-!
# The handlers of the main loop keep the books

`init_ta_context` makes the session a command names current before the command is
looked at. A refused OPEN releases the current session as if it had been made for it,
so an OPEN keeps the books where it names no session; every other command keeps them
whatever it names.
-/

namespace TeeOs.Gtask

open TeeOs.Lib List Globals Session

variable {P : Prop} {g g' : Globals} {env : Env} {v : Service} {s : Session} {cmd : SmcCmd}
  {type : CallType} {task : TaskId} {agentId : Nat}

/-- The session a command names, by its uuid, context and file. -/
def Globals.lookup (g : Globals) (cmd : SmcCmd) : Option Session :=
  (g.findService cmd.uuid cmd.serviceIndex).bind fun v =>
    g.findSessionWithDevFileId cmd.sessionId cmd.devFileId v.index

theorem findSessionWithDevFileId_spec {i d j : Nat}
    (h : g.findSessionWithDevFileId i d j = some s) :
    s ∈ g.sessions ∧ s.srv = j ∧ s.sessionId = i ∧ s.cmdIn.devFileId = d := by
  obtain ⟨hm, hsrv⟩ := mem_sessionsOf.1 (mem_of_find?_eq_some h)
  have hp := find?_some h
  simp only [Bool.and_eq_true, decide_eq_true_eq] at hp
  exact ⟨hm, hsrv, hp.1, hp.2⟩

/-- The current session has the file of the command. -/
def DevOk (cmd : SmcCmd) (g : Globals) : Prop :=
  ∀ s ∈ g.sessions, g.curSession = some s.ref → cmd.devFileId = s.cmdIn.devFileId

theorem Same.devOk (h : Same P g g') (hc : g'.curSession = g.curSession) (hd : DevOk cmd g) :
    DevOk cmd g' := by
  obtain ⟨f, hf, hid⟩ := h.sessions
  intro t ht hcur
  obtain ⟨s, hs, rfl⟩ := mem_map.1 (hf ▸ ht)
  rw [ident_devFileId (hid s hs).1]
  exact hd s hs (by rw [← hc, hcur, ident_ref (hid s hs).1])

/-- `init_ta_context` has made current the service and the session a command names. -/
structure Aimed (cmd : SmcCmd) (g g' : Globals) : Prop where
  eq : ∃ i c, g' = { g with curService := i, curSession := c }
  cur : g'.curSession = (g.lookup cmd).map Session.ref
  curOk : CurOk g'
  dev : DevOk cmd g'

theorem Aimed.kept (h : Aimed cmd g g') (hb : Good P g) : Kept P g g' := by
  obtain ⟨i, c, rfl⟩ := h.eq
  exact Kept.setCur (.refl hb) i c

theorem aimed_initTaContext (hb : Books g) (hc : g.curSession = none) :
    Aimed cmd g (g.initTaContext cmd).2 := by
  unfold initTaContext
  cases hv : g.findService cmd.uuid cmd.serviceIndex with
  | none =>
    refine ⟨⟨g.curService, g.curSession, rfl⟩, ?_, fun s hs => ?_, fun s _ hs => ?_⟩
    · rw [hc, Globals.lookup, hv]
      rfl
    · have hcur := (cur?_eq_some hs).1
      rw [hc] at hcur
      cases hcur
    · rw [hc] at hs
      cases hs
  | some v =>
    have hlookup : g.lookup cmd = g.findSessionWithDevFileId cmd.sessionId cmd.devFileId v.index := by
      rw [Globals.lookup, hv, Option.bind_some]
    have haimed : Aimed cmd g { g with
        curService := some v.index, curSession := (g.lookup cmd).map ref } := by
      -- what is current is the session that was found, since addresses are unique
      have hfound {s : Session} (hs : s ∈ g.sessions)
          (hr : (g.lookup cmd).map ref = some s.ref) : g.lookup cmd = some s := by
        obtain ⟨t, ht, htr⟩ := Option.map_eq_some_iff.1 hr
        rw [ht, hb.eq_of_ref (findSessionWithDevFileId_spec (hlookup ▸ ht)).1 hs htr]
      refine ⟨⟨_, _, rfl⟩, rfl, fun s hs => ?_, fun s hm hs => ?_⟩
      · obtain ⟨hcur, hm⟩ := cur?_eq_some hs
        rw [(findSessionWithDevFileId_spec (hlookup ▸ hfound hm hcur)).2.1]
      · exact (findSessionWithDevFileId_spec (hlookup ▸ hfound hm hs)).2.2.2.symm
    dsimp only
    rw [← hlookup]
    split_ifs
    · exact haimed
    · exact haimed

theorem Aimed.cur? (h : Aimed cmd g g') (hb : Books g) : g'.cur? = g.lookup cmd := by
  obtain ⟨i, c, rfl⟩ := h.eq
  have hc : c = (g.lookup cmd).map ref := h.cur
  cases hl : g.lookup cmd with
  | none =>
    rw [hl] at hc
    subst hc
    rfl
  | some s =>
    rw [hl] at hc
    subst hc
    obtain ⟨v, -, hs⟩ := Option.bind_eq_some_iff.1 hl
    have hb' : Books { g with curService := i, curSession := some s.ref } :=
      { hb with services := fun v hv => (hb.services v hv).of_ids rfl rfl }
    exact hb'.cur?_of_mem (findSessionWithDevFileId_spec hs).1 rfl

/-- What a command would make gtask send to the current session is allowed. -/
def Calls (P : Prop) (why : Cause) (cmd : SmcCmd) (g : Globals) : Prop :=
  P → ∀ s, g.cur? = some s → ∀ msg, (cmd.isResume → msg.resumes) →
    Out.allowed g.died (.send why { s with cmdIn := cmd } msg)

section Agents

/-- The session a command names has been made current, and keeps its identity. -/
structure Context (P : Prop) (cmd : SmcCmd) (g g' : Globals) : Prop where
  same : Same P g g'
  dev : DevOk cmd g'
  named : ∀ s', g'.cur? = some s' → ∃ s, g.lookup cmd = some s ∧ s'.ident = s.ident

theorem Aimed.same (h : Aimed cmd g g') : Same P g g' := by
  obtain ⟨i, c, rfl⟩ := h.eq
  exact .of_eq rfl rfl rfl (.of_eq rfl rfl rfl)

theorem Aimed.context (h : Aimed cmd g g') (hb : Books g) : Context P cmd g g' :=
  ⟨h.same, h.dev, fun s hs => ⟨s, (h.cur? hb).symm.trans hs, rfl⟩⟩

theorem Same.cur?_eq_some {s' : Session} (h : Same P g g') (hb : Books g)
    (hc : g'.curSession = g.curSession) (hs : g'.cur? = some s') :
    ∃ s, g.cur? = some s ∧ s'.ident = s.ident := by
  obtain ⟨hcur, hm⟩ := Gtask.cur?_eq_some hs
  obtain ⟨f, hf, hid⟩ := h.sessions
  obtain ⟨t, ht, rfl⟩ := mem_map.1 (hf ▸ hm)
  refine ⟨t, hb.cur?_of_mem ht ?_, (hid t ht).1⟩
  rw [← hc, hcur, ident_ref (hid t ht).1]

theorem Context.trans {h : Globals} (hc : Context P cmd g h) (hb : Good P g) (ht : Same P h g')
    (hcur : g'.curSession = h.curSession) : Context P cmd g g' := by
  refine ⟨hc.same.trans ht, ht.devOk hcur hc.dev, fun s' hs' => ?_⟩
  obtain ⟨t, hs, hi⟩ := ht.cur?_eq_some (hc.same.kept hb).books.toBooks hcur hs'
  obtain ⟨s, hl, hi'⟩ := hc.named t hs
  exact ⟨s, hl, hi.trans hi'⟩

variable {owner : Owner} {kind : CmdType} {why : Cause} (hb : Good P g)
include hb

theorem kept_nsCmdResponse : Kept P g (g.nsCmdResponse env owner cmd) :=
  (touch_nsCmdResponse allows_of_notSend).kept hb

theorem kept_sCmdResponse : Kept P g (g.sCmdResponse env cmd task) :=
  (touch_sCmdResponse allows_of_notSend).kept hb

theorem kept_putAgentRequestCmd :
    Kept P g (g.putAgentRequestCmd owner cmd kind agentId) := kept_putLastOutCmd hb

theorem kept_serviceThreadRequestDequeue : Kept P g (g.serviceThreadRequestDequeue cmd) := by
  unfold serviceThreadRequestDequeue
  split_ifs
  · exact .refl hb
  · split
    · exact .of_eq hb rfl rfl rfl
    · next agentId rest _ =>
      have hpop : Kept P g { g with svcPending := rest } :=
        .of_eq hb rfl rfl rfl
      exact hpop.bind kept_putAgentRequestCmd

theorem kept_handleServiceAgentBackCmd : Kept P g (g.handleServiceAgentBackCmd env cmd) := by
  unfold handleServiceAgentBackCmd
  split
  · exact .refl hb
  · next a _ =>
    split_ifs
    · exact .refl hb
    have hreply : Kept P g ((g.emit [.reply a.taskId .ack]).editAgent a.taskId false) :=
      (kept_emit hb (by simp [Out.notSend])).bind fun hb => .of_eq hb rfl rfl rfl
    dsimp only
    generalize (g.emit [.reply a.taskId .ack]).editAgent a.taskId false = h at hreply ⊢
    split
    · next s _ =>
      have hdone : Kept P h (h.editSession s.ref fun s => { s with agentPending := false }) :=
        kept_editSession hreply.books fun _ => rfl
      exact (hreply.trans hdone).bind kept_serviceThreadRequestDequeue
    · split_ifs
      · exact (hreply.bind kept_taExceptionHandleBuildinAgentAck).bind
          kept_serviceThreadRequestDequeue
      · exact hreply.bind kept_serviceThreadRequestDequeue

theorem kept_handleAgentRequest : Kept P g (g.handleAgentRequest env task agentId) := by
  unfold handleAgentRequest
  have hpending {s : Session} : Kept P g (g.editSession s.ref fun s => { s with agentPending := true }) :=
    kept_editSession hb fun _ => rfl
  split
  · exact .refl hb
  split
  · next a _ =>
    unfold handleServiceAgentRequest
    split
    · next s _ =>
      have hagent : Kept P g ((g.editSession s.ref fun s =>
          { s with agentPending := true }).editAgent a.taskId true) :=
        hpending.bind fun hb => .of_eq hb rfl rfl rfl
      exact hagent.bind kept_putAgentRequestCmd
    · split_ifs
      · exact .of_eq hb rfl rfl rfl
      · have hwork : Kept P g ({ g with svcWorking := true }.editAgent a.taskId true) :=
          .of_eq hb rfl rfl rfl
        exact hwork.bind kept_putAgentRequestCmd
  · unfold handleTaAgentRequest
    split_ifs
    · exact hpending.bind kept_putAgentRequestCmd
    · exact kept_emit hb (by simp [Out.notSend])

theorem kept_startTaTask (hd : DevOk cmd g) (hs : Calls P why cmd g) :
    Kept P g (g.startTaTask env why cmd type).2 :=
  (touch_startTaTask allows_of_notSend hd fun s hc msg hr hp => hs hp s hc msg hr).kept hb

theorem kept_resumeAgent (hd : DevOk cmd g)
    (hs : P → cmd.isResume ∨ ∀ s, g.cur? = some s → s.opener = .normalWorld cmd.devFileId) :
    Kept P g (g.resumeAgent env cmd type) := by
  unfold resumeAgent
  split
  · exact kept_nsCmdResponse hb
  · next s _ =>
    split_ifs
    · exact kept_nsCmdResponse hb
    have hedit : Touch (g.allows P) g (g.editCur fun s => { s with agentPending := false }) :=
      .editCur fun _ _ _ => rfl
    have hd' := hedit.same.devOk hedit.cur hd
    have hstart : Kept P g ((g.editCur fun s => { s with agentPending := false }).startTaTask env
        (.agent cmd.devFileId) { cmd with cmdType := s.cmdIn.cmdType, agentId := 0 } type).2 := by
      refine (hedit.kept hb).bind fun hb => kept_startTaTask hb hd' fun hp t ht msg hr => ?_
      rw [cur?_editCur (by intro; rfl)] at ht
      obtain ⟨t₀, ht₀, rfl⟩ := Option.map_eq_some_iff.1 ht
      exact (hs hp).imp hr fun h => h t₀ ht₀
    dsimp only
    split_ifs
    · exact hstart.bind kept_nsCmdResponse
    · exact hstart

theorem context_initTa2taAgentContext (hc : g.curSession = none) :
    Context P cmd g (g.initTa2taAgentContext cmd).2 := by
  have hctx : Context P cmd g (g.initTaContext cmd).2 :=
    (aimed_initTaContext hb.toBooks hc).context hb.toBooks
  unfold initTa2taAgentContext
  generalize g.initTaContext cmd = r at hctx ⊢
  obtain ⟨ret, h⟩ := r
  have hret (h' : Globals) : Touch (h'.allows P) h'
      (h'.editCur fun s => { s with cmdIn := { s.cmdIn with retVal := cmd.retVal } }) :=
    .editCur fun _ _ _ => rfl
  dsimp only
  split_ifs
  · exact hctx
  split
  · exact hctx
  · next s hs =>
    split_ifs
    · exact hctx
    · exact hctx.trans hb (hret h).same (hret h).cur
    split
    · exact hctx
    · next caller _ =>
      have htake (r : Nat) : Same P h (h.editSession r fun s => { s with
          cmdIn := { s.cmdIn with eventNr := cmd.eventNr, caPid := cmd.caPid } }) :=
        same_editSession (fun _ => rfl) fun _ _ _ _ => .inl
      have hcur (h' : Globals) : Touch (h'.allows P) h' (h'.editCur fun s => { s with
          cmdIn := { s.cmdIn with eventNr := cmd.eventNr, caPid := cmd.caPid } }) :=
        .editCur fun _ _ _ => rfl
      exact hctx.trans hb (((htake caller.ref).trans (hcur _).same).trans (hret _).same)
        ((hret _).cur.trans (hcur _).cur)

theorem kept_handleTaAgentBackCmd (hc : g.curSession = none)
    (hs : P → cmd.isResume ∨ ∀ s, g.lookup cmd = some s → s.opener = .normalWorld cmd.devFileId) :
    Kept P g (g.handleTaAgentBackCmd env cmd) := by
  have hta2ta : Context P cmd g (g.initTa2taAgentContext cmd).2 := context_initTa2taAgentContext hb hc
  have hta : Context P cmd g (g.initTaContext cmd).2 :=
    (aimed_initTaContext hb.toBooks hc).context hb.toBooks
  -- both contexts leave the books and aim at the session the response names
  have hctx : ∀ r : CallType × TeeRet × Globals, Context P cmd g r.2.2 →
      Kept P g (if r.2.1 = .success then r.2.2.resumeAgent env cmd r.1
        else
          let a :=
            if r.2.1 = .serviceNotExist then r.2.2.taExceptionHandleAgentAck env cmd else (r.2.1, r.2.2)
          if a.1 = .success then a.2 else a.2.agentBackError env cmd r.2.1) := by
    rintro ⟨type, ret, h⟩ hctx
    have hkept := hctx.same.kept hb
    dsimp only
    split_ifs
    · refine hkept.bind fun hb => kept_resumeAgent hb hctx.dev fun hp => (hs hp).imp id ?_
      intro hown s' hs'
      obtain ⟨s, hl, hi⟩ := hctx.named s' hs'
      exact (ident_opener hi).trans (hown s hl)
    · exact hkept.bind kept_taExceptionHandleAgentAck
    · exact (hkept.bind kept_taExceptionHandleAgentAck).bind kept_nsCmdResponse
    · exact hkept.bind kept_nsCmdResponse
  unfold handleTaAgentBackCmd
  split_ifs
  · exact hctx (.secureToSecure, g.initTa2taAgentContext cmd) hta2ta
  · exact hctx (.nsToSecure, g.initTaContext cmd) hta

end Agents

section Commands

/-- An opening from a state without current session: the books are kept and all
sessions there were stay as they are. -/
structure Opens (P : Prop) (g g' : Globals) : Prop where
  served : Served P g g'
  sessions : g.sessions <+: g'.sessions

theorem Touch.sessions_of_none {O : Out → Prop} (h : Touch O g g') (hc : g.curSession = none) :
    g'.sessions = g.sessions := by
  obtain ⟨f, hf, hid⟩ := h.sessions
  have hsame : ∀ s ∈ g.sessions, f s = s := fun s hs => (hid s hs).2 (by rw [hc]; nofun)
  rw [hf, map_congr_left hsame, map_id']

theorem OpenSpec.opens {caller : TaskId} {r : TeeRet × SmcCmd × Globals}
    {A : TeeRet × SmcCmd × Globals → Globals} (h : OpenSpec P env type cmd caller g r)
    (hb : Good P g) (hc : g.curSession = none)
    (ha : ∀ r : TeeRet × SmcCmd × Globals, Touch (r.2.2.allows P) r.2.2 (A r)) :
    Opens P g (if r.1 = .success then r.2.2 else A r) := by
  cases h with
  | @refused ret c h err href =>
    rw [if_neg (ne_success_of_isErr err)]
    have hanswer := ha (ret, c, h)
    have hnone : h.curSession = none := href.cur.elim id fun heq => heq.trans hc
    refine ⟨(href.kept.bind hanswer.kept).toServed, ?_⟩
    rewrite [hanswer.sessions_of_none hnone, href.sessions]
    exact prefix_refl _
  | @opened c h g' s added cur curSrv touch shown =>
    obtain ⟨s', -, hs'⟩ := touch.append added.sessions cur (hb.forall_ne added.ref)
    exact ⟨(added.served hb shown).bind fun hb => (touch.kept hb).toServed, [s'], hs'.symm⟩

/-- A command of the normal world that names only sessions of the normal world. -/
theorem calls_of_owner (h : Context P cmd g g')
    (hs : P → ∀ s, g.lookup cmd = some s → s.opener = .normalWorld cmd.devFileId) :
    Calls P (.normalWorld cmd.devFileId) cmd g' := by
  intro hp s' hs' msg _
  obtain ⟨s, hl, hi⟩ := h.named s' hs'
  exact (ident_opener hi).trans (hs hp s hl)

/-- The answer of an agent that carries no call of its own. -/
def SmcCmd.isAgentAnswer (cmd : SmcCmd) : Bool :=
  (cmd.cmdType = .taAgent || cmd.cmdType = .ta2taAgent) && cmd.isResume

/-- The session a TA2TA call names: the file is that of the caller's own command. -/
def Globals.lookupTa2ta (g : Globals) (task : TaskId) (cmd : SmcCmd) : Option Session :=
  (g.findTask task).bind fun caller =>
    g.lookup { cmd with devFileId := caller.cmdIn.devFileId }

/-- What `init_ta2ta_context` leaves for the call. -/
structure Called (P : Prop) (task : TaskId) (cmd : SmcCmd) (g : Globals)
    (r : TeeRet × SmcCmd × Globals) : Prop where
  same : Same P g r.2.2
  dev : DevOk r.2.1 r.2.2
  cur : r.2.2.curSession = (g.lookupTa2ta task cmd).map Session.ref
  isOpen : isOpensessionCmd r.2.1 = isOpensessionCmd cmd
  sessions : r.2.2.curSession = none → r.2.2.sessions = g.sessions
  caller : r.1 = .success → P → task ≠ ⟨0, 0⟩
  calls : r.1 = .success → Calls P (.ta2ta task) r.2.1 r.2.2

variable {loadWorked : Bool}

/-- A session of the normal world that a command names has the file of the command. -/
theorem Owned.opener_of_lookup (ho : Owned g) (hl : g.lookup cmd = some s)
    (hs : s.opener.isNormalWorld) : s.opener = .normalWorld cmd.devFileId := by
  obtain ⟨v, -, hfind⟩ := Option.bind_eq_some_iff.1 hl
  obtain ⟨hmem, -, -, hdev⟩ := findSessionWithDevFileId_spec hfind
  obtain ⟨-, -, hopened⟩ := ho.opened s hmem
  cases h : s.opener with
  | normalWorld d =>
    rw [h] at hopened
    rw [← hdev, hopened.2]
  | task _ | gtask =>
    rw [h] at hs
    nomatch hs

/-- A session that was called from a session's task was opened by it. -/
theorem Owned.opener_of_fromTask (ho : Owned g) (hs : s ∈ g.sessions)
    (hf : s.ta2taFromTaskid = task) (hm : task ≠ smcmgrPid) (hz : task ≠ ⟨0, 0⟩) :
    s.opener = .task task := by
  obtain ⟨-, -, hop⟩ := ho.opened s hs
  cases h : s.opener with
  | normalWorld d =>
    rw [h] at hop
    exact absurd (hf.symm.trans hop.1) hm
  | task t =>
    rw [h] at hop
    rw [← hf, hop]
  | gtask =>
    rw [h] at hop
    exact absurd (hf.symm.trans hop) hz

theorem checkTa2taContext_success (h : g.checkTa2taContext task = .success)
    (hs : g.cur? = some s) : s.ta2taFromTaskid = task := by
  unfold checkTa2taContext at h
  split_ifs at h
  rw [hs] at h
  dsimp only at h
  split_ifs at h with hne
  exact not_not.1 hne

variable (hb : Good P g)
include hb

theorem kept_ageService : Kept P g (g.ageService env) := by
  refine kept_services hb filter_sublist fun v hv hgone => ?_
  by_contra hne
  refine hgone (mem_filter.2 ⟨hv, ?_⟩)
  simp [hne]

theorem kept_cmdGlobalNsGetParams : Kept P g (g.cmdGlobalNsGetParams env cmd).2 :=
  (touch_cmdGlobalNsGetParams allows_of_notSend).kept hb

theorem kept_processLoadImage : Kept P g (g.processLoadImage env cmd).2.2 := by
  have hparams : Kept P g ((g.ageService env).cmdGlobalNsGetParams env cmd).2 :=
    (kept_ageService hb).bind kept_cmdGlobalNsGetParams
  unfold processLoadImage
  dsimp only
  split_ifs
  · exact hparams
  · exact hparams.bind fun hb => .of_eq hb rfl rfl rfl
  · exact hparams

theorem kept_dispatchNsSyncCmd : Kept P g (g.dispatchNsSyncCmd env cmd).2 := by
  have hparams : Kept P g (g.cmdGlobalNsGetParams env cmd).2 := kept_cmdGlobalNsGetParams hb
  unfold dispatchNsSyncCmd registerMailbox
  dsimp only
  split_ifs
  · exact .refl hb
  · exact .refl hb
  · exact hparams
  · split
    · exact hparams
    · split_ifs
      · exact hparams
      · exact hparams.bind fun hb => .of_eq hb rfl rfl rfl
  · exact .refl hb
  · exact hparams
  · split
    · exact hparams
    · next i _ =>
      have hload (h : Globals) (hb : Good P h) :
          Kept P h (h.editService i fun v => { v with refCnt := v.refCnt + 1 }) :=
        kept_editService hb fun _ => rfl
      exact hparams.bind (hload _)
  · exact hparams

theorem kept_closeSession {why : Cause} (hd : DevOk cmd g) (hs : Calls P why cmd g) :
    Kept P g (g.closeSession env why cmd type).2.2 :=
  (touch_closeSession allows_of_notSend hd fun s hc msg hr hp => hs hp s hc msg hr).kept hb

theorem kept_dispatchNsCmd (hd : DevOk cmd g) (hs : Calls P (.normalWorld cmd.devFileId) cmd g)
    (ho : isOpensessionCmd cmd = false) : Kept P g (g.dispatchNsCmd env cmd) := by
  -- every command but an OPEN ends in a state with the same sessions, and may be answered
  have hanswer : ∀ r : TeeRet × SmcCmd × Bool × Globals, Kept P g r.2.2.2 →
      Kept P g (if r.2.2.1 then r.2.2.2
        else r.2.2.2.nsCmdResponse env .command { r.2.1 with retVal := r.1 }) := by
    rintro ⟨ret, c, async, h⟩ hkept
    split_ifs
    · exact hkept
    · exact hkept.bind kept_nsCmdResponse
  unfold dispatchNsCmd
  split_ifs with hglobal
  · refine hanswer (g.dispatchNsGlobalCmd env cmd) ?_
    have hid : cmd.cmdId ≠ openSessionId := by
      intro h
      rw [isOpensessionCmd, hglobal, h] at ho
      exact absurd ho (by decide)
    unfold dispatchNsGlobalCmd
    rw [if_neg hid]
    split_ifs
    · exact kept_closeSession hb hd hs
    · exact .of_eq hb rfl rfl rfl
    · exact kept_processLoadImage hb
    · exact kept_dispatchNsSyncCmd hb
  · have hstart : Kept P g (g.startTaTask env (.normalWorld cmd.devFileId) cmd .nsToSecure).2 :=
      kept_startTaTask hb hd hs
    generalize g.startTaTask env (.normalWorld cmd.devFileId) cmd .nsToSecure = r at hstart ⊢
    exact hanswer (r.1, cmd, decide (r.1 = .success), r.2) hstart

theorem kept_processTa2taCmd (hd : DevOk cmd g) (hs : Calls P (.ta2ta task) cmd g)
    (ho : isOpensessionCmd cmd = false) :
    Kept P g (g.processTa2taCmd env cmd task loadWorked) := by
  have hstart : Kept P g (g.startTaTask env (.ta2ta task) cmd .secureToSecure).2 :=
    kept_startTaTask hb hd hs
  have hclose : Kept P g (g.closeSession env (.ta2ta task) cmd .secureToSecure).2.2 :=
    kept_closeSession hb hd hs
  unfold processTa2taCmd
  dsimp only
  split_ifs with hta _ hopen
  · exact hstart
  · exact hstart.bind kept_sCmdResponse
  · rw [isOpensessionCmd, hopen, not_not.1 hta] at ho
    cases ho
  · rw [isOpensessionCmd, hopen, not_not.1 hta] at ho
    cases ho
  · exact hclose
  · exact hclose.bind kept_sCmdResponse
  · exact .refl hb
  · exact kept_sCmdResponse hb

variable (hc : g.curSession = none)
include hc

theorem called_initTa2taContext :
    Called P task cmd g (g.initTa2taContext cmd task) := by
  unfold initTa2taContext
  dsimp only
  split
  · next hno =>
    refine ⟨.of_eq rfl rfl rfl (.of_eq rfl rfl rfl), fun s _ hs => ?_, ?_, rfl, fun _ => rfl,
      nofun, nofun⟩
    · rw [hc] at hs
      cases hs
    · rw [hc, lookupTa2ta, hno]
      rfl
  · next caller hcaller =>
    generalize hcmd : ({ cmd with uid := task, caPid := caller.cmdIn.caPid, eventNr := caller.cmdIn.eventNr,
                                  devFileId := caller.cmdIn.devFileId } : SmcCmd) = cmd'
    have haimed : Aimed cmd' g (g.initTaContext cmd').2 := aimed_initTaContext hb.toBooks hc
    have hcur : (g.initTaContext cmd').2.curSession = (g.lookupTa2ta task cmd).map ref := by
      rw [haimed.cur, lookupTa2ta, hcaller, ← hcmd]
      rfl
    have hopen : isOpensessionCmd cmd' = isOpensessionCmd cmd := by rw [← hcmd]; rfl
    have hsessions : (g.initTaContext cmd').2.sessions = g.sessions := by
      obtain ⟨i, c, heq⟩ := haimed.eq
      rw [heq]
    -- the caller has a session, so it is no task with a fixed part
    have htask (hp : P) : task ≠ smcmgrPid ∧ task ≠ ⟨0, 0⟩ := by
      obtain ⟨hm, ht⟩ := doFindTask_mem hcaller
      obtain ⟨h₁, h₂, -⟩ := (hb.owned hp).opened caller hm
      exact ⟨ht ▸ h₁, ht ▸ h₂⟩
    generalize g.initTaContext cmd' = r at haimed hcur hsessions ⊢
    obtain ⟨ret, h⟩ := r
    have hset : Touch (h.allows P) h (h.editCur fun s => { s with cmdSet := true, cmdIn := cmd' }) :=
      .editCur fun s hs hr => by simp only [frame, ident, haimed.dev s hs hr]
    split_ifs with hret hcheck
    · exact ⟨haimed.same, haimed.dev, hcur, hopen, fun _ => hsessions, fun h => absurd h hret,
        fun h => absurd h hret⟩
    · exact ⟨haimed.same, haimed.dev, hcur, hopen, fun _ => hsessions, fun h => absurd h hcheck,
        fun h => absurd h hcheck⟩
    · refine ⟨haimed.same.trans hset.same, hset.same.devOk hset.cur haimed.dev, hset.cur.trans hcur,
        hopen, fun hnone => ?_, fun _ hp => (htask hp).2, fun _ hp s' hs' msg _ => ?_⟩
      · rw [hset.sessions_of_none (hset.cur.symm.trans hnone)]
        exact hsessions
      · rw [cur?_editCur (by intro; rfl)] at hs'
        obtain ⟨s, hs, rfl⟩ := Option.map_eq_some_iff.1 hs'
        have hfrom := checkTa2taContext_success (not_not.1 hcheck) hs
        have hmem : s ∈ g.sessions := hsessions ▸ (cur?_eq_some hs).2
        have hown : s.opener = .task task :=
          (hb.owned hp).opener_of_fromTask hmem hfrom (htask hp).1 (htask hp).2
        exact ⟨hown, hfrom⟩

variable (hfresh : NewTask env g)
include hfresh

theorem opens_processTa2taCmd (hk : P → KernelTask env ∧ task ≠ ⟨0, 0⟩)
    (ho : isOpensessionCmd cmd) :
    Opens P g (g.processTa2taCmd env cmd task loadWorked) := by
  simp only [isOpensessionCmd, Bool.and_eq_true, decide_eq_true_eq] at ho
  have hopen : OpenSpec P env .secureToSecure cmd task g
      (g.openSession env (.ta2ta task) cmd .secureToSecure task loadWorked) :=
    openSession_spec hb hfresh hc hk fun _ _ _ h => ⟨h.opener, h.fromTask⟩
  have hopens := hopen.opens hb hc
    (A := fun r => r.2.2.sCmdResponse env { r.2.1 with retVal := r.1 } task)
    fun _ => touch_sCmdResponse allows_of_notSend
  unfold processTa2taCmd
  simpa only [ho.1, ho.2, ne_eq, not_true_eq_false, if_false, if_true, decide_eq_true_eq] using hopens

variable (hk : P → KernelTask env)
include hk

theorem opens_dispatchNsCmd (ho : isOpensessionCmd cmd) : Opens P g (g.dispatchNsCmd env cmd) := by
  simp only [isOpensessionCmd, Bool.and_eq_true, decide_eq_true_eq] at ho
  have hopen : OpenSpec P env .nsToSecure cmd smcmgrPid g
      (g.openSession env (.normalWorld cmd.devFileId) cmd .nsToSecure smcmgrPid false) :=
    openSession_spec hb hfresh hc (fun hp => ⟨hk hp, rfl⟩) fun _ _ _ h => h.opener
  have hopens := hopen.opens hb hc
    (A := fun r => r.2.2.nsCmdResponse env .command { r.2.1 with retVal := r.1 })
    fun _ => touch_nsCmdResponse allows_of_notSend
  unfold dispatchNsCmd dispatchNsGlobalCmd
  simpa only [ho.1, ho.2, if_true, decide_eq_true_eq] using hopens

/-- A command of the normal world, served or refused. -/
theorem served_checkAndDispatchNsCmd (hnone : isOpensessionCmd cmd → g.lookup cmd = none)
    (hs : P → ∀ s, g.lookup cmd = some s → s.opener = .normalWorld cmd.devFileId) :
    Served P g (g.checkAndDispatchNsCmd env cmd) ∧
      (isOpensessionCmd cmd → g.sessions <+: (g.checkAndDispatchNsCmd env cmd).sessions) := by
  have hput (h : Globals) (c : SmcCmd) : Touch (h.allows P) h (h.putLastOutCmd .command c) :=
    touch_putLastOutCmd allows_of_notSend
  have haimed : Aimed cmd g (g.initTaContext cmd).2 := aimed_initTaContext hb.toBooks hc
  unfold checkAndDispatchNsCmd
  dsimp only
  split_ifs
  · refine ⟨((hput g _).kept hb).toServed, fun _ => ?_⟩
    rewrite [(hput g _).sessions_of_none hc]
    exact prefix_refl _
  all_goals
    generalize g.initTaContext cmd = r at haimed ⊢
    obtain ⟨ret, h⟩ := r
    have hsessions : h.sessions = g.sessions := by
      obtain ⟨i, c, rfl⟩ := haimed.eq
      rfl
    have hcur : isOpensessionCmd cmd → h.curSession = none := fun ho => by
      rw [haimed.cur, hnone ho]
      rfl
    have hkept : Kept P g h := haimed.kept hb
  · refine ⟨(hkept.bind (hput h _).kept).toServed, fun ho => ?_⟩
    rw [(hput h _).sessions_of_none (hcur ho)]
    exact hsessions ▸ prefix_refl _
  · cases ho : isOpensessionCmd cmd with
    | true =>
      have htasks : NewTask env h := by
        obtain ⟨i, c, rfl⟩ := haimed.eq
        exact hfresh
      have hopens := opens_dispatchNsCmd hkept.books (hcur ho) htasks hk ho
      exact ⟨hkept.toServed.trans hopens.served, fun _ => hsessions ▸ hopens.sessions⟩
    | false =>
      have hcalls := calls_of_owner (haimed.context hb.toBooks) hs
      exact ⟨(hkept.bind fun hb => kept_dispatchNsCmd hb haimed.dev hcalls ho).toServed, nofun⟩

theorem served_handleNsCmd (hnone : isOpensessionCmd cmd → g.lookup cmd = none)
    (hs : P → isAbortCmd cmd ∨ cmd.isAgentAnswer ∨
      ∀ s, g.lookup cmd = some s → s.opener = .normalWorld cmd.devFileId) :
    Served P g (g.handleNsCmd env cmd) ∧
      (isOpensessionCmd cmd → g.sessions <+: (g.handleNsCmd env cmd).sessions) := by
  unfold handleNsCmd
  have hkill : isAbortCmd cmd → isOpensessionCmd cmd = false := by
    simp only [isAbortCmd, isOpensessionCmd, Bool.and_eq_true, decide_eq_true_eq,
      Bool.and_eq_false_imp, decide_eq_false_iff_not]
    intro h _
    rw [h.2]
    decide
  split_ifs with hslot habort
  · exact ⟨.refl hb, fun _ => prefix_refl _⟩
  · exact ⟨(kept_handleKillTask hb).toServed, fun ho => absurd (hkill habort) (by rw [ho]; nofun)⟩
  have hs' (hp : P) := (hs hp).resolve_left habort
  have hdoing : Kept P g { g with cmdDoing := Function.update g.cmdDoing cmd.eventNr true } :=
    .of_eq hb rfl rfl rfl
  have hglobal : isOpensessionCmd cmd → cmd.cmdType = .global := by
    simp only [isOpensessionCmd, Bool.and_eq_true, decide_eq_true_eq]
    exact fun h => h.1
  -- a response is no OPEN, a command is no response
  have hback : Kept P g (handleTaAgentBackCmd env
      { g with cmdDoing := Function.update g.cmdDoing cmd.eventNr true } cmd) :=
    hdoing.bind fun hb => kept_handleTaAgentBackCmd hb hc fun hp =>
      (hs' hp).imp_left fun h => (Bool.and_eq_true_iff.1 h).2
  have hown (ht : cmd.cmdType = .global ∨ cmd.cmdType = .ta) (hp : P) :
      ∀ s, g.lookup cmd = some s → s.opener = .normalWorld cmd.devFileId := by
    refine (hs' hp).resolve_left fun h => ?_
    simp only [SmcCmd.isAgentAnswer, Bool.and_eq_true, Bool.or_eq_true, decide_eq_true_eq] at h
    rcases ht with ht | ht <;> rw [ht] at h <;> simp at h
  split
  · next ht => exact ⟨(hdoing.bind kept_handleServiceAgentBackCmd).toServed, fun ho => by
      rw [hglobal ho] at ht; cases ht⟩
  · next ht => exact ⟨hback.toServed, fun ho => by rw [hglobal ho] at ht; cases ht⟩
  · next ht => exact ⟨hback.toServed, fun ho => by rw [hglobal ho] at ht; cases ht⟩
  · next ht =>
    have hserve := served_checkAndDispatchNsCmd hdoing.books hc hfresh hk hnone (hown (.inl ht))
    exact ⟨hdoing.toServed.trans hserve.1, hserve.2⟩
  · next ht =>
    have hserve := served_checkAndDispatchNsCmd hdoing.books hc hfresh hk hnone (hown (.inr ht))
    exact ⟨hdoing.toServed.trans hserve.1, hserve.2⟩

/-- A call of a TA, served or refused. -/
theorem served_handleTa2taCmd (hnone : isOpensessionCmd cmd → g.lookupTa2ta task cmd = none) :
    Served P g (g.handleTa2taCmd env task (some cmd) loadWorked) ∧ (isOpensessionCmd cmd →
        g.sessions <+: (g.handleTa2taCmd env task (some cmd) loadWorked).sessions) := by
  have hcall : Called P task cmd g (g.initTa2taContext cmd task) := called_initTa2taContext hb hc
  unfold handleTa2taCmd
  dsimp only
  generalize g.initTa2taContext cmd task = r at hcall ⊢
  obtain ⟨ret, cmd', h⟩ := r
  have hanswer (c : SmcCmd) : Touch (h.allows P) h (h.sCmdResponse env c task) :=
    touch_sCmdResponse allows_of_notSend
  have hkept := hcall.same.kept hb
  have hcur (ho : isOpensessionCmd cmd) : h.curSession = none := by
    rw [hcall.cur, hnone ho]
    rfl
  split_ifs with hret
  · refine ⟨(hkept.bind (hanswer _).kept).toServed, fun ho => ?_⟩
    rewrite [(hanswer _).sessions_of_none (hcur ho), hcall.sessions (hcur ho)]
    exact prefix_refl _
  · have hsuccess : ret = .success := not_not.1 hret
    cases ho : isOpensessionCmd cmd with
    | true =>
      have hopens : Opens P h (h.processTa2taCmd env cmd' task loadWorked) :=
        opens_processTa2taCmd hkept.books (hcur ho) (fun t ht => hcall.same.tasks ▸ hfresh t ht)
          (fun hp => ⟨hk hp, hcall.caller hsuccess hp⟩) (hcall.isOpen.trans ho)
      exact ⟨hkept.toServed.trans hopens.served, fun _ => hcall.sessions (hcur ho) ▸ hopens.sessions⟩
    | false =>
      exact ⟨(hkept.bind fun hb => kept_processTa2taCmd hb hcall.dev (hcall.calls hsuccess)
        (hcall.isOpen.trans ho)).toServed, nofun⟩

end Commands

section Answers

/-- If the caller of `s` was dead when `s` was read, the session with its task is an
orphan. -/
def Acks (P : Prop) (g : Globals) (s : Session) : Prop :=
  P → s.sessionStatus = .fatherDead → ∀ s' ∈ g.sessions, s'.taskId = s.taskId →
    ∃ t ∈ g.died, s'.opener = .task t

theorem Acks.of_mem (hb : Good P g) (hs : s ∈ g.sessions) : Acks P g s := by
  intro hp hd s' hs' ht
  rw [hb.eq_of_taskId hs' hs ht]
  exact (hb.owned hp).orphan s hs hd

theorem Acks.kept (ha : Acks P g s) (h : Kept P g g') : Acks P g' s := by
  intro hp hd s' hs' ht
  obtain ⟨u, hu, hi⟩ := h.origin s' hs'
  obtain ⟨t, htd, hop⟩ := ha hp hd u hu ((ident_taskId hi).symm.trans ht)
  exact ⟨t, h.died htd, (ident_opener hi).trans hop⟩

variable {ret : TeeRet}

theorem Kept.answerTa (h : Kept P g g') (ha : Acks P g s) : Kept P g (g'.answerTa env s ret) := by
  refine h.bind fun hb => ?_
  unfold Globals.answerTa
  split_ifs
  · exact (touch_gtCmdResponse allows_of_notSend).kept hb
  · exact kept_taExceptionHandleAck hb (ha.kept h)

variable (hb : Good P g) {back : BackCmd}
include hb

section

variable (hc : CurOk g) (ha : Acks P g s)
include hc ha

theorem kept_callTaOpenSessionProp : Kept P g (g.callTaOpenSessionProp env s ret) := by
  unfold callTaOpenSessionProp
  have hopen : Kept P g (g.processOpenSession env s.cmdIn s.cmdType).2 := kept_processOpenSession hb hc
  dsimp only
  split_ifs
  · exact (kept_processOpenSessionError hb hc).answerTa ha
  · exact hopen.answerTa ha
  · exact hopen

theorem kept_callTaOpenSessionInit : Kept P g (g.callTaOpenSessionInit env s ret) := by
  have hinit : Touch (g.allows P) g (g.processInitSession env).2 :=
    touch_processInitSession fun _ _ _ _ => trivial
  have hkept := hinit.kept hb
  unfold callTaOpenSessionInit
  dsimp only
  split_ifs
  · exact (kept_processOpenSessionError hb hc).answerTa ha
  · exact hkept
  · exact hkept.bind fun hb' =>
      kept_callTaOpenSessionProp hb' (hinit.curOk hb.toBooks hc) (ha.kept hkept)

theorem kept_callTaOpenSession : Kept P g (g.callTaOpenSession env s ret) := by
  have hfirst : Kept P g (g.editService s.srv fun v => { v with firstOpen := false }) :=
    kept_editService hb fun _ => rfl
  unfold callTaOpenSession
  dsimp only
  generalize (if ret = .success && g.checkShortBuffer env then TeeRet.shortBuffer else ret) = ret'
  split_ifs
  · exact hfirst.answerTa ha
  · exact (kept_processOpenSessionError hb hc).answerTa ha

theorem kept_handleTaBackMsg (hcur : g.curSession = some s.ref) :
    Kept P g (g.handleTaBackMsg env s back ret) := by
  have hdone : Touch (g.allows P) g (g.editSession s.ref fun s => { s with waitTaBackMsg := false }) :=
    .editSession hcur fun _ _ _ => rfl
  have hkept := hdone.kept hb
  have hc' := hdone.curOk hb.toBooks hc
  have ha' := ha.kept hkept
  unfold handleTaBackMsg
  split_ifs
  · exact .refl hb
  cases back with
  | invokeCmd => exact hkept.answerTa ha
  | closeSession => exact (hkept.bind fun hb => kept_processCloseSession hb hc').answerTa ha
  | openSessionInit => exact hkept.bind fun hb => kept_callTaOpenSessionInit hb hc' ha'
  | openSessionProp => exact hkept.bind fun hb => kept_callTaOpenSessionProp hb hc' ha'
  | openSession => exact hkept.bind fun hb => kept_callTaOpenSession hb hc' ha'
  | unknown => exact .refl hb

end

theorem kept_handleMsgFromTa : Kept P g (g.handleMsgFromTa env task back ret agentId) := by
  unfold handleMsgFromTa
  split
  · exact .refl hb
  · next s hs =>
    have hmem := (doFindTask_mem hs).1
    have hcur : Kept P g { g with curService := some s.srv, curSession := some s.ref } :=
      Kept.setCur (.refl hb) _ _
    have hc : CurOk { g with curService := some s.srv, curSession := some s.ref } := by
      intro t ht
      obtain ⟨hr, hm⟩ := cur?_eq_some ht
      rw [hb.eq_of_ref hm hmem (Option.some.inj hr).symm]
    split
    · exact hcur.bind kept_handleAgentRequest
    · refine hcur.bind fun hb => ?_
      unfold handleTeeWaitPendingMsg
      split_ifs
      · exact kept_emit hb (by simp [Out.notSend])
      · exact kept_nsCmdResponse hb
    · exact hcur.bind fun hb' => kept_handleTaBackMsg hb' hc ((Acks.of_mem hb hmem).kept hcur) rfl

end Answers

end TeeOs.Gtask
