import TeeOs.Gtask.Books

/-!
# Every teardown keeps the books

Closing a session, a failed opening, and the end of a TA take sessions out of their
lists by different routes. Each of them is a sequence of releases and of changes that
do not concern the books.
-/

namespace TeeOs.Gtask

open TeeOs.Lib List Globals Option

variable {P : Prop} {g g' g'' : Globals} {env : Env} {v : Service} {s : Session} {O : Out → Prop}
  {cmd : SmcCmd}
  {type : CallType}

/-- Whatever is listed at the address of `s` is the session `s` was read from. -/
def Known (g : Globals) (s : Session) : Prop := ∀ s' ∈ g.sessions, s'.ref = s.ref → s'.ident = s.ident

theorem Kept.known (h : Kept P g g') (hb : Good P g) (hs : s ∈ g.sessions) : Known g' s := by
  intro s' hm hr
  obtain ⟨t, ht, hi⟩ := h.origin s' hm
  rw [hi, hb.eq_of_ref ht hs ((ident_ref hi).symm.trans hr)]

theorem Known.srv {s' : Session} (h : Known g s) (hs : g.session? s.ref = some s') :
    s'.srv = s.srv :=
  ident_srv (h s' (session?_eq_some hs).1 (session?_eq_some hs).2)

theorem Books.known (hb : Books g) (hs : s ∈ g.sessions) : Known g s := fun s' hm hr => by
  rw [hb.eq_of_ref hm hs hr]

/-- The current session belongs to the current service. -/
def CurOk (g : Globals) : Prop := ∀ s, g.cur? = some s → g.curService = some s.srv

theorem Books.cur?_of_mem (hb : Books g) (hs : s ∈ g.sessions) (hc : g.curSession = some s.ref) :
    g.cur? = some s := by
  unfold Globals.cur?
  rw [hc, bind_some]
  cases hq : g.session? s.ref with
  | none =>
    have hno := find?_eq_none.1 hq s hs
    simp at hno
  | some t =>
    obtain ⟨ht, htr⟩ := session?_eq_some hq
    rw [hb.eq_of_ref ht hs htr]

theorem Touch.curOk (h : Touch O g g') (hb : Books g) (hc : CurOk g) : CurOk g' := by
  intro s' hs'
  obtain ⟨hcur, hm⟩ := cur?_eq_some hs'
  obtain ⟨f, hf, hid⟩ := h.sessions
  obtain ⟨s, hs, rfl⟩ := mem_map.1 (hf ▸ hm)
  have hr : g.curSession = some s.ref := by rw [← h.cur, hcur, ident_ref (ident_of_frame (hid s hs).1)]
  rw [h.curSrv, hc s (hb.cur?_of_mem hs hr), ident_srv (ident_of_frame (hid s hs).1)]

variable {t task : TaskId} {i r : Nat}

theorem targetSession_mem (h : g.targetSession t = some s) : s ∈ g.sessions := by
  obtain ⟨v, -, hv⟩ := exists_of_findSome?_eq_some h
  split_ifs at hv
  exact (mem_sessionsOf.1 (mem_of_find?_eq_some hv)).1

theorem kept_processCloseTa2taTargetSessions (n : Nat) :
    ∀ {t : TaskId} {level : Nat} {g : Globals}, Good P g →
      Kept P g (Globals.processCloseTa2taTargetSessions env n t level g) := by
  induction n with
  | zero => exact fun hb => .refl hb
  | succ n ih =>
    intro t level g hb
    unfold processCloseTa2taTargetSessions
    split
    · exact .refl hb
    · next s hs =>
      have hmem := targetSession_mem hs
      have hinner : Kept P g (if level < maxTa2taLevel then
          processCloseTa2taTargetSessions env n s.taskId (level + 1) g else g) := by
        split_ifs
        · exact ih hb
        · exact .refl hb
      generalize (if level < maxTa2taLevel then
          processCloseTa2taTargetSessions env n s.taskId (level + 1) g else g) = h at hinner ⊢
      have hentry : Kept P g (h.processCloseSessionEntry env s.srv s.ref) :=
        hinner.trans (kept_processCloseSessionEntry hinner.books fun _ => (hinner.known hb hmem).srv)
      exact hentry.trans (ih hentry.books)

theorem Kept.setCur (h : Kept P g g') (c : Option Nat) (d : Option Nat) :
    Kept P g { g' with curService := c, curSession := d } :=
  h.trans (.of_eq h.books rfl rfl rfl)

theorem Kept.setCurService (h : Kept P g g') (c : Option Nat) : Kept P g { g' with curService := c } :=
  h.trans (.of_eq h.books rfl rfl rfl)

/-- The task of `s` is deleted and no longer counted. -/
def Globals.uncount (g : Globals) (env : Env) (v : Service) (s : Session) : SreRet × Globals :=
  (g.editService v.index fun v => { v with sessionCount := countDown v.sessionCount }).sreTaskDeleteEx
    env s.taskId false

/-- Nothing but the session `s` was read from will be found at its address. -/
def Tracked (P : Prop) (g : Globals) (s : Session) : Prop := ∀ g', Kept P g g' → Known g' s

theorem Tracked.kept (ht : Tracked P g s) (h : Kept P g g') : Tracked P g' s :=
  fun _ h' => ht _ (h.trans h')

theorem doFindTask_mem {dead : Bool} (h : g.doFindTask t dead = some s) :
    s ∈ g.sessions ∧ s.taskId = t := by
  obtain ⟨v, -, hv⟩ := exists_of_findSome?_eq_some h
  split_ifs at hv
  have ht := find?_some hv
  exact ⟨(mem_sessionsOf.1 (mem_of_find?_eq_some hv)).1, of_decide_eq_true ht⟩

/-- A property of the sessions in a list that every round keeps. -/
theorem kept_foldl {f : Globals → Nat → Globals} {Q : Globals → Nat → Prop}
    (hf : ∀ {g r}, Good P g → Q g r → Kept P g (f g r))
    (hQ : ∀ {g g' r}, Kept P g g' → Q g r → Q g' r) (l : List Nat) :
    ∀ {g}, Good P g → (∀ r ∈ l, Q g r) → Kept P g (l.foldl f g) := by
  induction l with
  | nil => exact fun hb _ => .refl hb
  | cons r l ih =>
    intro g hb hl
    have hstep := hf hb (hl r (mem_cons_self ..))
    exact hstep.bind fun hb => ih hb fun r' hr => hQ hstep (hl r' (mem_cons_of_mem _ hr))

/-- The caller of the session at an address has died. -/
def Orphan (P : Prop) (g : Globals) (r : Nat) : Prop :=
  P → ∀ s ∈ g.sessions, s.ref = r → ∃ t ∈ g.died, s.opener = .task t

theorem Orphan.kept (h : Kept P g g') (ho : Orphan P g r) : Orphan P g' r := by
  intro hp s' hs' hr
  obtain ⟨s, hs, hi⟩ := h.origin s' hs'
  obtain ⟨t, ht, hop⟩ := ho hp s hs ((ident_ref hi).symm.trans hr)
  exact ⟨t, h.died ht, (ident_opener hi).trans hop⟩

/-- The state in which a session is marked dead. -/
def Globals.markDead (g : Globals) (s : Session) : Globals :=
  { g.editSession s.ref fun s => { s with sessionStatus := .selfDead } with
    died := s.taskId :: g.died }

theorem same_markDead : Same P g (g.markDead s) := by
  have hedit : Same P g (g.editSession s.ref fun s => { s with sessionStatus := .selfDead }) :=
    same_editSession (fun _ => rfl) fun _ _ _ _ h => nomatch h
  refine hedit.trans (.of_eq rfl rfl rfl ⟨le_rfl, subset_cons_self _ _, [], ?_, ?_⟩)
  · exact (append_nil _).symm
  · exact fun _ h => nomatch h

theorem service?_editService {f : Service → Service} (hf : ∀ v, (f v).index = v.index) :
    (g.editService i f).service? i = (g.service? i).map f :=
  Keyed.find?_edit hf

theorem service?_of_curSrv? (h : g.curSrv? = some v) : g.service? v.index = some v := by
  have hc := (curSrv?_eq_some h).1
  unfold curSrv? at h
  rwa [hc] at h

section

variable {owner : Owner} {os : List Out} {handleRefCnt : Bool} {sre : SreRet} (hb : Good P g)
include hb

theorem kept_processCloseSession (hc : CurOk g) : Kept P g (g.processCloseSession env) := by
  unfold processCloseSession
  split
  · next s i hs hi =>
    obtain rfl : s.srv = i := some.inj ((hc s hs).symm.trans hi)
    have htargets : Kept P g (processCloseTa2taTargetSessions env g.sessions.length s.taskId
        s.ta2taLevel g) := kept_processCloseTa2taTargetSessions _ hb
    have hknown : Known _ s := htargets.known hb (cur?_eq_some hs).2
    exact Kept.setCur (htargets.trans
      (kept_processCloseSessionEntry htargets.books fun _ => hknown.srv)) _ _
  · exact .refl hb

theorem kept_processOpenSessionError (hc : CurOk g) : Kept P g (g.processOpenSessionError env) := by
  unfold processOpenSessionError
  split
  · next s v hs hv =>
    have hx : s.srv = v.index :=
      some.inj ((hc s hs).symm.trans (curSrv?_eq_some hv).1)
    have hremoved : Removed s g
        { (((g.releasePamNode s.pamNode).uncount env v s).2.editService v.index fun v => { v with
            sessionBitmap := clrBit v.sessionBitmap (s.sessionId - 1) }).freeSession s.ref with
          curSession := none } := by
      refine ⟨(cur?_eq_some hs).2, rfl, ?_, rfl, le_rfl, rfl, ⟨_, append_assoc _ _ _,
        fun o ho => ?_⟩, ?_⟩
      · rw [hx]
        exact congrArg (List.map Service.ledger) edit_without
      · rcases mem_append.1 ho with ho | ho
        · exact notSend_release o ho
        · rw [mem_singleton.1 ho]
          trivial
      · exact mem_concat_self
    have hkept := hremoved.kept hb
    exact Kept.setCurService (hkept.trans (kept_retireService hkept.books)) _
  · exact .refl hb

theorem kept_processOpenSession (hc : CurOk g) :
    Kept P g (g.processOpenSession env cmd type).2 := by
  unfold processOpenSession
  split
  · next s v hs hv =>
    have hparams : Touch (g.allows P) g (g.getParams env s.taskId cmd type).2 :=
      touch_getParams allows_of_notSend
    dsimp only
    split_ifs
    · exact (hparams.kept hb).bind fun hb' =>
        kept_processOpenSessionError hb' (hparams.curOk hb.toBooks hc)
    · have hsend (msg : TaMsg) : g.allows P (.send .opening s msg) := fun _ => trivial
      refine (hparams.trans (touch_sendTa ?_ (hsend _))).kept hb
      exact hparams.cur.trans (cur?_eq_some hs).1
  · exact .refl hb

theorem Tracked.of_mem (hs : s ∈ g.sessions) : Tracked P g s :=
  fun _ h => h.known hb hs

theorem kept_putLastOutCmd : Kept P g (g.putLastOutCmd owner cmd) :=
  (touch_putLastOutCmd allows_of_notSend).kept hb

theorem kept_emit (h : ∀ o ∈ os, o.notSend) : Kept P g (g.emit os) :=
  (Touch.emit fun o ho => allows_of_notSend o (h o ho)).kept hb

theorem kept_taExceptionResponse : Kept P g (g.taExceptionResponse s) := by
  unfold taExceptionResponse
  have hedit : Kept P g (g.editSession s.ref fun s =>
      { s with cmdIn := { s.cmdIn with retVal := .targetDead } }) := kept_editSession hb fun _ => rfl
  cases s.cmdType with
  | nsToSecure => exact hedit.bind kept_putLastOutCmd
  | secureToSecure => exact hedit.bind fun hb => kept_emit hb (by simp [Out.notSend])

theorem kept_answerAndRelease (ht : Tracked P g s) : Kept P g (g.answerAndRelease env s).2 := by
  have h : Kept P g (if s.waitTaBackMsg then g.taExceptionResponse s else g) := by
    split_ifs
    · exact kept_taExceptionResponse hb
    · exact .refl hb
  exact h.trans (kept_releaseSession h.books fun _ => (ht _ h).srv)

theorem kept_releaseServiceIfEmpty : Kept P g (g.releaseServiceIfEmpty i) := by
  unfold releaseServiceIfEmpty
  split
  · next v hv =>
    split_ifs with hc
    · exact kept_processReleaseService hb hv hc
    · exact .refl hb
  · exact .refl hb

theorem kept_closeSessionAsync (hk : Known g s) (ho : Orphan P g s.ref) :
    Kept P g (g.closeSessionAsync env s).2 := by
  unfold closeSessionAsync
  split
  · exact .refl hb
  · next v hv =>
    have hcur : Kept P g { g with curService := some v.index, curSession := some s.ref } :=
      Kept.setCur (.refl hb) _ _
    refine hcur.bind fun hb => Touch.kept ?_ hb
    refine .trans (.editCur fun s' hm hc => ?_) (touch_asyncCallTaEntry allows_of_notSend
      fun s' hs' msg _ hp => ?_)
    · have hdev := ident_devFileId (hk s' hm (some.inj hc).symm)
      simp only [Session.frame, Session.ident, hdev]
    · rw [cur?_editCur (by intro; rfl)] at hs'
      obtain ⟨t, ht, rfl⟩ := map_eq_some_iff.1 hs'
      obtain ⟨hr, hm⟩ := cur?_eq_some ht
      exact ho hp t hm (some.inj hr).symm

theorem kept_closeChild (ho : Orphan P g r) : Kept P g (g.closeChild env r) := by
  unfold closeChild
  split
  · exact .refl hb
  · next s hs =>
    obtain ⟨hm, rfl⟩ := session?_eq_some hs
    have hsame : Same P g (g.editSession s.ref fun s => { s with sessionStatus := .fatherDead }) :=
      same_editSession (fun _ => rfl) fun hp t ht hr _ => .inr (ho hp t ht hr)
    have hmark := hsame.kept hb
    split_ifs
    · exact hmark
    · have hk : Known _ s := hmark.known hb hm
      exact hmark.bind fun hb => kept_closeSessionAsync hb hk (ho.kept hmark)

theorem kept_closeChildSession (ho : ∀ r ∈ (g.children s.ref).map Session.ref, Orphan P g r) :
    Kept P g (g.closeChildSession env s) :=
  kept_foldl (f := fun g r => g.closeChild env r) kept_closeChild Orphan.kept _ hb ho

theorem kept_releaseSrvcGc : Kept P g (g.releaseSrvcGc handleRefCnt sre) := by
  unfold releaseSrvcGc
  split
  · exact .refl hb
  · next v hv =>
    dsimp only
    generalize (if handleRefCnt then v.refCnt - 1 else v.refCnt) = n
    have hedit : Kept P g (g.editService v.index fun v => { v with refCnt := n }) :=
      kept_editService hb fun _ => rfl
    split_ifs with hbuild hgone
    · exact .refl hb
    · have hc : v.sessionCount = 0 := by
        cases sre <;> simp_all
      have hv' : (g.editService v.index fun v => { v with refCnt := n }).service? v.index =
          some { v with refCnt := n } := by
        rw [service?_editService (by intro; rfl), service?_of_curSrv? hv]
        rfl
      exact (hedit.trans (kept_processReleaseService hedit.books hv' hc)).setCurService none
    · exact hedit

end

theorem kept_tryReleaseDeadFather (n : Nat) :
    ∀ {t : TaskId} {g : Globals}, Good P g → Kept P g (Globals.tryReleaseDeadFather env n t g) := by
  induction n with
  | zero => exact fun hb => .refl hb
  | succ n ih =>
    intro t g hb
    unfold tryReleaseDeadFather
    split
    · exact .refl hb
    · next s hs =>
      have hrelease : Kept P g (g.answerAndRelease env s).2 :=
        kept_answerAndRelease hb (.of_mem hb (doFindTask_mem hs).1)
      dsimp only
      split_ifs
      · exact .refl hb
      · exact hrelease
      · have hup := hrelease.trans (ih (t := s.ta2taFromTaskid) hrelease.books)
        exact hup.trans (kept_releaseServiceIfEmpty hup.books)
      · exact hrelease.trans (kept_releaseServiceIfEmpty hrelease.books)

theorem kept_releaseCurSession (hb : Good P g) (ht : Tracked P g s) :
    Kept P g (g.releaseCurSession env s) := by
  have h : Kept P g (g.answerAndRelease env s).2 := kept_answerAndRelease hb ht
  unfold releaseCurSession
  dsimp only
  split_ifs
  · exact h
  · exact h.trans (kept_tryReleaseDeadFather _ h.books)
  · exact h

section

variable (hb : Good P g)
include hb

/-- The sessions a dead one has opened are orphans. -/
theorem orphan_children (hs : s ∈ g.sessions) :
    ∀ r ∈ ((g.markDead s).children s.ref).map Session.ref, Orphan P (g.markDead s) r := by
  intro r hr hp c hc hcr
  have hkept : Kept P g (g.markDead s) := same_markDead.kept hb
  obtain ⟨c', hm, rfl⟩ := mem_map.1 hr
  obtain ⟨hc', hfather⟩ := mem_filter.1 hm
  obtain rfl := hkept.books.eq_of_ref hc hc' hcr
  obtain ⟨c₀, hc₀, hi⟩ := hkept.origin c hc
  refine ⟨s.taskId, mem_cons_self .., (ident_opener hi).trans ?_⟩
  exact (hb.owned hp).father c₀ hc₀ s hs ((ident_father hi).symm.trans (of_decide_eq_true hfather))

theorem kept_tryReleaseSession : Kept P g (g.tryReleaseSession env r) := by
  unfold tryReleaseSession
  split
  · exact .refl hb
  · next s hs =>
    obtain ⟨hm, rfl⟩ := session?_eq_some hs
    have hmark : Kept P g (g.markDead s) := same_markDead.kept hb
    have ht : Tracked P g s := .of_mem hb hm
    dsimp only
    split_ifs
    · exact hmark
    · exact hmark.bind fun hb => kept_releaseCurSession hb (ht.kept hmark)
    · exact hmark.bind fun hb' => kept_closeChildSession hb' (orphan_children hb hm)

theorem kept_tryReleaseExceptionSrv : Kept P g (g.tryReleaseExceptionSrv env i) := by
  have hmark : Kept P g (g.editService i fun v => { v with serviceThread := 0, isServiceDead := true }) :=
    kept_editService hb fun _ => rfl
  have hall (l : List Nat) : Kept P (g.editService i _)
      (l.foldl (fun g r => g.tryReleaseSession env r) (g.editService i _)) :=
    kept_foldl (Q := fun _ _ => True) (fun hb _ => kept_tryReleaseSession hb) (fun _ => id) l
      hmark.books fun _ _ => trivial
  exact (hmark.trans (hall _)).trans (kept_releaseServiceIfEmpty (hall _).books)

/-- The answer of a session; if its caller has died the session is closed. -/
theorem kept_taExceptionHandleAck {status : SessionStatus} {father : TaskId}
    (ho : P → status = .fatherDead → ∀ s ∈ g.sessions, s.taskId = task →
      ∃ t ∈ g.died, s.opener = .task t) :
    Kept P g (g.taExceptionHandleAck env status task father) := by
  cases status with
  | normal | selfDead => exact .refl hb
  | fatherDead =>
    unfold taExceptionHandleAck
    dsimp only
    split
    · next s hs =>
      obtain ⟨hm, ht⟩ := doFindTask_mem hs
      refine kept_closeSessionAsync hb (hb.known hm) fun hp s' hs' hr => ?_
      obtain rfl := hb.eq_of_ref hs' hm hr
      exact ho hp rfl s' hs' ht
    · exact kept_tryReleaseDeadFather _ hb

theorem kept_processTaAgentAck : Kept P g (g.processTaAgentAck env s) := by
  unfold processTaAgentAck
  split_ifs
  · exact .refl hb
  · have hedit : Kept P g (g.editSession s.ref fun s => { s with agentPending := false }) :=
      kept_editSession hb fun _ => rfl
    exact (hedit.bind kept_tryReleaseSession).bind kept_releaseServiceIfEmpty

theorem kept_taExceptionHandleBuildinAgentAck :
    Kept P g (g.taExceptionHandleBuildinAgentAck env task) := by
  unfold taExceptionHandleBuildinAgentAck
  split
  · exact kept_processTaAgentAck hb
  · exact .refl hb

theorem kept_taExceptionHandleAgentAck : Kept P g (g.taExceptionHandleAgentAck env cmd).2 := by
  unfold taExceptionHandleAgentAck
  split
  · exact .refl hb
  · split
    · exact .refl hb
    · exact kept_processTaAgentAck hb

theorem kept_handleKillTask : Kept P g (g.handleKillTask env cmd) := by
  unfold handleKillTask processKillTask
  split
  · exact .refl hb
  split
  · exact .refl hb
  split_ifs
  · exact .refl hb
  · split
    · exact kept_tryReleaseExceptionSrv hb
    · split
      · exact .refl hb
      · exact kept_tryReleaseExceptionSrv hb

theorem kept_processTaskCrash : Kept P g (g.processTaskCrash env task) := by
  unfold processTaskCrash
  split
  · exact .refl hb
  · split_ifs
    · exact .refl hb
    · exact kept_tryReleaseExceptionSrv hb

end

end TeeOs.Gtask
