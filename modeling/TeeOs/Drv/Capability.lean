import TeeOs.Drv.Handling
import TeeOs.Lib.Runs

/-!
# Descriptors as capabilities

The module's ioctl and close are called only for the task that a descriptor was
opened for and only while it is open, whatever the threads of the driver process
interleave. Descriptors in use are distinct and are the set bits of the bitmap.
When no message is being handled, the record of a task is there exactly while the
task has descriptors, and its two counters are their number.
-/

namespace TeeOs.Drv

open TeeOs.Conf List TeeOs.Drv.Core Nat DrvState
open TeeOs.Lib TeeOs.Lib.Keyed TeeOs.Lib.Tally

variable {env : DrvEnv} {c c' : Core} {chance : Chance} {p : Phase} {rest ps : List Phase}
  {pid id fd : Nat} {r : Core × List Phase} {memory isOpen : Bool} {d : FdData} {req : OpenReq}
  {s : DrvState} {g : FdData → FdData}

/-! ## What an operation on a task leaves -/

namespace Core

/-- The parts of the state that are not records of tasks. -/
structure Same (c c' : Core) : Prop where
  datas : c'.datas = c.datas
  bitmap : c'.fdBitmap = c.fdBitmap
  nextId : c'.nextId = c.nextId
  calls : c'.calls = c.calls

theorem findAndGetDrvTask_same (h : c.findAndGetDrvTask pid isOpen memory = some c') :
    Same c c' := by
  unfold findAndGetDrvTask at h
  constructor <;> grind [editTask, Option.map_eq_some_iff]

theorem getTaskCount_same (h : c.getTaskCount pid = some c') : Same c c' := by
  unfold getTaskCount at h
  constructor <;> grind [editTask]

theorem putDrvTask_same (c : Core) (pid n : Nat) : Same c (c.putDrvTask pid n) := by
  unfold putDrvTask
  split
  · exact ⟨rfl, rfl, rfl, rfl⟩
  · next task _ =>
    generalize (if task.refCnt < n then task.refCnt else task.refCnt-n) = refCnt
    dsimp only
    split
    · exact ⟨rfl, rfl, rfl, rfl⟩
    · exact ⟨rfl, rfl, rfl, rfl⟩

theorem decTaskCount_same (c : Core) (pid : Nat) : Same c (c.decTaskCount pid) :=
  ⟨rfl, rfl, rfl, rfl⟩

theorem Same.rfl : Same c c := ⟨Eq.refl _, Eq.refl _, Eq.refl _, Eq.refl _⟩

section Fields

variable {k : Nat} {g : FdData → FdData} {d e : FdData} {call : Call}

@[grind =] theorem mem_editData :
    e ∈ (c.editData k g).datas ↔ ∃ d ∈ c.datas, e = if d.id = k then g d else d := mem_edit

@[grind =] theorem mem_freeFdData : e ∈ (c.freeFdData d).datas ↔ e ∈ c.datas ∧ e.id ≠ d.id :=
  mem_delete

@[grind =] theorem calls_editData : (c.editData k g).calls = c.calls := Eq.refl _

@[grind =] theorem nextId_editData : (c.editData k g).nextId = c.nextId := Eq.refl _

@[grind =] theorem calls_freeFdData : (c.freeFdData d).calls = c.calls := Eq.refl _

@[grind =] theorem nextId_freeFdData : (c.freeFdData d).nextId = c.nextId := Eq.refl _

@[grind =] theorem calls_record : (c.record call).calls = call :: c.calls := Eq.refl _

@[grind =] theorem datas_record : (c.record call).datas = c.datas := Eq.refl _

@[grind =] theorem nextId_record : (c.record call).nextId = c.nextId := Eq.refl _

theorem allocFdData_some (h : c.allocFdData req memory = some (c', id)) :
    ∃ bit, Bitmap.free? c.fdBitmap = some bit ∧
      id = c.nextId ∧ c' = { c with
        datas := c.datas ++ [⟨c.nextId, req.pid, bit+1, req.uuid, req.perm, 1, .opening⟩]
        fdBitmap := Bitmap.set c.fdBitmap bit
        nextId := c.nextId+1 } := by
  unfold allocFdData at h
  grind

end Fields

end Core

theorem Entered.same (hr : Entered env c r) : Same c r.1 := by
  rcases hr with rfl | ⟨_, _, _, _, _, hget, -, rfl⟩
  · exact .rfl
  · exact findAndGetDrvTask_same hget

theorem Entered.fits (hr : Entered env c r) : ∀ q ∈ r.2, q.Fits env c := by
  rcases hr with rfl | ⟨_, _, _, _, _, -, hentry, rfl⟩
  · exact nofun
  · intro q hq
    rw [mem_singleton.mp hq]
    cases hentry with
    | count req hsender => exact hsender
    | findIoctl | findClose => trivial

theorem Core.findFdData_of_listed (hfds : (c.datas.map (·.fd)).Nodup) (hd : d ∈ c.datas)
    (hl : d.stage = .listed) : c.findFdData d.pid d.uuid d.fd ≠ none := by
  have hsome : (c.datas.find? fun e => e.stage = .listed ∧ e.pid = d.pid ∧ e.fd = d.fd).isSome :=
    find?_isSome.mpr ⟨d, hd, decide_eq_true ⟨hl, rfl, rfl⟩⟩
  obtain ⟨e, he⟩ := Option.isSome_iff_exists.mp hsome
  have hfound := find?_some he
  simp only [decide_eq_true_eq] at hfound
  have hsame : e = d := inj_on_of_nodup_map hfds (mem_of_find?_eq_some he) hd hfound.2.2
  unfold findFdData
  rw [he, hsame]
  simp only [if_true]
  exact nofun

/-! ## Numbers of descriptors -/

/-- Descriptors have numbers of their own, which are the set bits. -/
structure Numbered (c : Core) : Prop where
  fresh : ∀ d ∈ c.datas, d.id < c.nextId
  fds : (c.datas.map (·.fd)).Nodup
  pos : ∀ d ∈ c.datas, 0 < d.fd
  bitmap : ∀ i, c.fdBitmap.getLsbD i = true ↔ ∃ d ∈ c.datas, d.fd = i+1

namespace Numbered

variable (h : Numbered c)
include h

theorem of_same (hs : Core.Same c c') : Numbered c' := by
  obtain ⟨hd, hb, hn, -⟩ := hs
  exact ⟨by rw [hd, hn]; exact h.fresh, by rw [hd]; exact h.fds, by rw [hd]; exact h.pos,
    by rw [hd, hb]; exact h.bitmap⟩

theorem editData {k : Nat} (hg : ∀ d, (g d).id = d.id ∧ (g d).fd = d.fd) :
    Numbered (c.editData k g) := by
  have hfds : (c.editData k g).datas.map (·.fd) = c.datas.map (·.fd) :=
    map_edit fun d _ _ => (hg d).2
  have hused : ∀ i, (∃ d ∈ (c.editData k g).datas, d.fd = i+1) ↔ ∃ d ∈ c.datas, d.fd = i+1 := by
    intro i
    simp only [← mem_map, hfds]
  obtain ⟨fresh, fds, pos, bitmap⟩ := h
  exact ⟨by grind, hfds ▸ fds, by grind, fun i => (bitmap i).trans (hused i).symm⟩

theorem allocFdData (halloc : c.allocFdData req memory = some (c', id)) : Numbered c' := by
  obtain ⟨bit, hbit, rfl, rfl⟩ := allocFdData_some halloc
  obtain ⟨hlt, hclear⟩ := Bitmap.free?_spec hbit
  obtain ⟨fresh, fds, pos, bitmap⟩ := h
  -- the bit was clear, so that no descriptor has the number yet
  constructor
  case fds =>
    grind
  case bitmap =>
    intro i
    rw [Bitmap.getLsbD_set hlt, Bool.or_eq_true, bitmap i]
    simp only [decide_eq_true_eq, mem_append, mem_singleton, or_and_right, exists_or,
      exists_eq_left, add_right_cancel_iff]
  all_goals grind

theorem fd_le (hd : d ∈ c.datas) : d.fd ≤ fdCountMax := by
  have hpos := h.pos d hd
  have hbit := (h.bitmap (d.fd-1)).mpr ⟨d, hd, by omega⟩
  have hlt := BitVec.lt_of_getLsbD hbit
  omega

theorem freeFdData (hd : d ∈ c.datas) (hids : (c.datas.map (·.id)).Nodup) :
    Numbered (c.freeFdData d) := by
  have hsub : (delete (·.id) d.id c.datas).Sublist c.datas := delete_sublist
  refine ⟨fun e he => h.fresh e (mem_delete.mp he).1, h.fds.sublist (hsub.map _),
    fun e he => h.pos e (mem_delete.mp he).1, fun i => ?_⟩
  have hpos := h.pos d hd
  -- another descriptor has another number
  have hfd := fun e he => inj_on_of_nodup_map h.fds (x := e) he hd
  have hid := fun e he => inj_on_of_nodup_map hids (x := e) he hd
  change (Bitmap.clear c.fdBitmap (d.fd-1)).getLsbD i = true ↔ _
  rw [Bitmap.getLsbD_clear, Bool.and_eq_true, h.bitmap i]
  constructor <;> grind

theorem record {call : Call} : Numbered (c.record call) :=
  ⟨h.fresh, h.fds, h.pos, h.bitmap⟩

theorem advance (hids : (c.datas.map (·.id)).Nodup) : Numbered (advance env c chance p).1 := by
  cases p with
  | count req =>
    simp only [Drv.advance]
    split
    · exact h
    · next hget => exact h.of_same (getTaskCount_same hget)
  | alloc req =>
    simp only [Drv.advance]
    split
    · exact h
    · next halloc => exact h.allocFdData halloc
  | openCall id req =>
    simp only [Drv.advance]
    split
    · exact h
    · next d hd =>
      split
      · refine (h.editData ?_).record
        exact fun _ => ⟨rfl, rfl⟩
      · exact h.freeFdData (getData_some hd).1 hids
  | undo pid => exact h.of_same (decTaskCount_same c pid)
  | added id fd req => exact h.of_same (putDrvTask_same c req.pid 1)
  | reply id fd req =>
    simp only [Drv.advance]
    split
    · exact h
    · exact h.record.of_same (driverClose_entered env _ _ _ _).same
  | findIoctl pid uuid fd cmd =>
    simp only [Drv.advance]
    split
    · exact h
    · split
      · exact h
      · exact h.editData fun _ => ⟨rfl, rfl⟩
  | auth id pid uuid cmd =>
    simp only [Drv.advance]
    split
    · exact h
    · split
      · exact h.record
      · exact h
  | ioctl id pid => exact h.editData fun _ => ⟨rfl, rfl⟩
  | findClose pid uuid fd =>
    simp only [Drv.advance]
    split
    · exact h
    · exact (h.of_same (decTaskCount_same c pid)).editData fun _ => ⟨rfl, rfl⟩
  | closing id pid uuid => exact h.editData fun _ => ⟨rfl, rfl⟩
  | waiting id pid uuid =>
    simp only [Drv.advance]
    split
    · exact h
    · next d hd =>
      split
      · exact (h.freeFdData (getData_some hd).1 hids).record
      · exact h
  | put pid n => exact h.of_same (putDrvTask_same c pid n)

end Numbered

/-- A task is charged for a bounded number of descriptors. -/
def Few (c : Core) : Prop := ∀ t ∈ c.tasks, t.taskCount ≤ taskFdCountMax

namespace Few

variable (h : Few c)
include h

theorem editTask {f : DrvTask → DrvTask}
    (hf : ∀ t ∈ c.tasks, t.taskPid = pid → (f t).taskCount ≤ taskFdCountMax) :
    Few (c.editTask pid f) := by
  intro t ht
  obtain ⟨b, hb, rfl⟩ := mem_edit.mp ht
  split
  · next hk => exact hf b hb hk
  · exact h b hb

theorem findAndGetDrvTask (hget : c.findAndGetDrvTask pid isOpen memory = some c') : Few c' := by
  unfold Core.findAndGetDrvTask at hget
  split at hget
  · next t ht =>
    obtain ⟨t', hup, rfl⟩ := Option.map_eq_some_iff.mp hget
    refine h.editTask fun _ _ _ => ?_
    have hmax := h t (getDrvTask_some ht).1
    grind [updateDrvTaskRefCnt]
  · intro t ht
    grind [Few]

theorem putDrvTask {n : Nat} : Few (c.putDrvTask pid n) := by
  unfold Core.putDrvTask
  split
  · exact h
  · next task _ =>
    generalize (if task.refCnt < n then task.refCnt else task.refCnt-n) = refCnt
    dsimp only
    split
    · exact fun t ht => h t (mem_delete.mp ht).1
    · exact h.editTask fun t ht _ => h t ht

theorem getTaskCount (hget : c.getTaskCount pid = some c')
    (hpids : (c.tasks.map (·.taskPid)).Nodup) : Few c' := by
  unfold Core.getTaskCount at hget
  split at hget
  · cases hget
  · next t ht =>
    split at hget
    · cases hget
    · next hlt =>
      obtain rfl := Option.some.inj hget
      obtain ⟨hmem, hpid⟩ := getDrvTask_some ht
      refine h.editTask fun u hu hk => ?_
      rw [inj_on_of_nodup_map hpids hu hmem (hk.trans hpid.symm)]
      exact Nat.lt_of_not_le hlt

theorem decTaskCount : Few (c.decTaskCount pid) :=
  h.editTask fun t ht _ => le_trans (sub_le _ 1) (h t ht)

theorem entered (hr : Entered env c r) : Few r.1 := by
  rcases hr with rfl | ⟨pid, isOpen, memory, c', p, hget, -, rfl⟩
  · exact h
  · exact h.findAndGetDrvTask hget

theorem advance (hpids : (c.tasks.map (·.taskPid)).Nodup) : Few (advance env c chance p).1 := by
  cases p with
  | count req =>
    simp only [Drv.advance]
    split
    · exact h
    · next hget => exact h.getTaskCount hget hpids
  | alloc req =>
    simp only [Drv.advance]
    split
    · exact h
    · next halloc =>
      obtain ⟨bit, -, -, rfl⟩ := allocFdData_some halloc
      exact h
  | undo pid => exact h.decTaskCount
  | added id fd req => exact h.putDrvTask
  | reply id fd req =>
    simp only [Drv.advance]
    split
    · exact h
    · exact entered (c := c.record _) h (driverClose_entered env _ _ _ _)
  | findClose pid uuid fd =>
    simp only [Drv.advance]
    split
    · exact h
    · exact h.decTaskCount
  | put pid n => exact h.putDrvTask
  | ioctl id pid | closing id pid uuid => exact h
  | openCall | findIoctl | auth | waiting =>
    simp only [Drv.advance]
    split
    · exact h
    · split <;> exact h

end Few

/-! ## The history -/

/-- Each call was for a descriptor that drvmgr had opened for the same task and that
was not closed before; newest first. -/
def Lawful (mgr : Nat) : List Call → Prop
  | [] => True
  | .opened id sender _ _ :: l =>
    sender = mgr ∧ (∀ s p u, .opened id s p u ∉ l) ∧ Lawful mgr l
  | .ioctl id pid uuid :: l | .closed id pid uuid :: l =>
    Call.opened id mgr pid uuid ∈ l ∧ (∀ p u, .closed id p u ∉ l) ∧ Lawful mgr l
  | .unanswered _ :: l => Lawful mgr l

namespace Phase.Fits

variable {q : Phase}

theorem record (call : Call) (h : q.Fits env c) : q.Fits env (c.record call) := by
  cases q with
  | added id fd req | reply id fd req => exact ⟨mem_cons_of_mem _ h.1, h.2⟩
  | auth id pid uuid cmd | closing id pid uuid | waiting id pid uuid => exact mem_cons_of_mem _ h
  | _ => exact h

/-- What is known of descriptors is about the parts that no step changes. -/
theorem of_datas (h : q.Fits env c) (hcalls : c'.calls = c.calls) (hnext : c.nextId ≤ c'.nextId)
    (hpast : ∀ id s p u, .opened id s p u ∈ c.calls → id < c.nextId)
    (hold : ∀ e ∈ c'.datas, c.nextId ≤ e.id ∨
      ∃ d ∈ c.datas, e.id = d.id ∧ e.fd = d.fd ∧ e.pid = d.pid ∧ e.uuid = d.uuid) :
    q.Fits env c' := by
  have hkeep : ∀ {id : Nat} {P : Nat → Nat → Uuid → Prop}, id < c.nextId →
      (∀ d ∈ c.datas, d.id = id → P d.fd d.pid d.uuid) →
      ∀ e ∈ c'.datas, e.id = id → P e.fd e.pid e.uuid := by
    intro id P hid hP e he heq
    rcases hold e he with hge | ⟨d, hd, hdid, hfd, hpid, huuid⟩
    · omega
    · rw [hfd, hpid, huuid]
      exact hP d hd (hdid ▸ heq)
  cases q with
  | openCall id req => exact ⟨h.1, lt_of_lt_of_le h.2.1 hnext,
      hkeep (P := fun _ pid uuid => pid = req.pid ∧ uuid = req.uuid) h.2.1 h.2.2⟩
  | added id fd req | reply id fd req => exact ⟨hcalls ▸ h.1, hkeep
      (P := fun f pid uuid => f = fd ∧ pid = req.pid ∧ uuid = req.uuid) (hpast _ _ _ _ h.1) h.2⟩
  | auth | closing | waiting =>
    change _ ∈ c'.calls
    rw [hcalls]
    exact h
  | _ => exact h

end Phase.Fits

/-- What was called and what is there tell the same story. -/
structure Told (env : DrvEnv) (c : Core) (ps : List Phase) : Prop where
  lawful : Lawful env.drvMgrPid c.calls
  known : ∀ d ∈ c.datas, d.stage ≠ .opening →
    Call.opened d.id env.drvMgrPid d.pid d.uuid ∈ c.calls
  ahead : ∀ d ∈ c.datas, d.stage = .opening → ∀ s p u, .opened d.id s p u ∉ c.calls
  past : ∀ id s p u, .opened id s p u ∈ c.calls → id < c.nextId
  traced : ∀ id s p u, .opened id s p u ∈ c.calls →
    (∃ d ∈ c.datas, d.id = id) ∨ ∃ p u, .closed id p u ∈ c.calls
  gone : ∀ id p u, .closed id p u ∈ c.calls → id < c.nextId ∧ ∀ d ∈ c.datas, d.id ≠ id
  dropped : ∀ id, .unanswered id ∈ c.calls → (∃ p u, .closed id p u ∈ c.calls) ∨
    ∃ d ∈ c.datas, d.id = id ∧
      (d.stage = .closing ∨ d.stage = .listed ∧ Phase.findClose d.pid d.uuid d.fd ∈ ps)
  fits : ∀ p ∈ ps, p.Fits env c

namespace Told

variable {ps ps' : List Phase}

theorem of_mem (h : Told env c ps) (hmem : ∀ p, p ∈ ps ↔ p ∈ ps') : Told env c ps' where
  lawful := h.lawful
  known := h.known
  ahead := h.ahead
  past := h.past
  traced := h.traced
  gone := h.gone
  dropped id hid := by
    simp only [← hmem]
    exact h.dropped id hid
  fits p hp := h.fits p ((hmem p).mpr hp)

theorem of_same (h : Told env c ps) (hs : Core.Same c c') : Told env c' ps := by
  obtain ⟨tasks, datas, bitmap, nextId, calls⟩ := c
  obtain ⟨tasks', datas', bitmap', nextId', calls'⟩ := c'
  obtain ⟨hd, -, hn, hc⟩ := hs
  subst hd hn hc
  exact ⟨h.lawful, h.known, h.ahead, h.past, h.traced, h.gone, h.dropped, h.fits⟩

/-- A thread goes on and leaves the descriptors and the history. -/
theorem go (new : List Phase) (h : Told env c (p :: rest))
    (hfind : ∀ d ∈ c.datas, d.stage = .listed → p ≠ .findClose d.pid d.uuid d.fd)
    (hnew : ∀ p' ∈ new, p'.Fits env c) : Told env c (new ++ rest) := by
  constructor
  case lawful => exact h.lawful
  all_goals grind [cases Told]

theorem go_one (p' : Phase) (h : Told env c (p :: rest)) (hfind : ∀ d : FdData,
    p ≠ .findClose d.pid d.uuid d.fd) (hnew : p'.Fits env c) : Told env c (p' :: rest) := by
  exact h.go [p'] (fun d _ _ => hfind d) (by grind)

theorem entered (h : Told env c rest) (hr : Entered env c r) : Told env r.1 (r.2 ++ rest) := by
  refine of_same ?_ hr.same
  have hfits := hr.fits
  constructor
  case lawful => exact h.lawful
  all_goals grind [cases Told]

/-- A step that edits one descriptor and keeps its owner: its stage stays, or it
goes from its list to be closed. -/
theorem editData {k : Nat} (new : List Phase) (h : Told env c (p :: rest))
    (hg : ∀ d, (g d).id = d.id ∧ (g d).fd = d.fd ∧ (g d).pid = d.pid ∧ (g d).uuid = d.uuid)
    (hstage : ∀ d ∈ c.datas, d.id = k →
      (g d).stage = d.stage ∨ d.stage = .listed ∧ (g d).stage = .closing)
    (hfind : ∀ d ∈ c.datas, p = .findClose d.pid d.uuid d.fd → d.stage = .listed →
      d.id = k ∧ (g d).stage = .closing) (hnew : ∀ p' ∈ new, p'.Fits env (c.editData k g)) :
    Told env (c.editData k g) (new ++ rest) := by
  have hforth : ∀ d ∈ c.datas, (if d.id = k then g d else d) ∈ (c.editData k g).datas :=
    fun d hd => mem_edit.mpr ⟨d, hd, rfl⟩
  constructor
  case lawful => exact h.lawful
  case fits =>
    intro q hq
    rcases mem_append.mp hq with hq | hq
    · exact hnew q hq
    · exact (h.fits q (mem_cons_of_mem _ hq)).of_datas rfl (le_refl _) h.past (by grind)
  case dropped =>
    intro id hid
    refine (h.dropped id hid).imp_right fun ⟨d, hd, hdid, hcase⟩ => ⟨_, hforth d hd, ?_⟩
    grind
  all_goals grind [cases Told]

theorem allocFdData (h : Told env c (.alloc req :: rest)) (hfresh : ∀ d ∈ c.datas, d.id < c.nextId)
    (halloc : c.allocFdData req memory = some (c', id)) :
    Told env c' (.openCall id req :: rest) := by
  obtain ⟨bit, -, rfl, rfl⟩ := allocFdData_some halloc
  constructor
  case lawful => exact h.lawful
  case fits =>
    intro q hq
    rcases mem_cons.mp hq with rfl | hq
    · have hsender : req.sender = env.drvMgrPid := h.fits (.alloc req) mem_cons_self
      refine ⟨hsender, lt_succ_self _, ?_⟩
      grind
    · exact (h.fits q (mem_cons_of_mem _ hq)).of_datas rfl (le_succ _) h.past (by grind)
  all_goals grind [cases Told]

/-- What stays known of the other threads when a descriptor goes. -/
theorem fits_free (h : Told env c (p :: rest)) :
    ∀ q ∈ rest, q.Fits env (c.freeFdData d) := fun q hq =>
  (h.fits q (mem_cons_of_mem _ hq)).of_datas rfl (le_refl _) h.past (by grind)

section Open

variable {id : Nat} {req : OpenReq} {d : FdData}

theorem openSucceeds (h : Told env c (.openCall id req :: rest))
    (hb : Balanced c (.openCall id req :: rest)) (hd : c.getData id = some d) :
    Told env ((c.editData id fun d => { d with stage := .listed }).record
      (.opened id req.sender req.pid req.uuid)) (.added id d.fd req :: rest) := by
  obtain ⟨hmem, rfl⟩ := getData_some hd
  obtain ⟨hsender, hlt, hown⟩ := h.fits _ mem_cons_self
  have hopening := hb.opening_of_openCall hmem rfl
  have hunique := fun e he => hb.data_unique (d := e) he hmem
  have hforth : ∀ e ∈ c.datas, (if e.id = d.id then { e with stage := .listed } else e) ∈
      (c.editData d.id fun d => { d with stage := .listed }).datas :=
    fun e he => mem_edit.mpr ⟨e, he, rfl⟩
  rw [hsender]
  constructor
  case lawful => exact ⟨rfl, h.ahead d hmem hopening, h.lawful⟩
  case fits =>
    intro q hq
    rcases mem_cons.mp hq with rfl | hq
    · refine ⟨mem_cons_self, ?_⟩
      grind
    · refine Phase.Fits.record _ ?_
      exact (h.fits q (mem_cons_of_mem _ hq)).of_datas rfl (le_refl _) h.past (by grind)
  all_goals grind [cases Told]

theorem openFails (h : Told env c (.openCall id req :: rest))
    (hb : Balanced c (.openCall id req :: rest)) (hd : c.getData id = some d) :
    Told env (c.freeFdData d) (.undo req.pid :: rest) := by
  obtain ⟨hmem, rfl⟩ := getData_some hd
  have hopening := hb.opening_of_openCall hmem rfl
  have hfree := h.fits_free (d := d)
  constructor
  case lawful => exact h.lawful
  case fits =>
    intro q hq
    rcases mem_cons.mp hq with rfl | hq
    · trivial
    · exact hfree q hq
  all_goals grind [cases Told]

end Open

section Use

variable {id pid fd cmd : Nat} {uuid : Uuid} {d : FdData}

/-- A call that neither opens nor closes is added to the history. -/
theorem record (call : Call) (new : List Phase) (h : Told env c (p :: rest))
    (hlawful : Lawful env.drvMgrPid (call :: c.calls)) (hopened : ∀ id s p u, call ≠ .opened id s p u)
    (hclosed : ∀ id p u, call ≠ .closed id p u)
    (hdropped : ∀ id, call = .unanswered id → (∃ p u, .closed id p u ∈ c.calls) ∨
      ∃ d ∈ c.datas, d.id = id ∧
        (d.stage = .closing ∨ d.stage = .listed ∧ Phase.findClose d.pid d.uuid d.fd ∈ new))
    (hfind : ∀ d : FdData, p ≠ .findClose d.pid d.uuid d.fd)
    (hnew : ∀ p' ∈ new, p'.Fits env (c.record call)) :
    Told env (c.record call) (new ++ rest) := by
  constructor
  case lawful => exact hlawful
  case fits =>
    intro q hq
    rcases mem_append.mp hq with hq | hq
    · exact hnew q hq
    · exact (h.fits q (mem_cons_of_mem _ hq)).record call
  all_goals grind [cases Told]

/-- The descriptor of an unanswered open is found, so it gets closed. -/
theorem findClose (h : Told env c (.findClose pid uuid fd :: rest))
    (hb : Balanced c (.findClose pid uuid fd :: rest)) (hn : Numbered c) :
    Told env (advance env c chance (.findClose pid uuid fd)).1
      ((advance env c chance (.findClose pid uuid fd)).2 ++ rest) := by
  simp only [Drv.advance]
  split
  · next hnone =>
    refine h.go [.put pid 1] (fun d hd hl hp => ?_) fun q hq => ?_
    · obtain ⟨rfl, rfl, rfl⟩ := Phase.findClose.inj hp
      exact absurd hnone (findFdData_of_listed hn.fds hd hl)
    · rw [mem_singleton.mp hq]
      exact ⟨one_pos, le_succ 1⟩
  · next d hd =>
    obtain ⟨hmem, hstage, rfl, rfl, rfl⟩ := findFdData_some hd
    have hdec := h.of_same (decTaskCount_same c d.pid)
    refine hdec.editData [.closing d.id d.pid d.uuid] (fun _ => ⟨rfl, rfl, rfl, rfl⟩)
      (fun e he hid => ?_) (fun e he hp _ => ?_) fun q hq => ?_
    · rw [hb.data_unique he hmem hid]
      exact .inr ⟨hstage, rfl⟩
    · obtain ⟨-, -, hfd⟩ := Phase.findClose.inj hp
      rw [inj_on_of_nodup_map hn.fds he hmem hfd.symm]
      exact ⟨rfl, rfl⟩
    · rw [mem_singleton.mp hq]
      exact h.known d hmem (by rw [hstage]; simp)

theorem not_closed (h : Told env c (p :: rest)) (hd : d ∈ c.datas) :
    ∀ p u, .closed d.id p u ∉ c.calls :=
  fun p u hc => (h.gone d.id p u hc).2 d hd rfl

theorem ioctlCalled (h : Told env c (.auth id pid uuid cmd :: rest)) (hd : c.getData id = some d) :
    Told env (c.record (.ioctl id pid uuid)) (.ioctl id pid :: rest) := by
  obtain ⟨hmem, rfl⟩ := getData_some hd
  refine h.record (.ioctl d.id pid uuid) [.ioctl d.id pid]
    ⟨h.fits _ mem_cons_self, h.not_closed hmem, h.lawful⟩ nofun nofun nofun nofun fun q hq => ?_
  rw [mem_singleton.mp hq]
  trivial

theorem closeEnds (h : Told env c (.waiting id pid uuid :: rest)) (hd : c.getData id = some d) :
    Told env ((c.freeFdData d).record (.closed id pid uuid))
      (.put pid drvTaskOpenRefCntStep :: rest) := by
  obtain ⟨hmem, rfl⟩ := getData_some hd
  have hopened : Call.opened d.id env.drvMgrPid pid uuid ∈ c.calls := h.fits _ mem_cons_self
  have hfree := h.fits_free (d := d)
  have hnot := h.not_closed hmem
  constructor
  case lawful => exact ⟨hopened, hnot, h.lawful⟩
  case fits =>
    intro q hq
    rcases mem_cons.mp hq with rfl | hq
    · exact ⟨succ_pos 1, le_refl 2⟩
    · exact (hfree q hq).record _
  all_goals grind [cases Told]

end Use

end Told

/-! ## An open that could not be answered -/

theorem checkFd_handle (hpos : 0 < fd) (hle : fd ≤ fdCountMax) :
    checkFd env (handleOf env fd) = some fd := by
  have hmax : fd < 2^32 := lt_of_le_of_lt hle (by decide)
  have hhigh : (fd+2^32*env.drvIndex.toNat) / 2^32 % 2^32 = env.drvIndex.toNat := by omega
  have hlow : (fd+2^32*env.drvIndex.toNat) % 2^32 = fd := by omega
  rw [handleOf, checkFd, hhigh, hlow, if_neg (fun h => h rfl), if_neg (by omega)]

theorem driverClose_found (env : DrvEnv) (uuid : Uuid) (hpos : 0 < fd) (hle : fd ≤ fdCountMax)
    (hget : c.findAndGetDrvTask pid false true = some c') :
    driverClose env c pid uuid (handleOf env fd) = (c', [.findClose pid uuid fd]) := by
  unfold driverClose
  rw [checkFd_handle hpos hle]
  simp only [hget]

theorem Phase.refs_le {q : Nat} (h : p.Fits env c) : p.refs q ≤ 2 := by
  cases p with
  | put pid n =>
    simp only [refs]
    split
    · exact h.2
    · exact zero_le _
  | reply id fd req => exact zero_le _
  | _ =>
    simp only [refs]
    split <;> omega

theorem tally_refs_le {q : Nat} (h : ∀ p ∈ ps, p.Fits env c) :
    tally (Phase.refs q) ps ≤ 2*ps.length := by
  induction ps with
  | nil => exact le_refl 0
  | cons p ps ih =>
    have hhead := Phase.refs_le (q := q) (h p mem_cons_self)
    have htail := ih fun p' hp => h p' (mem_cons_of_mem p hp)
    rw [tally_cons, length_cons]
    omega

/-- The record of a task with a descriptor can be taken. -/
theorem findAndGetDrvTask_of_listed (hb : Balanced c ps) (hfew : Few c)
    (hfits : ∀ p ∈ ps, p.Fits env c) (hlen : ps.length ≤ threadLimitMax) (hd : d ∈ c.datas)
    (hstage : d.stage = .listed) : ∃ c', c.findAndGetDrvTask d.pid false true = some c' := by
  have hlisted : 0 < c.listedOf d.pid := by
    have hle := le_tally (f := fun e : FdData => if e.stage = .listed ∧ e.pid = d.pid then 1 else 0)
      hd
    rw [if_pos ⟨hstage, rfl⟩] at hle
    exact hle
  obtain ⟨t, ht⟩ := hb.exists_task (q := d.pid) (by omega)
  obtain ⟨hmem, hpid⟩ := getDrvTask_some ht
  have href := hb.refCnt_eq hmem
  have hcount := hb.taskCount_eq hmem
  have hmax := hfew t hmem
  have hrefs := tally_refs_le (q := t.taskPid) hfits
  have hne : t.refCnt ≠ uint32Max := by
    simp only [threadLimitMax, taskFdCountMax, uint32Max] at *
    omega
  simp only [Core.findAndGetDrvTask, ht, updateDrvTaskRefCnt, Bool.false_eq_true, if_false,
    if_neg hne, Option.map_some]
  exact ⟨_, rfl⟩

theorem Told.replyFails (h : Told env c (.reply id fd req :: rest))
    (hb : Balanced c (.reply id fd req :: rest)) (hn : Numbered c) (hfew : Few c)
    (hlen : rest.length < threadLimitMax) :
    Told env (driverClose env (c.record (.unanswered id)) req.pid req.uuid (handleOf env fd)).1
      ((driverClose env (c.record (.unanswered id)) req.pid req.uuid
        (handleOf env fd)).2 ++ rest) := by
  obtain ⟨hopened, hown⟩ := h.fits _ mem_cons_self
  generalize hr : driverClose env (c.record (.unanswered id)) req.pid req.uuid (handleOf env fd) = r
  have hentered := driverClose_entered env (c.record (.unanswered id)) req.pid req.uuid
    (handleOf env fd)
  rw [hr] at hentered
  refine of_same (h.record (.unanswered id) r.2 h.lawful nofun nofun (fun k hk => ?_) nofun
    hentered.fits) hentered.same
  obtain rfl : id = k := Call.unanswered.inj hk
  rcases h.traced id _ _ _ hopened with ⟨d, hd, rfl⟩ | hclosed
  · right
    refine ⟨d, hd, rfl, ?_⟩
    obtain ⟨rfl, hpid, huuid⟩ := hown d hd rfl
    cases hstage : d.stage with
    | opening => exact absurd hopened (h.ahead d hd hstage _ _ _)
    | closing => exact .inl rfl
    | listed =>
      right
      refine ⟨rfl, ?_⟩
      obtain ⟨c', hget⟩ := findAndGetDrvTask_of_listed
        hb.record hfew (fun q hq => (h.fits q hq).record _) hlen hd hstage
      have hclose := driverClose_found env req.uuid (hn.pos d hd) (hn.fd_le hd) (hpid ▸ hget)
      rw [← hr, hclose, hpid, huuid]
      exact mem_singleton_self _
  · exact .inl hclosed

/-! ## Runs -/

/-- Every step of a thread keeps the history and the descriptors together. -/
theorem Told.advance (h : Told env c (p :: rest)) (hb : Balanced c (p :: rest)) (hn : Numbered c)
    (hfew : Few c) (hlen : rest.length < threadLimitMax) :
    Told env (advance env c chance p).1 ((advance env c chance p).2 ++ rest) := by
  cases p with
  | count req =>
    simp only [Drv.advance]
    split
    · exact h.go_one (.put req.pid 2) (by simp) ⟨succ_pos 1, le_refl 2⟩
    · next hget =>
      exact (h.go_one (.alloc req) (by simp) (h.fits (.count req) mem_cons_self)).of_same
        (getTaskCount_same hget)
  | alloc req =>
    simp only [Drv.advance]
    split
    · exact h.go_one (.undo req.pid) (by simp) trivial
    · next halloc => exact h.allocFdData hn.fresh halloc
  | openCall id req =>
    obtain ⟨d, hd⟩ := hb.exists_data (k := id) (by simp)
    simp only [Drv.advance, hd]
    split
    · exact h.openSucceeds hb hd
    · exact h.openFails hb hd
  | undo pid =>
    exact (h.go_one (.put pid 2) (by simp) ⟨succ_pos 1, le_refl 2⟩).of_same (decTaskCount_same c pid)
  | added id fd req =>
    exact (h.go_one (.reply id fd req) (by simp) (h.fits (.added id fd req) mem_cons_self)).of_same
      (putDrvTask_same c req.pid 1)
  | reply id fd req =>
    simp only [Drv.advance]
    split
    · exact h.go [] (by simp) (by simp)
    · exact h.replyFails hb hn hfew hlen
  | findIoctl pid uuid fd cmd =>
    have hput : Told env c (.put pid 1 :: rest) :=
      h.go_one _ (by simp) ⟨one_pos, le_succ 1⟩
    simp only [Drv.advance]
    split
    · exact hput
    · next d hd =>
      split
      · exact hput
      · obtain ⟨hmem, hstage, rfl, -, rfl⟩ := findFdData_some hd
        refine h.editData [.auth d.id d.pid d.uuid cmd] (fun _ => ⟨rfl, rfl, rfl, rfl⟩)
          (fun _ _ _ => .inl rfl) (by simp) fun q hq => ?_
        rw [mem_singleton.mp hq]
        exact h.known d hmem (by rw [hstage]; simp)
  | auth id pid uuid cmd =>
    obtain ⟨d, hd⟩ := hb.exists_data (k := id) (by simp)
    simp only [Drv.advance, hd]
    split
    · exact h.ioctlCalled hd
    · exact h.go_one (.ioctl id pid) (by simp) trivial
  | ioctl id pid =>
    refine h.editData [.put pid 1] (fun _ => ⟨rfl, rfl, rfl, rfl⟩)
      (fun _ _ _ => .inl rfl) (by simp) fun q hq => ?_
    rw [mem_singleton.mp hq]
    exact ⟨one_pos, le_succ 1⟩
  | findClose pid uuid fd => exact h.findClose hb hn
  | closing id pid uuid =>
    refine h.editData [.waiting id pid uuid] (fun _ => ⟨rfl, rfl, rfl, rfl⟩)
      (fun _ _ _ => .inl rfl) (by simp) fun q hq => ?_
    rw [mem_singleton.mp hq]
    exact h.fits _ mem_cons_self
  | waiting id pid uuid =>
    obtain ⟨d, hd⟩ := hb.exists_data (k := id) (by simp)
    simp only [Drv.advance, hd]
    split
    · exact h.closeEnds hd
    · exact h
  | put pid n =>
    exact (h.go [] (by simp) (by simp)).of_same (putDrvTask_same c pid n)

/-- The invariant of a driver process with any number of messages under way. -/
structure Sound (env : DrvEnv) (s : DrvState) : Prop where
  balanced : Balanced s.core s.threads
  numbered : Numbered s.core
  few : Few s.core
  told : Told env s.core s.threads
  limited : s.threads.length ≤ env.threadLimit

theorem advance_length (env : DrvEnv) (c : Core) (chance : Chance) (p : Phase) :
    (advance env c chance p).2.length ≤ 1 := by
  cases p with
  | reply id fd req =>
    simp only [advance]
    split
    · exact zero_le 1
    · rcases driverClose_entered env (c.record (.unanswered id)) req.pid req.uuid (handleOf env fd)
        with h | ⟨_, _, _, _, _, -, -, h⟩
      · rw [h]
        exact zero_le 1
      · rw [h]
        exact le_refl 1
  | undo | added | ioctl | closing | put => simp [advance]
  | count | alloc | findClose =>
    simp only [advance]
    split <;> exact le_refl 1
  | openCall | findIoctl | auth | waiting =>
    simp only [advance]
    split
    · simp
    · split <;> exact le_refl 1

theorem Sound.deliver (h : Sound env s) (chance : Chance) (msg : DrvMsg) :
    Sound env (s.step env (.deliver chance msg)) := by
  simp only [step]
  split
  · next hfree =>
    have hr := driverSyscall_entered env s.core chance msg
    refine ⟨h.balanced.entered hr, h.numbered.of_same hr.same, h.few.entered hr, h.told.entered hr, ?_⟩
    rcases hr with hr | ⟨_, _, _, _, _, -, -, hr⟩
    · rw [hr]
      exact h.limited
    · rw [hr]
      exact hfree
  · exact h

theorem Sound.resume (h : Sound env s) (place : Nat) (chance : Chance) :
    Sound env (s.step env (.resume place chance)) := by
  simp only [step]
  split
  · exact h
  · next p rest hdrop =>
    have hsplit : s.threads = s.threads.take place ++ p :: rest := by
      rw [← hdrop, take_append_drop]
    have hperm : s.threads.Perm (p :: (s.threads.take place ++ rest)) := by
      conv_lhs => rw [hsplit]
      exact perm_middle
    have hmid (new : List Phase) : (new ++ (s.threads.take place ++ rest)).Perm
        (s.threads.take place ++ new ++ rest) := by
      rw [← append_assoc]
      exact perm_append_comm.append_right rest
    have hb := h.balanced.perm hperm
    have ht := h.told.of_mem fun q => hperm.mem_iff
    have hlen : (s.threads.take place ++ rest).length < threadLimitMax := by
      have heq := hperm.length_eq
      have hle := h.limited
      have hmax := env.limited
      rw [length_cons] at heq
      omega
    refine ⟨(hb.advance (ht.fits p mem_cons_self) h.numbered.fresh).perm (hmid _),
      h.numbered.advance h.balanced.ids, h.few.advance h.balanced.pids,
      (ht.advance hb h.numbered h.few hlen).of_mem fun q => (hmid _).mem_iff, ?_⟩
    have hone := advance_length env s.core chance p
    have heq := hperm.length_eq
    have hle := h.limited
    rw [length_cons, length_append] at heq
    rw [length_append, length_append]
    omega

theorem sound_init : Sound env initDrv where
  balanced := ⟨nodup_nil, nodup_nil, nofun, fun _ => rfl, fun _ => rfl, fun _ => rfl,
    fun _ => rfl, fun _ => rfl, nofun⟩
  numbered := ⟨nofun, nodup_nil, nofun, fun i => by simp [initDrv]⟩
  few := nofun
  told := ⟨trivial, nofun, nofun, nofun, nofun, nofun, nofun, nofun⟩
  limited := zero_le _

/-- What the driver process keeps. The last four hold between messages. -/
structure Capability (env : DrvEnv) (s : DrvState) : Prop where
  /-- ioctl and close are called on open descriptors of the same task, each is closed once -/
  lawful : Lawful env.drvMgrPid s.core.calls
  distinct : (s.core.datas.map (·.fd)).Nodup
  bitmap : ∀ i, s.core.fdBitmap.getLsbD i = true ↔ ∃ d ∈ s.core.datas, d.fd = i+1
  /-- every descriptor stands in the list of its task -/
  listed : s.threads = [] → ∀ d ∈ s.core.datas, d.stage = .listed
  /-- what was opened is open or was closed -/
  closed : s.threads = [] → ∀ id sender pid uuid, .opened id sender pid uuid ∈ s.core.calls →
    ((∃ d ∈ s.core.datas, d.id = id) ↔ ∀ p u, .closed id p u ∉ s.core.calls)
  answered : s.threads = [] → ∀ id, .unanswered id ∈ s.core.calls →
    ∃ p u, .closed id p u ∈ s.core.calls
  records : s.threads = [] → ∀ q, s.core.getDrvTask q =
    if s.core.listedOf q = 0 then none else some ⟨q, s.core.listedOf q, s.core.listedOf q⟩

theorem Sound.capability (h : Sound env s) : Capability env s where
  lawful := h.told.lawful
  distinct := h.numbered.fds
  bitmap := h.numbered.bitmap
  listed hidle d hd := by
    have hopens := h.balanced.opens d.id
    have hcloses := h.balanced.closingOf_eq hd
    rw [h.balanced.closes, hidle] at hcloses
    rw [hidle, tally_nil] at hopens
    cases hstage : d.stage with
    | listed => rfl
    | opening =>
      have hle := le_tally (f := fun e : FdData => if e.id = d.id ∧ e.stage = .opening then 1 else 0)
        hd
      rw [if_pos ⟨rfl, hstage⟩] at hle
      rw [openingOf] at hopens
      omega
    | closing =>
      rw [hstage, if_pos rfl] at hcloses
      cases hcloses
  closed _ id sender pid uuid ho := by
    constructor
    · rintro ⟨d, hd, rfl⟩ p u hc
      exact (h.told.gone d.id p u hc).2 d hd rfl
    · intro hopen
      exact (h.told.traced id sender pid uuid ho).resolve_right fun ⟨p, u, hc⟩ => hopen p u hc
  answered hidle id hid := by
    refine (h.told.dropped id hid).resolve_right ?_
    rintro ⟨d, hd, -, hclosing | ⟨-, hf⟩⟩
    · have hcloses := h.balanced.closingOf_eq hd
      rw [h.balanced.closes, hidle, hclosing, if_pos rfl] at hcloses
      cases hcloses
    · rw [hidle] at hf
      exact not_mem_nil hf
  records hidle q := by
    cases ht : s.core.getDrvTask q with
    | none =>
      have hzero : s.core.listedOf q = 0 := by
        by_contra hne
        obtain ⟨t, ht'⟩ := h.balanced.exists_task (q := q) (by omega)
        rw [ht] at ht'
        cases ht'
      rw [if_pos hzero]
    | some t =>
      obtain ⟨hmem, rfl⟩ := getDrvTask_some ht
      have href := h.balanced.refCnt_eq hmem
      have hcount := h.balanced.taskCount_eq hmem
      have hpos := h.balanced.used t hmem
      rw [hidle, tally_nil, add_zero] at href hcount
      rw [if_neg (by omega)]
      change some (DrvTask.mk t.taskPid t.taskCount t.refCnt) = _
      rw [hcount, href]

/-- Over every run of a driver process, with messages from arbitrary senders and the
threads interleaved in any way, descriptors are capabilities of their task. -/
theorem driver_descriptors_are_capabilities (env : DrvEnv) (es : List DrvEvent) :
    Capability env (Runs.runs (step env) initDrv es) := by
  have hrun : Sound env (Runs.runs (step env) initDrv es) := by
    refine Runs.invariant_runs (fun s e h => ?_) sound_init es
    cases e with
    | deliver chance msg => exact h.deliver chance msg
    | resume place chance => exact h.resume place chance
  exact hrun.capability

/-- The counts while threads are under way. -/
structure CountsInFlight (s : DrvState) : Prop where
  /-- a task is held by its listed descriptors and by the threads that serve it -/
  task : ∀ t ∈ s.core.tasks,
    t.refCnt = s.core.listedOf t.taskPid + tally (Phase.refs t.taskPid) s.threads
  limit : ∀ t ∈ s.core.tasks, t.taskCount ≤ taskFdCountMax
  data : ∀ d ∈ s.core.datas,
    d.refCnt + tally (Phase.waits d.id) s.threads = 1 + tally (Phase.uses d.id) s.threads
  /-- what an ioctl works on is not freed -/
  live : ∀ k, 0 < tally (Phase.uses k) s.threads → ∃ d, s.core.getData k = some d ∧ 0 < d.refCnt

theorem driver_counts_in_flight (env : DrvEnv) (es : List DrvEvent) :
    CountsInFlight (Runs.runs (step env) initDrv es) := by
  have hrun : Sound env (Runs.runs (step env) initDrv es) := by
    refine Runs.invariant_runs (fun s e h => ?_) sound_init es
    cases e with
    | deliver chance msg => exact h.deliver chance msg
    | resume place chance => exact h.resume place chance
  have hb := hrun.balanced
  refine ⟨fun t ht => hb.refCnt_eq ht, hrun.few, fun d hd => hb.refCnt_data hd, fun k hk => ?_⟩
  obtain ⟨d, hd⟩ := hb.exists_data (k := k) (by omega)
  obtain ⟨hmem, rfl⟩ := getData_some hd
  exact ⟨d, hd, (hb.refCnt_of_use hmem hk).1⟩

end TeeOs.Drv
