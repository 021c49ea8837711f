import TeeOs.Drv.Process
import TeeOs.Lib.Tally

/-!
# References of a driver process

What each phase of a thread holds: references and counted opens of the task's
record, references of a descriptor, or the descriptor itself while it is in no
list. `Balanced` says that the counters of the records are exactly what the lists
and the threads hold, at every moment between two steps.
-/

namespace TeeOs.Drv

open TeeOs.Lib.Keyed TeeOs.Lib.Tally List TeeOs.Drv.Core Option

/-! ## What a thread holds -/

namespace Phase

/-- References of the record of task `q`. -/
@[simp] def refs (q : Nat) : Phase → Nat
  | .count req | .alloc req | .openCall _ req => if req.pid = q then 2 else 0
  | .undo pid | .closing _ pid _ | .waiting _ pid _ => if pid = q then 2 else 0
  | .added _ _ req => if req.pid = q then 1 else 0
  | .reply _ _ _ => 0
  | .findIoctl pid _ _ _ | .auth _ pid _ _ | .ioctl _ pid | .findClose pid _ _ =>
    if pid = q then 1 else 0
  | .put pid n => if pid = q then n else 0

/-- Opens that task `q` is charged for and that are in no list. -/
@[simp] def counts (q : Nat) : Phase → Nat
  | .alloc req | .openCall _ req => if req.pid = q then 1 else 0
  | .undo pid => if pid = q then 1 else 0
  | _ => 0

variable (k : Nat)

/-- The descriptor that is being opened. -/
@[simp] def opens : Phase → Nat
  | .openCall id _ => if id = k then 1 else 0
  | _ => 0

/-- The descriptor that is being closed. -/
@[simp] def closes : Phase → Nat
  | .closing id _ _ | .waiting id _ _ => if id = k then 1 else 0
  | _ => 0

/-- References of a descriptor that an ioctl holds. -/
@[simp] def uses : Phase → Nat
  | .auth id _ _ _ | .ioctl id _ => if id = k then 1 else 0
  | _ => 0

/-- The reference of the list itself, given up by the thread that closes. -/
@[simp] def waits : Phase → Nat
  | .waiting id _ _ => if id = k then 1 else 0
  | _ => 0

theorem counts_le_refs (q : Nat) (p : Phase) : p.counts q ≤ p.refs q := by
  cases p <;> simp only [counts, refs, Nat.zero_le] <;> split_ifs <;> omega

theorem waits_le_closes (p : Phase) : p.waits k ≤ p.closes k := by
  cases p <;> simp only [waits, closes, Nat.zero_le, Nat.le_refl]

end Phase

/-! ## What the records say -/

namespace Core

variable {c : Core} {q k : Nat} {t : DrvTask} {d : FdData}

def refsOf (c : Core) (q : Nat) : Nat :=
  tally (fun t => if t.taskPid = q then t.refCnt else 0) c.tasks

def countsOf (c : Core) (q : Nat) : Nat :=
  tally (fun t => if t.taskPid = q then t.taskCount else 0) c.tasks

/-- The length of the list of task `q`. -/
def listedOf (c : Core) (q : Nat) : Nat :=
  tally (fun d => if d.stage = .listed ∧ d.pid = q then 1 else 0) c.datas

def openingOf (c : Core) (k : Nat) : Nat :=
  tally (fun d => if d.id = k ∧ d.stage = .opening then 1 else 0) c.datas

def closingOf (c : Core) (k : Nat) : Nat :=
  tally (fun d => if d.id = k ∧ d.stage = .closing then 1 else 0) c.datas

def presentOf (c : Core) (k : Nat) : Nat :=
  tally (fun d => if d.id = k then 1 else 0) c.datas

def dataRefsOf (c : Core) (k : Nat) : Nat :=
  tally (fun d => if d.id = k then d.refCnt else 0) c.datas

theorem getDrvTask_some (h : c.getDrvTask q = some t) : t ∈ c.tasks ∧ t.taskPid = q :=
  ⟨mem_of_find?_eq_some h, by simpa using find?_some h⟩

theorem getData_some (h : c.getData k = some d) : d ∈ c.datas ∧ d.id = k :=
  ⟨mem_of_find?_eq_some h, by simpa using find?_some h⟩

theorem findFdData_some {uuid : Conf.Uuid} {fd : Nat} (h : c.findFdData q uuid fd = some d) :
    d ∈ c.datas ∧ d.stage = .listed ∧ d.pid = q ∧ d.fd = fd ∧ d.uuid = uuid := by
  unfold findFdData at h
  split at h
  · next e he =>
    split at h
    · next hu =>
      obtain rfl := some.inj h
      have hfound := find?_some he
      simp only [decide_eq_true_eq] at hfound
      exact ⟨mem_of_find?_eq_some he, hfound.1, hfound.2.1, hfound.2.2, hu⟩
    · cases h
  · cases h

end Core

/-- The counters are what the lists and the threads hold. -/
structure Balanced (c : Core) (ps : List Phase) : Prop where
  pids : (c.tasks.map (·.taskPid)).Nodup
  ids : (c.datas.map (·.id)).Nodup
  used : ∀ t ∈ c.tasks, 0 < t.refCnt
  refs : ∀ q, c.refsOf q = c.listedOf q + tally (Phase.refs q) ps
  counts : ∀ q, c.countsOf q = c.listedOf q + tally (Phase.counts q) ps
  opens : ∀ k, c.openingOf k = tally (Phase.opens k) ps
  closes : ∀ k, c.closingOf k = tally (Phase.closes k) ps
  uses : ∀ k, c.dataRefsOf k + tally (Phase.waits k) ps = c.presentOf k + tally (Phase.uses k) ps
  unused : ∀ d ∈ c.datas, d.stage = .opening → d.refCnt = 1

namespace Balanced

variable {c : Core} {ps ps' rest : List Phase} {q k : Nat} {t t' : DrvTask} {d d' : FdData}

section

variable (h : Balanced c ps)
include h

theorem perm (hp : ps.Perm ps') : Balanced c ps' where
  pids := h.pids
  ids := h.ids
  used := h.used
  refs q := by rw [h.refs q, tally_perm hp]
  counts q := by rw [h.counts q, tally_perm hp]
  opens k := by rw [h.opens k, tally_perm hp]
  closes k := by rw [h.closes k, tally_perm hp]
  uses k := by rw [← tally_perm hp, ← tally_perm hp, h.uses k]
  unused := h.unused

theorem refCnt_eq (ht : t ∈ c.tasks) :
    t.refCnt = c.listedOf t.taskPid + tally (Phase.refs t.taskPid) ps := by
  rw [← h.refs, refsOf, tally_key h.pids ht]

theorem taskCount_eq (ht : t ∈ c.tasks) :
    t.taskCount = c.listedOf t.taskPid + tally (Phase.counts t.taskPid) ps := by
  rw [← h.counts, countsOf, tally_key h.pids ht]

/-- A task that something is held of has its record. -/
theorem exists_task (hq : 0 < c.listedOf q + tally (Phase.refs q) ps) :
    ∃ t, c.getDrvTask q = some t := by
  rw [← h.refs q] at hq
  obtain ⟨t, ht, hpos⟩ := exists_of_tally_pos hq
  have hpid : t.taskPid = q := by
    by_contra hne
    simp only [if_neg hne] at hpos
    omega
  exact isSome_iff_exists.mp (find?_isSome.mpr ⟨t, ht, decide_eq_true hpid⟩)

theorem data_unique (hd : d ∈ c.datas) (hd' : d' ∈ c.datas) (hid : d.id = d'.id) : d = d' :=
  inj_on_of_nodup_map h.ids hd hd' hid

end

/-! ## Steps -/

/-- Some records, as a part of the state. -/
@[simp] def part (tasks : List DrvTask) (datas : List FdData) : Core := ⟨tasks, datas, 0, 0, []⟩

/-- `c'` has the records of `c` with those of `a` replaced by those of `b`. -/
structure Replaced (c a b c' : Core) : Prop where
  tasks : ∀ w : DrvTask → Nat, tally w c'.tasks + tally w a.tasks = tally w c.tasks + tally w b.tasks
  datas : ∀ w : FdData → Nat, tally w c'.datas + tally w a.datas = tally w c.datas + tally w b.datas

/-- A thread that replaces `a` by `b` holds as much more or less as the records say. -/
structure Even (a b : Core) (old new : List Phase) : Prop where
  refs : ∀ q, b.refsOf q + (a.listedOf q + tally (Phase.refs q) old) =
    a.refsOf q + (b.listedOf q + tally (Phase.refs q) new)
  counts : ∀ q, b.countsOf q + (a.listedOf q + tally (Phase.counts q) old) =
    a.countsOf q + (b.listedOf q + tally (Phase.counts q) new)
  opens : ∀ k, b.openingOf k + tally (Phase.opens k) old = a.openingOf k + tally (Phase.opens k) new
  closes : ∀ k, b.closingOf k + tally (Phase.closes k) old =
    a.closingOf k + tally (Phase.closes k) new
  uses : ∀ k, b.dataRefsOf k + tally (Phase.waits k) new +
      (a.presentOf k + tally (Phase.uses k) old) =
    a.dataRefsOf k + tally (Phase.waits k) old + (b.presentOf k + tally (Phase.uses k) new)

variable {a b c' : Core}

/-- A step of one thread: the changes of the records are those of what it holds. -/
theorem step (old new : List Phase) (h : Balanced c (old++rest)) (he : Even a b old new)
    (hr : Replaced c a b c') (pids : (c'.tasks.map (·.taskPid)).Nodup)
    (ids : (c'.datas.map (·.id)).Nodup) (used : ∀ t ∈ b.tasks, 0 < t.refCnt)
    (unused : ∀ d ∈ b.datas, d.stage = .opening → d.refCnt = 1) : Balanced c' (new++rest) where
  pids := pids
  ids := ids
  used t ht := by
    rcases mem_or_of_tally (fun w => Nat.le.intro (hr.tasks w)) ht with ht | ht
    · exact h.used t ht
    · exact used t ht
  refs q := by
    have hold := h.refs q
    have heven := he.refs q
    have htasks := hr.tasks fun t => if t.taskPid = q then t.refCnt else 0
    have hdatas := hr.datas fun d => if d.stage = .listed ∧ d.pid = q then 1 else 0
    simp only [refsOf, listedOf, tally_append] at *
    omega
  counts q := by
    have hold := h.counts q
    have heven := he.counts q
    have htasks := hr.tasks fun t => if t.taskPid = q then t.taskCount else 0
    have hdatas := hr.datas fun d => if d.stage = .listed ∧ d.pid = q then 1 else 0
    simp only [countsOf, listedOf, tally_append] at *
    omega
  opens k := by
    have hold := h.opens k
    have heven := he.opens k
    have hdatas := hr.datas fun d => if d.id = k ∧ d.stage = .opening then 1 else 0
    simp only [openingOf, tally_append] at *
    omega
  closes k := by
    have hold := h.closes k
    have heven := he.closes k
    have hdatas := hr.datas fun d => if d.id = k ∧ d.stage = .closing then 1 else 0
    simp only [closingOf, tally_append] at *
    omega
  uses k := by
    have hold := h.uses k
    have heven := he.uses k
    have hrefs := hr.datas fun d => if d.id = k then d.refCnt else 0
    have hpresent := hr.datas fun d => if d.id = k then 1 else 0
    simp only [dataRefsOf, presentOf, tally_append] at *
    omega
  unused d hd := by
    rcases mem_or_of_tally (fun w => Nat.le.intro (hr.datas w)) hd with hd | hd
    · exact h.unused d hd
    · exact unused d hd

variable {f : DrvTask → DrvTask} {g : FdData → FdData} {pid m n i j : Nat}

attribute [local simp] refsOf countsOf listedOf openingOf closingOf presentOf dataRefsOf

/-- A share of a record is replaced by another: the rest of the record stays. -/
theorem Even.share (t' : DrvTask)
    (he : Even (part [⟨t.taskPid, i, m⟩] []) (part [⟨t.taskPid, j, n⟩] []) old new)
    (hpid : t'.taskPid = t.taskPid) (hcount : t'.taskCount + i = t.taskCount + j)
    (href : t'.refCnt + m = t.refCnt + n) : Even (part [t] []) (part [t'] []) old new where
  refs q := by
    have hq := he.refs q
    simp only [part, refsOf, listedOf, tally_cons, tally_nil, hpid] at hq ⊢
    split_ifs at hq ⊢ <;> omega
  counts q := by
    have hq := he.counts q
    simp only [part, countsOf, listedOf, tally_cons, tally_nil, hpid] at hq ⊢
    split_ifs at hq ⊢ <;> omega
  opens := he.opens
  closes := he.closes
  uses := he.uses

theorem Even.gone (he : Even a (part [⟨pid, 0, 0⟩] []) old new) : Even a (part [] []) old new :=
  ⟨by simpa using he.refs, by simpa using he.counts, he.opens, he.closes, he.uses⟩

theorem Even.fresh (he : Even (part [⟨pid, 0, 0⟩] []) b old new) : Even (part [] []) b old new :=
  ⟨by simpa using he.refs, by simpa using he.counts, he.opens, he.closes, he.uses⟩

variable (old new : List Phase)

theorem editTask (h : Balanced c (old++rest))
    (ht : c.getDrvTask pid = some t) (hf : ∀ t, t.taskPid = pid → (f t).taskPid = t.taskPid)
    (hpos : 0 < (f t).refCnt)
    (he : Even (part [⟨pid, i, m⟩] []) (part [⟨pid, j, n⟩] []) old new)
    (hcount : (f t).taskCount + i = t.taskCount + j) (href : (f t).refCnt + m = t.refCnt + n) :
    Balanced (c.editTask pid f) (new++rest) := by
  obtain ⟨hmem, rfl⟩ := getDrvTask_some ht
  refine h.step old new (he.share (f t) (hf t rfl) hcount href)
    ⟨fun w => ?_, fun w => rfl⟩ ?_ h.ids (by simpa using hpos) nofun
  · exact tally_edit h.pids hmem
  · exact nodup_edit h.pids hf

/-- The last reference goes with the last descriptor. -/
theorem putDrvTask (h : Balanced c (old++rest)) (hn : 0 < n)
    (he : Even (part [⟨pid, 0, n⟩] []) (part [⟨pid, 0, 0⟩] []) old new) :
    Balanced (c.putDrvTask pid n) (new++rest) := by
  have hrefs := he.refs pid
  have hcounts := he.counts pid
  simp only [part, refsOf, countsOf, listedOf, tally_cons, tally_nil, if_true] at hrefs hcounts
  obtain ⟨t, ht⟩ := h.exists_task (q := pid) (by rw [tally_append]; omega)
  obtain ⟨hmem, rfl⟩ := getDrvTask_some ht
  have href := h.refCnt_eq hmem
  have hcount := h.taskCount_eq hmem
  rw [tally_append] at href hcount
  have hge : ¬ t.refCnt < n := by omega
  simp only [Core.putDrvTask, ht, if_neg hge]
  by_cases hlast : t.refCnt - n = 0
  · rw [if_pos hlast]
    have hle : ∀ ps, tally (Phase.counts t.taskPid) ps ≤ tally (Phase.refs t.taskPid) ps :=
      fun ps => tally_le fun p _ => Phase.counts_le_refs t.taskPid p
    have hrest := hle rest
    have hnew := hle new
    have hfree : t.taskCount = 0 := by omega
    have hlast : t.refCnt = n := by omega
    have hsame : (⟨t.taskPid, 0, n⟩ : DrvTask) = t := by rw [← hfree, ← hlast]
    rw [hsame] at he
    refine h.step old new he.gone ⟨fun w => ?_, fun w => rfl⟩
      (h.pids.sublist (delete_sublist.map _)) h.ids (by simp) (by simp)
    exact tally_delete h.pids hmem
  · rw [if_neg hlast]
    refine h.editTask old new ht (fun _ _ => rfl) (by omega : 0 < t.refCnt-n) he rfl ?_
    exact Nat.sub_add_cancel (Nat.le_of_not_lt hge)

theorem findAndGetDrvTask (new : List Phase) {isOpen memory : Bool} (h : Balanced c rest)
    (hget : c.findAndGetDrvTask pid isOpen memory = some c')
    (he : Even (part [⟨pid, 0, 0⟩] []) (part [⟨pid, 0, if isOpen then 2 else 1⟩] []) [] new) :
    Balanced c' (new++rest) := by
  have h0 : Balanced c ([]++rest) := h
  unfold Core.findAndGetDrvTask at hget
  split at hget
  · next t ht =>
    obtain ⟨t', hup, rfl⟩ := map_eq_some_iff.mp hget
    have ht' : { t with refCnt := t.refCnt + if isOpen then 2 else 1 } = t' := by
      unfold updateDrvTaskRefCnt at hup
      split_ifs at hup with ho h1 h2
      · rw [if_pos ho]
        exact some.inj hup
      · rw [if_neg ho]
        exact some.inj hup
    obtain ⟨hmem, hp⟩ := getDrvTask_some ht
    subst ht'
    exact h0.editTask [] new ht (fun u hu => hp.trans hu.symm)
      (Nat.lt_add_right _ (h.used t hmem)) he rfl rfl
  · next hnone =>
    split at hget
    · next hopen =>
      obtain rfl := some.inj hget
      have hnew : ∀ t ∈ c.tasks, t.taskPid ≠ pid := by
        simpa [getDrvTask] using hnone
      rw [if_pos (Bool.and_eq_true_iff.mp hopen).1] at he
      refine h0.step [] new he.fresh ⟨fun w => ?_, fun w => rfl⟩ ?_ h.ids (by simp) nofun
      · simp [drvTaskOpenRefCntStep]
      · rw [map_append, nodup_append]
        refine ⟨h.pids, nodup_singleton _, fun a ha b hb => ?_⟩
        obtain ⟨t, ht, rfl⟩ := mem_map.mp ha
        rw [mem_singleton.mp hb]
        exact hnew t ht
    · cases hget

theorem editData (h : Balanced c (old++rest)) (hd : d ∈ c.datas)
    (hid : ∀ d, (g d).id = d.id) (hopen : (g d).stage = .opening → (g d).refCnt = 1)
    (he : Even (part [] [d]) (part [] [g d]) old new) :
    Balanced (c.editData d.id g) (new++rest) := by
  refine h.step old new he ⟨fun w => rfl, fun w => ?_⟩ h.pids ?_ nofun (by simpa using hopen)
  · exact tally_edit h.ids hd
  · exact nodup_edit h.ids fun d _ => hid d

theorem freeFdData (h : Balanced c (old++rest)) (hd : d ∈ c.datas)
    (he : Even (part [] [d]) (part [] []) old new) : Balanced (c.freeFdData d) (new++rest) := by
  refine h.step old new he ⟨fun w => rfl, fun w => ?_⟩ h.pids
    (h.ids.sublist (delete_sublist.map _)) nofun nofun
  exact tally_delete h.ids hd

/-- A step that only changes where the thread stands. -/
theorem same (h : Balanced c (old++rest))
    (he : Even (part [] []) (part [] []) old new) : Balanced c (new++rest) :=
  h.step old new he ⟨fun _ => rfl, fun _ => rfl⟩ h.pids h.ids nofun nofun

/-! ## What a thread finds -/

variable (h : Balanced c ps)
include h

theorem staged_eq (hd : d ∈ c.datas) {stage : Stage} :
    tally (fun e => if e.id = d.id ∧ e.stage = stage then 1 else 0) c.datas =
      if d.stage = stage then 1 else 0 := by
  rw [← tally_key (f := fun e : FdData => if e.stage = stage then 1 else 0) h.ids hd]
  simp only [ite_and]

theorem closingOf_eq (hd : d ∈ c.datas) :
    c.closingOf d.id = if d.stage = .closing then 1 else 0 := h.staged_eq hd

/-- A descriptor that a thread opens, closes or uses is there. -/
theorem exists_data
    (hk : 0 < tally (Phase.opens k) ps + tally (Phase.closes k) ps + tally (Phase.uses k) ps) :
    ∃ d, c.getData k = some d := by
  obtain ⟨d, hd, hid⟩ : ∃ d ∈ c.datas, d.id = k := by
    by_contra hnone
    have hne : ∀ d ∈ c.datas, d.id ≠ k := fun d hd hid => hnone ⟨d, hd, hid⟩
    have hopening : c.openingOf k = 0 := tally_eq_zero fun d hd => if_neg fun hh => hne d hd hh.1
    have hclosing : c.closingOf k = 0 := tally_eq_zero fun d hd => if_neg fun hh => hne d hd hh.1
    have hrefs : c.dataRefsOf k = 0 := tally_eq_zero fun d hd => if_neg (hne d hd)
    have hwaits : tally (Phase.waits k) ps ≤ tally (Phase.closes k) ps :=
      tally_le fun p _ => Phase.waits_le_closes k p
    have h1 := h.opens k
    have h2 := h.closes k
    have h3 := h.uses k
    omega
  exact isSome_iff_exists.mp (find?_isSome.mpr ⟨d, hd, decide_eq_true hid⟩)

variable (hd : d ∈ c.datas)
include hd

theorem stage_opening (hk : 0 < tally (Phase.opens d.id) ps) : d.stage = .opening := by
  rw [← h.opens, openingOf, h.staged_eq hd] at hk
  by_contra hne
  rw [if_neg hne] at hk
  omega

theorem stage_closing (hk : 0 < tally (Phase.closes d.id) ps) : d.stage = .closing := by
  rw [← h.closes, h.closingOf_eq hd] at hk
  by_contra hne
  rw [if_neg hne] at hk
  omega

/-- The references of a descriptor are those of the ioctls and one of the list. -/
theorem refCnt_data : d.refCnt + tally (Phase.waits d.id) ps = 1 + tally (Phase.uses d.id) ps := by
  have hpresent : c.presentOf d.id = 1 := tally_key h.ids hd
  have hrefs : c.dataRefsOf d.id = d.refCnt := tally_key h.ids hd
  rw [← hrefs, ← hpresent]
  exact h.uses d.id

/-- A descriptor in use has a reference and is not being opened. -/
theorem refCnt_of_use (hk : 0 < tally (Phase.uses d.id) ps) : 0 < d.refCnt ∧ d.stage ≠ .opening := by
  have href := h.refCnt_data hd
  have hwaits : tally (Phase.waits d.id) ps ≤ tally (Phase.closes d.id) ps :=
    tally_le fun p _ => Phase.waits_le_closes d.id p
  have hcloses := h.closes d.id
  rw [h.closingOf_eq hd] at hcloses
  constructor
  · split_ifs at hcloses <;> omega
  · intro ho
    have hone := h.unused d hd ho
    rw [ho, if_neg nofun] at hcloses
    omega

end Balanced

end TeeOs.Drv
