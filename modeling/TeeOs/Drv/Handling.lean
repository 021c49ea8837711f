import TeeOs.Drv.Balance

/-!
# Messages and the counters of a driver process

Every message and every step of a thread keeps the balance: one lemma for each
phase, and `Balanced.advance` over all of them.
-/

namespace TeeOs.Drv

open TeeOs.Conf List TeeOs.Drv.Core
open TeeOs.Lib TeeOs.Lib.Keyed TeeOs.Lib.Tally

variable {env : DrvEnv} {c c' : Core} {chance : Chance} {p : Phase} {rest : List Phase}
  {req : OpenReq}

/-! ## What a thread knows -/

section

variable (env : DrvEnv) (c : Core)

/-- What a thread can rely on between two steps. -/
def Phase.Fits : Phase → Prop
  | .count req | .alloc req => req.sender = env.drvMgrPid
  | .openCall id req => req.sender = env.drvMgrPid ∧ id < c.nextId ∧
      ∀ d ∈ c.datas, d.id = id → d.pid = req.pid ∧ d.uuid = req.uuid
  | .added id fd req | .reply id fd req =>
      Call.opened id env.drvMgrPid req.pid req.uuid ∈ c.calls ∧
        ∀ d ∈ c.datas, d.id = id → d.fd = fd ∧ d.pid = req.pid ∧ d.uuid = req.uuid
  | .auth id pid uuid _ | .closing id pid uuid | .waiting id pid uuid =>
      Call.opened id env.drvMgrPid pid uuid ∈ c.calls
  | .put _ n => 0 < n ∧ n ≤ 2
  | _ => True

/-- The first phase of a message, with the task whose record it has taken. -/
inductive Phase.Entry (env : DrvEnv) : Phase → Nat → Bool → Prop
  | count (req : OpenReq) : req.sender = env.drvMgrPid → Entry env (.count req) req.pid true
  | findIoctl (pid : Nat) (uuid : Uuid) (fd cmd : Nat) :
    Entry env (.findIoctl pid uuid fd cmd) pid false
  | findClose (pid : Nat) (uuid : Uuid) (fd : Nat) : Entry env (.findClose pid uuid fd) pid false

/-- Nothing happens, or a thread goes on with the record of a task. -/
def Entered (r : Core × List Phase) : Prop :=
  r = (c, []) ∨ ∃ pid isOpen memory c' p, c.findAndGetDrvTask pid isOpen memory = some c' ∧
    p.Entry env pid isOpen ∧ r = (c', [p])

theorem driverClose_entered (pid : Nat) (uuid : Uuid) (fd : Nat) :
    Entered env c (driverClose env c pid uuid fd) := by
  unfold driverClose
  split
  · exact .inl rfl
  · next low _ =>
    split
    · exact .inl rfl
    · next c' hget =>
      exact .inr ⟨pid, false, true, c', _, hget, .findClose pid uuid low, rfl⟩

theorem driverSyscall_entered (chance : Chance) (msg : DrvMsg) :
    Entered env c (driverSyscall env c chance msg) := by
  cases msg with
  | openFd readable req =>
    simp only [driverSyscall]
    split
    · exact .inl rfl
    · next hsender =>
      split
      · exact .inl rfl
      · next c' hget =>
        exact .inr ⟨req.pid, true, chance.memory, c', _, hget, .count req (by tauto), rfl⟩
  | ioctl readable sender uuid fd cmd =>
    simp only [driverSyscall]
    split
    · exact .inl rfl
    · split
      · exact .inl rfl
      · next low _ =>
        split
        · exact .inl rfl
        · next c' hget =>
          exact .inr ⟨sender, false, true, c', _, hget, .findIoctl sender uuid low cmd, rfl⟩
  | close readable sender pid uuid fd =>
    simp only [driverSyscall]
    split
    · exact .inl rfl
    · exact driverClose_entered env c pid uuid fd

end

/-! ## The counters -/

namespace Balanced

attribute [local simp] refsOf countsOf listedOf openingOf closingOf presentOf dataRefsOf

theorem getTaskCount (h : Balanced c (.count req :: rest))
    (hget : c.getTaskCount req.pid = some c') : Balanced c' (.alloc req :: rest) := by
  have he : Even (part [⟨req.pid, 0, 0⟩] []) (part [⟨req.pid, 1, 0⟩] []) [.count req] [.alloc req] := by
    constructor <;> simp
  unfold Core.getTaskCount at hget
  split at hget
  · cases hget
  · next t ht =>
    split at hget
    · cases hget
    · obtain rfl := Option.some.inj hget
      exact h.editTask [.count req] [.alloc req] ht (fun _ _ => rfl)
        (h.used t (getDrvTask_some ht).1) he rfl rfl

theorem allocFdData {id : Nat} (h : Balanced c (.alloc req :: rest))
    (hfresh : ∀ d ∈ c.datas, d.id < c.nextId)
    (halloc : c.allocFdData req chance.memory = some (c', id)) :
    Balanced c' (.openCall id req :: rest) := by
  unfold Core.allocFdData at halloc
  split at halloc
  · split at halloc
    · cases halloc
    · next bit _ =>
      obtain ⟨rfl, rfl⟩ := Prod.mk.inj (Option.some.inj halloc)
      have he : Even (part [] []) (part [] [⟨c.nextId, req.pid, bit+1, req.uuid, req.perm, 1, .opening⟩])
          [.alloc req] [.openCall c.nextId req] := by
        constructor <;> simp
      refine h.step [.alloc req] [.openCall c.nextId req] he ⟨fun w => rfl, fun w => by simp⟩ h.pids
        ?_ nofun (by simp)
      rw [map_append, nodup_append]
      refine ⟨h.ids, nodup_singleton _, fun a ha b hb => ?_⟩
      obtain ⟨d, hd, rfl⟩ := mem_map.mp ha
      rw [mem_singleton.mp hb]
      exact Nat.ne_of_lt (hfresh d hd)
  · cases halloc

section Open

variable {id : Nat} {req : OpenReq} {d : FdData}

section

variable (h : Balanced c (.openCall id req :: rest))
include h

theorem opening_of_openCall (hd : d ∈ c.datas) (hid : d.id = id) : d.stage = .opening := by
  refine h.stage_opening hd ?_
  rw [tally_cons, Phase.opens, if_pos hid.symm]
  omega

theorem openSucceeds (hd : c.getData id = some d) (hpid : d.pid = req.pid) :
    Balanced (c.editData id fun d => { d with stage := .listed }) (.added id d.fd req :: rest) := by
  obtain ⟨hmem, rfl⟩ := getData_some hd
  have hstage := h.opening_of_openCall hmem rfl
  refine h.editData [.openCall d.id req] [.added d.id d.fd req] hmem (fun _ => rfl) nofun ?_
  constructor <;> intro x <;> simp [hstage, hpid]
  split_ifs <;> omega

theorem openFails (hd : c.getData id = some d) :
    Balanced (c.freeFdData d) (.undo req.pid :: rest) := by
  obtain ⟨hmem, rfl⟩ := getData_some hd
  have hstage := h.opening_of_openCall hmem rfl
  have href := h.unused d hmem hstage
  refine h.freeFdData [.openCall d.id req] [.undo req.pid] hmem ?_
  constructor <;> simp [hstage, href]

end

theorem undo {pid : Nat} (h : Balanced c (.undo pid :: rest)) :
    Balanced (c.decTaskCount pid) (.put pid drvTaskOpenRefCntStep :: rest) := by
  obtain ⟨t, ht⟩ := h.exists_task (q := pid) (by simp)
  obtain ⟨hmem, hpid⟩ := getDrvTask_some ht
  have hcount := h.taskCount_eq hmem
  rw [hpid, tally_cons, Phase.counts, if_pos rfl] at hcount
  have he : Even (part [⟨pid, 1, 0⟩] []) (part [⟨pid, 0, 0⟩] []) [.undo pid] [.put pid 2] := by
    constructor <;> simp
  refine h.editTask [.undo pid] [.put pid 2] ht (fun _ _ => rfl) (h.used t hmem) he ?_ rfl
  exact Nat.sub_add_cancel (by omega)

end Open

section Use

variable {id pid fd cmd : Nat} {uuid : Uuid} {d : FdData}

theorem findIoctl (h : Balanced c (.findIoctl pid uuid fd cmd :: rest)) (hd : d ∈ c.datas)
    (hstage : d.stage = .listed) :
    Balanced (c.editData d.id fun d => { d with refCnt := d.refCnt+1 })
      (.auth d.id pid uuid cmd :: rest) := by
  refine h.editData [.findIoctl pid uuid fd cmd] [.auth d.id pid uuid cmd] hd (fun _ => rfl)
    (by simp [hstage]) ?_
  constructor <;> intro x <;> simp
  split_ifs <;> omega

theorem ioctlEnds (h : Balanced c (.ioctl id pid :: rest)) :
    Balanced (c.editData id fun d => { d with refCnt := d.refCnt-1 }) (.put pid 1 :: rest) := by
  obtain ⟨d, hd⟩ := h.exists_data (k := id) (by simp)
  obtain ⟨hmem, rfl⟩ := getData_some hd
  have hused := h.refCnt_of_use hmem (by simp)
  refine h.editData [.ioctl d.id pid] [.put pid 1] hmem (fun _ => rfl)
    (fun ho => absurd ho hused.2) ?_
  constructor <;> intro x <;> simp
  split_ifs <;> omega

theorem findClose (h : Balanced c (.findClose pid uuid fd :: rest)) (hd : d ∈ c.datas)
    (hstage : d.stage = .listed) (hpid : d.pid = pid) :
    Balanced ((c.decTaskCount pid).editData d.id fun d => { d with stage := .closing })
      (.closing d.id pid uuid :: rest) := by
  obtain ⟨t, ht⟩ := h.exists_task (q := pid) (by simp)
  obtain ⟨htask, rfl⟩ := getDrvTask_some ht
  have hlisted : 0 < c.listedOf t.taskPid := by
    have hle := le_tally (f := fun d : FdData =>
      if d.stage = .listed ∧ d.pid = t.taskPid then 1 else 0) hd
    rw [if_pos ⟨hstage, hpid⟩] at hle
    exact hle
  have hcount := h.taskCount_eq htask
  have he : Even (part [t] [d])
      (part [{ t with taskCount := t.taskCount-1 }] [{ d with stage := .closing }])
      [.findClose t.taskPid uuid fd] [.closing d.id t.taskPid uuid] := by
    constructor <;> intro x <;> simp [hstage, hpid] <;> split_ifs <;> omega
  refine h.step _ [.closing d.id t.taskPid uuid] he ⟨fun w => ?_, fun w => ?_⟩ ?_ ?_
    (by simpa using h.used t htask) (by simp)
  · exact tally_edit h.pids htask
  · exact tally_edit h.ids hd
  · exact nodup_edit h.pids fun _ _ => rfl
  · exact nodup_edit h.ids fun _ _ => rfl

theorem closing_of_closes (h : Balanced c (p :: rest)) (hd : d ∈ c.datas)
    (hp : 0 < p.closes d.id) : d.stage = .closing := by
  refine h.stage_closing hd ?_
  rw [tally_cons]
  omega

theorem closeBegins (h : Balanced c (.closing id pid uuid :: rest)) :
    Balanced (c.editData id fun d => { d with refCnt := d.refCnt-1 })
      (.waiting id pid uuid :: rest) := by
  obtain ⟨d, hd⟩ := h.exists_data (k := id) (by simp)
  obtain ⟨hmem, rfl⟩ := getData_some hd
  have hstage := h.closing_of_closes hmem (by simp)
  have href := h.refCnt_data hmem
  have hcloses := h.closes d.id
  have hwaits : tally (Phase.waits d.id) rest ≤ tally (Phase.closes d.id) rest :=
    tally_le fun p _ => Phase.waits_le_closes d.id p
  rw [h.closingOf_eq hmem, if_pos hstage, tally_cons, Phase.closes, if_pos rfl] at hcloses
  simp only [tally_cons, Phase.waits, Phase.uses] at href
  refine h.editData [.closing d.id pid uuid] [.waiting d.id pid uuid] hmem (fun _ => rfl)
    (by simp [hstage]) ?_
  constructor <;> intro x <;> simp
  split_ifs <;> omega

theorem closeEnds (h : Balanced c (.waiting id pid uuid :: rest)) (hd : c.getData id = some d)
    (hlast : d.refCnt = 0) :
    Balanced (c.freeFdData d) (.put pid drvTaskOpenRefCntStep :: rest) := by
  obtain ⟨hmem, rfl⟩ := getData_some hd
  have hstage := h.closing_of_closes hmem (by simp)
  refine h.freeFdData [.waiting d.id pid uuid] [.put pid drvTaskOpenRefCntStep] hmem ?_
  constructor <;> simp [hstage, hlast, drvTaskOpenRefCntStep]

end Use

/-- A message keeps the balance in the first step of its thread. -/
theorem entered {r : Core × List Phase} (h : Balanced c rest) (hr : Entered env c r) :
    Balanced r.1 (r.2 ++ rest) := by
  rcases hr with rfl | ⟨pid, isOpen, memory, c', p, hget, hentry, rfl⟩
  · exact h
  · cases hentry with
    | count req _ => exact h.findAndGetDrvTask [_] hget (by constructor <;> simp)
    | findIoctl uuid fd cmd | findClose uuid fd =>
      exact h.findAndGetDrvTask [_] hget (by constructor <;> simp)

theorem record {call : Call} (h : Balanced c rest) : Balanced (c.record call) rest :=
  ⟨h.pids, h.ids, h.used, h.refs, h.counts, h.opens, h.closes, h.uses, h.unused⟩

theorem advance (h : Balanced c (p :: rest)) (hfit : p.Fits env c)
    (hfresh : ∀ d ∈ c.datas, d.id < c.nextId) :
    Balanced (advance env c chance p).1 ((advance env c chance p).2 ++ rest) := by
  cases p with
  | count req =>
    simp only [Drv.advance]
    split
    · exact h.same [.count req] [.put req.pid _] (by constructor <;> simp [drvTaskOpenRefCntStep])
    · next c' hget => exact h.getTaskCount hget
  | alloc req =>
    simp only [Drv.advance]
    split
    · exact h.same [.alloc req] [.undo req.pid] (by constructor <;> simp)
    · next c' id halloc => exact h.allocFdData hfresh halloc
  | openCall id req =>
    obtain ⟨d, hd⟩ := h.exists_data (k := id) (by simp)
    simp only [Drv.advance, hd]
    obtain ⟨hmem, hid⟩ := getData_some hd
    split
    · exact (h.openSucceeds hd (hfit.2.2 d hmem hid).1).record
    · exact h.openFails hd
  | undo pid => exact h.undo
  | added id fd req =>
    exact h.putDrvTask [.added id fd req] [.reply id fd req] Nat.one_pos (by constructor <;> simp)
  | reply id fd req =>
    simp only [Drv.advance]
    have hrest : Balanced c rest := h.same [.reply id fd req] [] (by constructor <;> simp)
    split
    · exact hrest
    · exact hrest.record.entered (driverClose_entered env _ _ _ _)
  | findIoctl pid uuid fd cmd =>
    have hput : Balanced c (.put pid 1 :: rest) :=
      h.same [.findIoctl pid uuid fd cmd] [.put pid 1] (by constructor <;> simp)
    simp only [Drv.advance]
    split
    · exact hput
    · next d hd =>
      split
      · exact hput
      · obtain ⟨hmem, hstage, -⟩ := findFdData_some hd
        exact h.findIoctl hmem hstage
  | auth id pid uuid cmd =>
    obtain ⟨d, hd⟩ := h.exists_data (k := id) (by simp)
    have hnext : Balanced c (.ioctl id pid :: rest) := h.same [.auth id pid uuid cmd]
      [.ioctl id pid] (by constructor <;> simp)
    simp only [Drv.advance, hd]
    split
    · exact hnext.record
    · exact hnext
  | ioctl id pid => exact h.ioctlEnds
  | findClose pid uuid fd =>
    simp only [Drv.advance]
    split
    · exact h.same [.findClose pid uuid fd] [.put pid 1] (by constructor <;> simp)
    · next d hd =>
      obtain ⟨hmem, hstage, hpid, -⟩ := findFdData_some hd
      exact h.findClose hmem hstage hpid
  | closing id pid uuid => exact h.closeBegins
  | waiting id pid uuid =>
    obtain ⟨d, hd⟩ := h.exists_data (k := id) (by simp)
    simp only [Drv.advance, hd]
    split
    · next hlast => exact (h.closeEnds hd hlast).record
    · exact h
  | put pid n =>
    exact h.putDrvTask [.put pid n] [] hfit.1 (by constructor <;> simp)

end Balanced

end TeeOs.Drv
