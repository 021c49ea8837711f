import TeeOs.DrvMgr.Entries

/-!
# Reference counts of drvmgr

Over every run of messages the counts are what refers to the nodes, with two exceptions.
An UNREGISTER that finds a node made by the open of a base driver gives back
one reference more than the node has, so the node stays for ever. An open of a base
driver for which no caller node is found or made reads through a null pointer.
-/

namespace TeeOs.DrvMgr

open MgrState Bool TaskNode

open List

open TeeOs.Conf
open TeeOs.Lib.CText
open TeeOs.Lib.Keyed
open TeeOs.Lib.Runs
open TeeOs.Lib.Tally

variable {tasksOnly : Prop} {s : MgrState} {debt hold : List Nat} {n m : TaskNode} {a c d : Nat}
  {baseDrv : List Text} {r : OpenReq} {drvName : Text}

variable {uuid : Uuid}

theorem findNormalNode_mem {pid : Option Nat}
    (h : s.findNormalNode uuid pid = some n) : n ∈ s.nodes := mem_of_find?_eq_some h

namespace Accounts

theorem refsTo_next (h : Accounts tasksOnly s debt hold) : s.refsTo s.next = 0 := by
  refine tally_eq_zero fun n hn => count_eq_zero.mpr fun hmem => ?_
  obtain ⟨d, hd, he⟩ := mem_map.mp hmem
  obtain ⟨t, ht, hta, _⟩ := h.targets n hn d hd
  have := h.below ht
  omega

/-- A new caller node, whose one reference is the registration or the message's. -/
theorem receiveTaConf {s' : MgrState} (h : Accounts tasksOnly s [] [])
    (hs : s.receiveTaConf n = some s')
    (haddr : n.addr = s.next) (hdrv : n.isDrv = false) (hfds : n.fds = []) (hfd : n.fdCount = 0)
    (href : n.refCnt = 1) (hdebt : ∀ x, debt.count x =
      if x = s.next then 1 - n.registered.toNat else 0) :
    Accounts tasksOnly s' debt [] ∧ n ∈ s'.nodes := by
  rw [MgrState.receiveTaConf] at hs
  split at hs
  · cases hs
  cases hs
  have hentries : ∀ x, n.entries x = 0 := fun x => by
    rw [entries, hfds]
    rfl
  have hrefs : ∀ x, tally (fun m => m.entries x) (s.nodes ++ [n]) = s.refsTo x := fun x => by
    rw [tally_append, tally_cons, hentries x, tally_nil]
    rfl
  have hlist : (s.nodes ++ [n]).map addr = s.nodes.map addr ++ [s.next] := by
    rw [map_append, map_singleton, haddr]
  have hswap : ([s.next] ++ s.freed.map addr).Perm (s.freed.map addr ++ [s.next]) :=
    perm_append_comm
  have hnext := h.refsTo_next
  have hbelow := fun m => h.below (n := m)
  obtain ⟨alive, whole, refCnt, fdCount, targets, held, counted, unregistered, passive, done⟩ := h
  refine ⟨?_, mem_append_right _ (mem_singleton.mpr rfl)⟩
  constructor
  case whole =>
    rw [range_succ, hlist, append_assoc]
    refine (hswap.append_left _).trans ?_
    rw [← append_assoc]
    exact whole.append_right _
  case refCnt =>
    intro m hm
    change _ = _ + _ + tally _ _ + _
    have hbool := toNat_le m.registered
    grind
  case held =>
    intro a ha
    have hpos := count_pos_iff.mpr ha
    grind
  all_goals grind

end Accounts

/-! ## Callers -/

/-- The result of a lookup that takes a reference to what it finds, on top of `debt`
and `hold`. What it finds is a driver or not as `kind` tells. -/
structure Got (tasksOnly : Prop) (debt hold : List Nat) (kind : Bool → Prop)
    (res : MgrState × Option Nat) : Prop where
  missed : res.2 = none → Accounts tasksOnly res.1 debt hold
  found : ∀ c, res.2 = some c → Accounts tasksOnly res.1 (c :: debt) hold ∧
    ∃ n ∈ res.1.nodes, n.addr = c ∧ kind n.isDrv

theorem Accounts.getNodeByUuidWithLock (h : Accounts tasksOnly s debt hold) (uuid : Uuid)
    (pid : Nat) (kind : Bool → Prop)
    (hkind : ∀ n, s.findNormalNode uuid (some pid) = some n → kind n.isDrv) :
    Got tasksOnly debt hold kind (s.getNodeByUuidWithLock uuid pid) := by
  rw [MgrState.getNodeByUuidWithLock]
  cases hfound : s.findNormalNode uuid (some pid) with
  | none => exact ⟨fun _ => h, nofun⟩
  | some n =>
    have hn := findNormalNode_mem hfound
    have hbind : Accounts tasksOnly (s.write n.addr (bindPid (some pid))) debt hold :=
      h.write_other hn (fun _ => rfl) rfl rfl rfl rfl rfl
    have hself : bindPid (some pid) n ∈
        (s.write n.addr (bindPid (some pid))).nodes := h.mem_write_self hn
    have hinc := hbind.incDrvNode hself
    have hmem := hbind.mem_write_self (f := MgrState.incDrvNode) hself
    dsimp only
    split
    · exact ⟨fun _ => hbind, nofun⟩
    · refine ⟨nofun, fun c hc => ?_⟩
      cases hc
      exact ⟨hinc, _, hmem, rfl, hkind n hfound⟩

/-- The result of the checks of a caller: the caller that passes them also has a place
for a descriptor. -/
structure Admitted (tasksOnly : Prop) (res : MgrState × Option Nat) : Prop where
  missed : res.2 = none → Accounts tasksOnly res.1 [] []
  found : ∀ c, res.2 = some c → Accounts tasksOnly res.1 [c] [c]

theorem Accounts.admitCaller (h : Accounts tasksOnly s [n.addr] []) (hn : n ∈ s.nodes)
    (hta : tasksOnly → n.isDrv = false) :
    Admitted tasksOnly (s.admitCaller baseDrv drvName n.addr) := by
  have hput : Admitted tasksOnly (s.putNode n.addr 1, none) :=
    ⟨fun _ => h.putNode_one, nofun⟩
  rw [MgrState.admitCaller, h.node? hn]
  dsimp only
  split
  · exact hput
  split
  · exact hput
  rcases h.getFdCount hn hta with hfull | ⟨hres, hacc⟩
  · rw [hfull]
    exact hput
  · rw [show s.getFdCount n.addr = ((s.getFdCount n.addr).1, true) from Prod.ext rfl hres]
    refine ⟨nofun, fun c hc => ?_⟩
    cases hc
    exact hacc

/-- The caller of an open has a node that can be referred to. -/
def MgrState.callerKnown (s : MgrState) (r : OpenReq) : Bool :=
  (s.findNormalNode r.uuid (some r.pid)).any fun n => n.refCnt ≠ uint32Max

theorem callerKnown_none (h : (s.getNodeByUuidWithLock r.uuid r.pid).2 = none) :
    s.callerKnown r = false := by
  rw [getNodeByUuidWithLock] at h
  rw [callerKnown]
  cases hfound : s.findNormalNode r.uuid (some r.pid) with
  | none => rfl
  | some n =>
    rw [hfound] at h
    dsimp only at h
    split at h
    · rename_i hmax
      rw [Option.any_some, decide_eq_false_iff_not]
      exact fun hne => hne hmax
    · cases h

theorem getNodeByUuidWithLock_of_none {pid : Nat} (h : s.findNormalNode uuid (some pid) = none) :
    s.getNodeByUuidWithLock uuid pid = (s, none) := by
  rw [getNodeByUuidWithLock, h]

/-- A node in use is effective. -/
theorem findNormalNode_none (pid : Option Nat)
    (h : s.findEffectiveNode uuid = none) : s.findNormalNode uuid pid = none := by
  rw [findNormalNode, find?_eq_none]
  intro n hn hmatch
  have heff := find?_eq_none.mp h n hn
  simp only [matchesCaller, and_eq_true, decide_eq_true_eq] at hmatch
  rw [and_eq_true, decide_eq_true_eq, decide_eq_true_eq] at heff
  refine heff ⟨hmatch.1.1, ?_⟩
  rw [hmatch.1.2]
  decide

/-- Where a node must be made, it can be made. -/
def MgrState.canServe (s : MgrState) (baseDrv : List Text) (r : OpenReq) (drvName : Text) : Bool :=
  decide (drvName ∉ baseDrv) || s.callerKnown r ||
    (r.nodeMem && (s.findEffectiveNode r.uuid).isNone)

theorem Accounts.allocDrvcallNodeInternalDrv (h : Accounts tasksOnly s [] [])
    (hmem : r.nodeMem = true) (hfree : s.findEffectiveNode r.uuid = none) :
    ∃ s' n, s.allocDrvcallNodeInternalDrv r = some (s', n.addr) ∧
      Accounts tasksOnly s' [n.addr] [] ∧ n ∈ s'.nodes ∧ n.isDrv = false := by
  let n : TaskNode :=
    { addr := s.next, uuid := r.uuid, pid := some r.pid, state := .normal, refCnt := 1 }
  have hnew : s.receiveTaConf n = some { s with nodes := s.nodes ++ [n], next := s.next + 1 } := by
    rw [MgrState.receiveTaConf, hfree]
  have hdebt : ∀ x, [n.addr].count x = if x = s.next then 1 - n.registered.toNat else 0 := by
    intro x
    rw [count_singleton]
    by_cases hx : x = s.next
    · rw [if_pos hx, if_pos (by rw [hx]; exact beq_self_eq_true _)]
      rfl
    · rw [if_neg hx, if_neg (by simpa using Ne.symm hx)]
  obtain ⟨hacc, hn⟩ := h.receiveTaConf hnew rfl rfl rfl rfl rfl hdebt
  refine ⟨_, n, ?_, hacc, hn, rfl⟩
  rw [MgrState.allocDrvcallNodeInternalDrv, if_pos hmem, hnew]
  rfl

theorem Accounts.getValidDrvcallNode (h : Accounts tasksOnly s [] [])
    (hta : tasksOnly → ∀ n, s.findNormalNode r.uuid (some r.pid) = some n → n.isDrv = false)
    (hserve : s.canServe baseDrv r drvName = true) :
    Admitted tasksOnly (s.getValidDrvcallNode baseDrv r drvName) := by
  have hgot := h.getNodeByUuidWithLock r.uuid r.pid (fun drv => tasksOnly → drv = false)
    fun n hn hp => hta hp n hn
  rw [MgrState.getValidDrvcallNode]
  rcases hres : s.getNodeByUuidWithLock r.uuid r.pid with ⟨s', found⟩
  rw [hres] at hgot
  cases found with
  | some c =>
    obtain ⟨hacc, n, hn, rfl, hd⟩ := hgot.found c rfl
    exact hacc.admitCaller hn hd
  | none =>
    dsimp only
    split
    · exact ⟨fun _ => hgot.missed rfl, nofun⟩
    · rename_i hbase
      have hunknown : s.callerKnown r = false := callerKnown_none (by rw [hres])
      rw [canServe, hunknown, decide_eq_false hbase, Bool.false_or, Bool.false_or,
        and_eq_true, Option.isNone_iff_eq_none] at hserve
      have hsame := getNodeByUuidWithLock_of_none (findNormalNode_none (some r.pid) hserve.2)
      rw [hres] at hsame
      cases hsame
      obtain ⟨s'', n, halloc, hacc, hn, hd⟩ := h.allocDrvcallNodeInternalDrv hserve.1 hserve.2
      rw [halloc]
      exact hacc.admitCaller hn fun _ => hd

/-! ## Opening -/

section

variable (h : Accounts tasksOnly s debt hold)
include h

theorem Accounts.getDrvNodeByNameWithLock (drvName : Text) :
    Got tasksOnly debt hold (· = true) (s.getDrvNodeByNameWithLock drvName) := by
  rw [MgrState.getDrvNodeByNameWithLock]
  cases hfound : s.findNodeByName drvName with
  | none => exact ⟨fun _ => h, nofun⟩
  | some n =>
    have hn : n ∈ s.nodes := mem_of_find?_eq_some hfound
    have hname := find?_some hfound
    have hdrv : n.isDrv = true := by
      rw [isDrv]
      cases hc : n.drvConf with
      | none =>
        rw [hc] at hname
        cases hname
      | some conf => rfl
    dsimp only
    split
    · exact ⟨fun _ => h, nofun⟩
    · refine ⟨nofun, fun d hd => ?_⟩
      cases hd
      exact ⟨h.incDrvNode hn, _, h.mem_write_self hn, rfl, hdrv⟩

theorem Accounts.ensureSpawned (hn : n ∈ s.nodes) (spawned : Bool) :
    Accounts tasksOnly (s.ensureSpawned n.addr spawned).1 debt hold ∧
      ∃ m ∈ (s.ensureSpawned n.addr spawned).1.nodes, m.addr = n.addr ∧ m.isDrv = n.isDrv := by
  rw [MgrState.ensureSpawned, h.node? hn]
  dsimp only
  split
  · exact ⟨h.write_other hn (fun _ => rfl) rfl rfl rfl rfl rfl, _, h.mem_write_self hn, rfl, rfl⟩
  · exact ⟨h, n, hn, rfl, rfl⟩

theorem Accounts.getValidDrvNode (r : OpenReq) (drvName : Text) :
    Got tasksOnly debt hold (· = true) (s.getValidDrvNode r drvName) := by
  have hgot := h.getDrvNodeByNameWithLock drvName
  rw [MgrState.getValidDrvNode]
  rcases hres : s.getDrvNodeByNameWithLock drvName with ⟨s', found⟩
  rw [hres] at hgot
  cases found with
  | none => exact ⟨fun _ => hgot.missed rfl, nofun⟩
  | some d =>
    obtain ⟨hacc, n, hn, rfl, hdrv⟩ := hgot.found d rfl
    dsimp only
    split
    · exact ⟨fun _ => hacc.putNode_one, nofun⟩
    obtain ⟨hacc', m, hm, hma, hmd⟩ := hacc.ensureSpawned hn r.spawned
    rcases hsp : s'.ensureSpawned n.addr r.spawned with ⟨s'', started⟩
    rw [hsp] at hacc' hm
    cases started with
    | true =>
      refine ⟨nofun, fun d hd => ?_⟩
      cases hd
      exact ⟨hacc', m, hm, hma, hmd.trans hdrv⟩
    | false => exact ⟨fun _ => hacc'.putNode_one, nofun⟩

end

theorem Accounts.driverOpenFunc (h : Accounts tasksOnly s [] [])
    (hta : tasksOnly → ∀ n, s.findNormalNode r.uuid (some r.pid) = some n → n.isDrv = false)
    (hserve : ∀ text, r.drvName = some text → s.canServe baseDrv r (cstr text) = true) :
    Accounts tasksOnly (s.driverOpenFunc baseDrv r).1 [] [] := by
  rw [MgrState.driverOpenFunc]
  cases hname : r.drvName with
  | none => exact h
  | some text =>
    have hadm := h.getValidDrvcallNode hta (hserve text hname)
    dsimp only
    rcases hres : s.getValidDrvcallNode baseDrv r (cstr text) with ⟨s₁, found⟩
    rw [hres] at hadm
    cases found with
    | none => exact hadm.missed rfl
    | some c =>
      have hacc : Accounts tasksOnly s₁ [c] [c] := hadm.found c rfl
      dsimp only
      split
      · exact (hacc.putFdCount mem_cons_self).putNode_one
      have hdrv := hacc.getValidDrvNode r (cstr text)
      rcases hres₂ : s₁.getValidDrvNode r (cstr text) with ⟨s₂, driver⟩
      rw [hres₂] at hdrv
      cases driver with
      | none => exact ((hdrv.missed rfl).putFdCount mem_cons_self).putNode_one
      | some d =>
        obtain ⟨hacc₂, m, hm, hma, hmd⟩ := hdrv.found d rfl
        dsimp only
        split
        · exact (hacc₂.putNode_one.putFdCount mem_cons_self).putNode_one
        · have hswap := hacc₂.perm (List.Perm.swap c d [])
          exact hswap.addFd { fd := _, drv := d } hm hma hmd

/-! ## Closing and registering -/

section

variable (h : Accounts tasksOnly s [] [])
include h

theorem Accounts.driverCloseFunc {pid : Nat} {fd : Int} :
    Accounts tasksOnly (s.driverCloseFunc uuid pid fd) [] [] := by
  have hgot := h.getNodeByUuidWithLock uuid pid (fun _ => True) fun _ _ => trivial
  rw [MgrState.driverCloseFunc]
  rcases hres : s.getNodeByUuidWithLock uuid pid with ⟨s', found⟩
  rw [hres] at hgot
  cases found with
  | none => exact hgot.missed rfl
  | some c =>
    obtain ⟨hacc, n, hn, rfl, -⟩ := hgot.found c rfl
    have hmark := hacc.closeGetFdNodeWithLock hn fd
    have hself : { n with fds := (markFd fd n.fds).2 } ∈
        (s'.closeGetFdNodeWithLock n.addr fd).1.nodes := by
      rw [MgrState.closeGetFdNodeWithLock, hacc.node? hn]
      exact hacc.mem_write_self hn
    have hfound : (s'.closeGetFdNodeWithLock n.addr fd).2 = (markFd fd n.fds).1 := by
      rw [MgrState.closeGetFdNodeWithLock, hacc.node? hn]
    dsimp only
    rcases hclose : s'.closeGetFdNodeWithLock n.addr fd with ⟨s'', entry⟩
    rw [hclose] at hmark hself hfound
    cases entry with
    | none => exact hmark.putNode_one
    | some i =>
      have hlen : (markFd fd n.fds).2.length = n.fds.length := by
        simpa only [length_map] using congrArg length (markFd_drv fd n.fds)
      have hi : i < (markFd fd n.fds).2.length := by
        rw [hlen]
        exact markFd_lt fd n.fds hfound.symm
      have hops := hmark.driverCloseFuncOps hself hi
      have hboth := hops
      exact hboth.putNode Nat.two_pos

theorem Accounts.drvcallConfRegisterHandle {r : RegisterReq} :
    Accounts tasksOnly (s.drvcallConfRegisterHandle r) [] [] := by
  rw [MgrState.drvcallConfRegisterHandle]
  split
  · cases hnew : s.receiveTaConf _ with
    | none => exact h
    | some s' =>
      refine (h.receiveTaConf hnew rfl rfl rfl rfl rfl fun x => ?_).1
      split <;> rfl
  · exact h

/-- The lookup of an UNREGISTER: a reference of its own, and that of the registration. -/
theorem Accounts.getTaNodeAndSetExit
    (hreg : ∀ n, s.findNormalNode uuid none = some n → n.isDrv = true ∨ n.registered = true) :
    s.getTaNodeAndSetExit uuid = (s, none) ∨
      ∃ s' n, s.getTaNodeAndSetExit uuid = (s', some n.addr) ∧
        Accounts tasksOnly s' [n.addr, n.addr] [] ∧ n ∈ s'.nodes ∧ n.isDrv = false := by
  rw [MgrState.getTaNodeAndSetExit]
  cases hfound : s.findNormalNode uuid none with
  | none => exact .inl rfl
  | some n =>
    have hn := findNormalNode_mem hfound
    dsimp only
    cases hdrv : n.isDrv with
    | true => exact .inl (if_pos rfl)
    | false =>
      rw [if_neg Bool.false_ne_true]
      split
      · exact .inl rfl
      have hr : n.registered = true := (hreg n hfound).resolve_left (by rw [hdrv]; decide)
      have hinc : MgrState.incDrvNode n ∈ (s.write n.addr MgrState.incDrvNode).nodes :=
        h.mem_write_self hn
      have hexit := (h.incDrvNode hn).setExit hinc hdrv hr
      have hself := (h.incDrvNode hn).mem_write_self (f := MgrState.setExit) hinc
      exact .inr ⟨_, MgrState.setExit (MgrState.incDrvNode n), rfl, hexit, hself, hdrv⟩

theorem Accounts.drvcallConfUnregisterHandle {accepted : Bool} (hreg : accepted = true →
      ∀ n, s.findNormalNode uuid none = some n → n.isDrv = true ∨ n.registered = true) :
    Accounts tasksOnly (s.drvcallConfUnregisterHandle accepted uuid) [] [] := by
  rw [MgrState.drvcallConfUnregisterHandle]
  split
  · rename_i hacc
    rcases h.getTaNodeAndSetExit (hreg hacc) with hnone | ⟨s', n, hres, hexit, hn, hd⟩
    · rw [hnone]
      exact h
    · rw [hres]
      have hclosed := hexit.exceptionCloseHandle hn hd
      -- one reference for each closed entry, one for the lookup, one for the registration
      refine Accounts.putNode (hclosed.perm (List.Perm.of_eq ?_)) (Nat.succ_pos _)
      rw [replicate_add, append_nil]
      rfl
  · exact h

end

/-! ## Runs -/

/-- An UNREGISTER finds no node that only the open of a base driver made, and an open
finds or can make the node of its caller. -/
def MgrMsg.sound (baseDrv : List Text) (s : MgrState) : MgrMsg → Bool
  | .unregister accepted uuid =>
    !accepted || (s.findNormalNode uuid none).all fun n => n.isDrv || n.registered
  | .drvOpen r => r.drvName.all fun text => s.canServe baseDrv r (cstr text)
  | .register _ | .drvClose _ _ _ => true

/-- No driver opens a driver. -/
def MgrMsg.fromTask (s : MgrState) : MgrMsg → Bool
  | .drvOpen r => (s.findNormalNode r.uuid (some r.pid)).all fun n => !n.isDrv
  | .register _ | .unregister _ _ | .drvClose _ _ _ => true

theorem accounts_init (drivers : List DriverEntry) : Accounts tasksOnly (initMgr drivers) [] [] := by
  have hinit : ∀ n ∈ (initMgr drivers).nodes, ∃ e a, n = initNode e a := fun n hn => by
    obtain ⟨e, _, rfl⟩ := mem_map.mp hn
    exact ⟨e.1, e.2, rfl⟩
  have hrefs : ∀ a, (initMgr drivers).refsTo a = 0 := fun a => tally_eq_zero fun n hn => by
    obtain ⟨e, b, rfl⟩ := hinit n hn
    rfl
  have haddrs : (initMgr drivers).nodes.map addr = range drivers.length := by
    rw [initMgr, map_map]
    change drivers.zipIdx.map Prod.snd = _
    rw [zipIdx_map_snd, range_eq_range']
  constructor
  case whole =>
    rw [haddrs]
    exact List.Perm.of_eq (append_nil _)
  case alive => rfl
  case held => exact nofun
  case done => exact nofun
  case refCnt =>
    intro n hn
    rw [hrefs]
    obtain ⟨e, a, rfl⟩ := hinit n hn
    rfl
  all_goals grind [initNode, isDrv]

/-- The counts between messages. A caller node is listed exactly while it is
registered or has a descriptor. -/
structure Exact (s : MgrState) : Prop where
  noFault : s.fault = false
  fdCount : ∀ n ∈ s.nodes, n.fdCount = n.fds.length
  caller : ∀ n ∈ s.nodes, n.isDrv = false →
    n.refCnt = n.fds.length + if n.registered then 1 else 0
  driver : ∀ n ∈ s.nodes, n.isDrv = true → n.refCnt = s.refsTo n.addr
  needed : ∀ n ∈ s.nodes, n.isDrv = false → n.registered = true ∨ n.fds ≠ []
  freed : ∀ n ∈ s.freed, n.registered = false ∧ n.fds = []
  once : (s.nodes.map addr ++ s.freed.map addr).Perm (List.range s.next)
  targets : ∀ n ∈ s.nodes, ∀ d ∈ n.fds, ∃ m ∈ s.nodes, m.addr = d.drv ∧ m.isDrv = true

/-- Entries point to drivers only. -/
theorem Accounts.refsTo_caller (h : Accounts tasksOnly s debt hold) (hn : n ∈ s.nodes)
    (hd : n.isDrv = false) : s.refsTo n.addr = 0 := by
  refine tally_eq_zero fun m hm => count_eq_zero.mpr fun hmem => ?_
  obtain ⟨e, he, hea⟩ := mem_map.mp hmem
  obtain ⟨t, ht, hta, htd⟩ := h.targets m hm e he
  rw [h.unique ht hn (hta.trans hea), hd] at htd
  cases htd

section

variable (h : Accounts tasksOnly s [] [])
include h

theorem Accounts.step {m : MgrMsg} (hs : m.sound baseDrv s = true)
    (ht : tasksOnly → m.fromTask s = true) : Accounts tasksOnly (s.step baseDrv m) [] [] := by
  unfold MgrState.step
  rw [h.alive, if_neg Bool.false_ne_true]
  cases m with
  | register r => exact h.drvcallConfRegisterHandle
  | unregister accepted uuid =>
    refine h.drvcallConfUnregisterHandle fun hacc n hn => ?_
    rw [MgrMsg.sound, hacc, Bool.not_true, Bool.false_or, hn, Option.all_some, Bool.or_eq_true] at hs
    exact hs
  | drvOpen r =>
    refine h.driverOpenFunc (fun hp n hn => ?_) fun text htext => ?_
    · have := ht hp
      rw [MgrMsg.fromTask, hn, Option.all_some, not_eq_true'] at this
      exact this
    · rw [MgrMsg.sound, htext, Option.all_some] at hs
      exact hs
  | drvClose uuid pid fd => exact h.driverCloseFunc

theorem Accounts.caller (hn : n ∈ s.nodes) (hd : n.isDrv = false) :
    n.refCnt = n.fds.length + if n.registered then 1 else 0 := by
  have hcnt := h.refCnt n hn
  rw [h.refsTo_caller hn hd, count_nil, Bool.toNat] at hcnt
  cases hr : n.registered with
  | true | false =>
    rw [hr] at hcnt
    exact hcnt

/-- A driver is also counted for the descriptors it opened itself. -/
theorem Accounts.driver (hn : n ∈ s.nodes) (hd : n.isDrv = true) :
    n.refCnt = n.fds.length + s.refsTo n.addr := by
  have hcnt := h.refCnt n hn
  rw [h.unregistered n hn hd, count_nil] at hcnt
  exact hcnt

end

theorem Accounts.exact (h : Accounts True s [] []) : Exact s where
  noFault := h.alive
  fdCount := h.fdCount
  caller := fun _ hn hd => h.caller hn hd
  driver := fun n hn hd => by
    rw [h.driver hn hd, (h.passive trivial n hn hd).1, length_nil, Nat.zero_add]
  needed := fun n hn hd => by
    have hpos := h.counted n hn hd
    rw [h.caller hn hd] at hpos
    cases hr : n.registered with
    | true => exact .inl rfl
    | false =>
      rw [hr] at hpos
      exact .inr (ne_nil_of_length_pos hpos)
  freed := h.done
  once := h.whole
  targets := h.targets

/-- After every run in which no UNREGISTER finds a node that was never registered, no
open is left without a caller node and no driver opens a driver, the counts are exact
and caller nodes are freed when they are no longer needed. -/
theorem drvmgr_counts_exact (baseDrv : List Text) (drivers : List DriverEntry) (ms : List MgrMsg)
    (h : Along (step baseDrv)
      (fun s m => m.sound baseDrv s = true ∧ m.fromTask s = true) (initMgr drivers) ms) :
    Exact (runs (step baseDrv) (initMgr drivers) ms) :=
  (invariant_run (I := fun s => Accounts True s [] [])
    (fun _ _ hi hok => Accounts.step hi hok.1 fun _ => hok.2) (accounts_init drivers) h).exact

/-- Where drivers may open drivers as well, a driver is held by those who opened it and by what it
has opened itself, and every descriptor leads to a driver that is listed. -/
theorem drvmgr_counts_any_opener (baseDrv : List Text) (drivers : List DriverEntry) (ms : List MgrMsg)
    (h : Along (step baseDrv) (fun s m => m.sound baseDrv s = true) (initMgr drivers) ms) :
    let s := runs (step baseDrv) (initMgr drivers) ms
    s.fault = false ∧ (∀ n ∈ s.nodes, n.isDrv = true → n.refCnt = n.fds.length + s.refsTo n.addr) ∧
      ∀ n ∈ s.nodes, ∀ d ∈ n.fds, ∃ m ∈ s.nodes, m.addr = d.drv ∧ m.isDrv = true := by
  have hacc := invariant_run (I := fun s => Accounts False s [] [])
    (fun _ _ hi hok => Accounts.step hi hok False.elim) (accounts_init drivers) h
  exact ⟨hacc.alive, fun _ => hacc.driver, hacc.targets⟩

/-! ## Samples -/

def sampleUuid (n : Nat) : Uuid := ⟨n, 0, 0, List.replicate 8 0⟩

def sampleDrivers : List DriverEntry :=
  [{ uuid := sampleUuid 1, drvConf := ⟨['b'], [], []⟩ },
   { uuid := sampleUuid 2, drvConf := ⟨['d'], [], []⟩ }]

def sampleOpen (uuid : Nat) (name : Char) (handle : Int) : MgrMsg :=
  .drvOpen { uuid := sampleUuid uuid, pid := uuid, drvName := some [name], nodeMem := true
             fdMem := true, spawned := true, handle := handle }

/-- A registered caller opens both drivers, an unregistered one the base driver; one
of them closes and the other is unregistered. -/
def sampleRun : List MgrMsg :=
  [.register ⟨true, sampleUuid 5, [{ name := ['d'], perm := 1 }]⟩,
   sampleOpen 5 'd' 101, sampleOpen 5 'b' 102, sampleOpen 6 'b' 103, sampleOpen 6 'd' 104,
   .drvClose (sampleUuid 6) 6 103, .unregister true (sampleUuid 5)]

theorem drvmgr_counts_exact_sample :
    Exact (runs (step [['b']]) (initMgr sampleDrivers) sampleRun) :=
  drvmgr_counts_exact [['b']] sampleDrivers sampleRun (by decide)

/-- The driver `d` runs for a caller and opens the driver `b`. -/
theorem drvmgr_counts_driver_opens :
    let s := runs (step [['b']]) (initMgr sampleDrivers) (sampleRun.take 2 ++ [sampleOpen 2 'b' 103])
    (∃ n ∈ s.nodes, n.isDrv = true ∧ n.fds ≠ []) ∧
      ∀ n ∈ s.nodes, n.isDrv = true → n.refCnt = n.fds.length + s.refsTo n.addr :=
  ⟨by decide, (drvmgr_counts_any_opener _ _ _ (by decide)).2.1⟩

/-- A caller that never registered opens a base driver and is then unregistered: its
node stays listed with two references that nobody holds. -/
theorem drvmgr_counts_leak : ¬ Exact (runs (step [['b']]) (initMgr sampleDrivers)
      [sampleOpen 6 'b' 103, .unregister true (sampleUuid 6)]) := by
  intro h
  have hleft := h.needed
  revert hleft
  decide

end TeeOs.DrvMgr
