import TeeOs.DrvMgr.Accounts

/-!
# Descriptor entries

An entry of a caller's list stands for one reference to the caller and one to the
driver. Adding an entry spends two references of the message, taking one out hands
them back to the message.
-/

namespace TeeOs.DrvMgr

open TeeOs.Lib.Keyed List MgrState
open TeeOs.Lib.Tally

variable {tasksOnly : Prop} {s : MgrState} {debt debt' hold hold' : List Nat} {n m : TaskNode}
  {a c d i k : Nat} {f : TaskNode → TaskNode} {data : FdNode}

namespace Accounts

theorem getFdCount (h : Accounts tasksOnly s debt hold) (hn : n ∈ s.nodes)
    (hta : tasksOnly → n.isDrv = false) :
    (s.getFdCount n.addr = (s, false)) ∨ ((s.getFdCount n.addr).2 = true ∧
        Accounts tasksOnly (s.getFdCount n.addr).1 debt (n.addr :: hold)) := by
  rw [MgrState.getFdCount, h.node? hn]
  dsimp only
  split
  · exact Or.inl rfl
  refine Or.inr ⟨rfl, h.write_counts hn (fun _ => rfl) rfl rfl rfl (fun _ _ => rfl) rfl ?_
    (fun x hx => mem_count_cons_ne hx) h.held (h.counted n hn) ?_⟩
  · rw [count_cons_self]
    change n.fdCount + 1 + _ = _
    omega
  · intro hp hd
    rw [hta hp] at hd
    cases hd

theorem putFdCount (h : Accounts tasksOnly s debt (a :: hold)) (ha : a ∈ debt) :
    Accounts tasksOnly (s.putFdCount a) debt hold := by
  obtain ⟨n, hn, rfl⟩ := h.held a ha
  have hcnt := h.fdCount n hn
  rw [count_cons_self] at hcnt
  refine h.write_counts hn (fun _ => rfl) rfl rfl rfl (fun _ _ => rfl) rfl ?_
    (fun x hx => (mem_count_cons_ne hx).symm) h.held (h.counted n hn) ?_
  · rw [count_cons_self]
    change n.fdCount - 1 + _ = _
    omega
  · exact fun hp hd hmem => (h.passive hp n hn hd).2 (mem_cons_of_mem _ hmem)

theorem entries_append (n : TaskNode) (x : Nat) :
    { n with fds := n.fds ++ [data] }.entries x = n.entries x + [data.drv].count x := by
  simp only [TaskNode.entries, map_append, map_singleton, count_append]

/-- A new entry takes over the references to the caller and the driver and the place
in the caller's count. -/
theorem addFd (data : FdNode) (h : Accounts tasksOnly s (c :: data.drv :: debt) (c :: hold))
    (hm : m ∈ s.nodes) (hma : m.addr = data.drv) (hmd : m.isDrv = true) :
    Accounts tasksOnly (s.addFdToDrvcallNode data c) debt hold := by
  obtain ⟨n, hn, rfl⟩ := h.held c mem_cons_self
  refine h.write hn (fun _ => rfl) ⟨rfl, ?_, ?_, ?_, ?_, ?_, ?_, ?_, fun _ => rfl, ?_⟩
  · intro x hx
    rw [entries_append, mem_count_cons_ne hx, count_cons, count_cons, count_nil]
    omega
  · rw [entries_append, count_cons_self, count_cons, count_cons, count_nil]
    simp only [length_append, length_singleton]
    omega
  · rw [count_cons_self]
    simp only [length_append, length_singleton]
    omega
  · exact fun x hx => (mem_count_cons_ne hx).symm
  · intro e he
    rcases mem_append.mp he with he | he
    · exact h.targets n hn e he
    · rw [mem_singleton.mp he]
      exact ⟨m, hm, hma, hmd⟩
  · exact fun a ha => h.held a (mem_cons_of_mem _ (mem_cons_of_mem _ ha))
  · exact h.counted n hn
  · exact fun hp hd => absurd mem_cons_self (h.passive hp n hn hd).2

/-- An entry that is taken out leaves its references to the message. -/
theorem removeFd {fds : List FdNode} (h : Accounts tasksOnly s debt hold) (hn : n ∈ s.nodes)
    (hp : n.fds.Perm (data :: fds)) (hf : ∀ n, (f n).addr = n.addr)
    (hfn : f n = { n with fds := fds, fdCount := n.fdCount - 1 }) :
    Accounts tasksOnly (s.write n.addr f) (data.drv :: n.addr :: debt) hold := by
  have hlen : n.fds.length = fds.length + 1 := hp.length_eq
  have hentries : ∀ x, n.entries x = (f n).entries x + [data.drv].count x := fun x => by
    rw [hfn, TaskNode.entries, (hp.map FdNode.drv).count_eq, map_cons, TaskNode.entries,
      count_cons, count_cons, count_nil, Nat.zero_add]
  have hfd := h.fdCount n hn
  obtain ⟨t, ht, hta, htd⟩ := h.targets n hn data (hp.mem_iff.mpr mem_cons_self)
  refine h.write hn hf ⟨?_, ?_, ?_, ?_, fun _ _ => rfl, ?_, ?_, ?_, ?_, ?_⟩
  · rw [hfn]
    rfl
  · intro x hx
    rw [hentries x, count_cons, mem_count_cons_ne hx, count_cons, count_nil]
    omega
  · have hback : (data.drv :: n.addr :: debt).count n.addr =
        debt.count n.addr + 1 + [data.drv].count n.addr := by
      rw [count_cons, count_cons_self, count_singleton]
    rw [hentries, hback, hlen, hfn]
    dsimp only
    omega
  · rw [hfn, hlen]
    dsimp only
    omega
  · rw [hfn]
    exact fun e he => h.targets n hn e (hp.mem_iff.mpr (mem_cons_of_mem _ he))
  · intro a ha
    rcases mem_cons.mp ha with rfl | ha
    · exact ⟨t, ht, hta⟩
    · rcases mem_cons.mp ha with rfl | ha
      · exact ⟨n, hn, rfl⟩
      · exact h.held a ha
  · rw [hfn]
    exact h.counted n hn
  · rw [hfn]
    exact fun _ => rfl
  · intro hq hd
    rw [(h.passive hq n hn hd).1] at hlen
    cases hlen

/-! ## Closing -/

theorem markFd_drv (fd : Int) (l : List FdNode) :
    (markFd fd l).2.map FdNode.drv = l.map FdNode.drv := by
  induction l with
  | nil => rfl
  | cons data rest ih =>
    rw [markFd]
    split
    · split
      · rfl
      · rw [map_cons, ih, map_cons]
    · rw [map_cons, ih, map_cons]

theorem markFd_lt (fd : Int) (l : List FdNode) (h : (markFd fd l).1 = some i) : i < l.length := by
  induction l generalizing i with
  | nil => cases h
  | cons data rest ih =>
    rw [markFd] at h
    split at h
    · split at h
      · cases h
      dsimp only at h
      cases hlater : (markFd fd rest).1 with
      | none =>
        rw [hlater] at h
        cases h
        exact Nat.succ_pos _
      | some j =>
        rw [hlater] at h
        cases h
        exact Nat.succ_lt_succ (ih hlater)
    · obtain ⟨j, hj, rfl⟩ := Option.map_eq_some_iff.mp h
      exact Nat.succ_lt_succ (ih hj)

/-- Each entry that is not marked leaves one reference to the caller. -/
theorem closeOpenFds (l : List FdNode) : ∀ {s : MgrState} {debt : List Nat} {n : TaskNode}
    (before : List FdNode), Accounts tasksOnly s debt hold → n ∈ s.nodes → n.isDrv = false →
    n.fds = before ++ l → (∀ d ∈ before, d.closeFlag = true) →
    Accounts tasksOnly (closeOpenFds n.addr l s)
      (List.replicate (l.countP fun d => !d.closeFlag) n.addr ++ debt) hold := by
  induction l with
  | nil =>
    intro s debt n before h _ _ _ _
    exact h
  | cons data rest ih =>
    intro s debt n before h hn hd hfds hmarked
    rw [MgrState.closeOpenFds, countP_cons]
    cases hflag : data.closeFlag with
    | true =>
      refine ih (before ++ [data]) h hn hd (by rw [hfds, append_assoc]; rfl) ?_
      intro e he
      rcases mem_append.mp he with he | he
      · exact hmarked e he
      · rw [mem_singleton.mp he, hflag]
    | false =>
      have hdrop : dropOpenFd n =
          { n with fds := before ++ rest, fdCount := n.fdCount - 1 } := by
        have hnone : ∀ e ∈ before, ¬ (!e.closeFlag) = true := fun e he => by
          rw [hmarked e he]
          decide
        rw [dropOpenFd, hfds, eraseP_append_right _ hnone,
          eraseP_cons_of_pos (by rw [hflag]; rfl)]
      have hperm : n.fds.Perm (data :: (before ++ rest)) := hfds ▸ perm_middle
      have hout : Accounts tasksOnly (s.write n.addr dropOpenFd)
          (data.drv :: n.addr :: debt) hold := h.removeFd hn hperm (fun _ => rfl) hdrop
      obtain ⟨t, ht, hta, htd⟩ := h.targets n hn data (hperm.mem_iff.mpr mem_cons_self)
      -- the driver is another node, so the caller stays in the list
      have hne : n.addr ≠ data.drv := fun he => by
        rw [← h.unique hn ht (he.trans hta.symm), hd] at htd
        cases htd
      have hself := hout.mem_putNode_ne (k := 1) (h.mem_write_self hn) hne
      rw [hdrop] at hself
      have hrest := ih before hout.putNode_one hself hd rfl hmarked
      refine hrest.perm ?_
      exact perm_middle

variable (h : Accounts tasksOnly s debt hold)
include h

theorem closeGetFdNodeWithLock (hn : n ∈ s.nodes) (fd : Int) :
    Accounts tasksOnly (s.closeGetFdNodeWithLock n.addr fd).1 debt hold := by
  rw [MgrState.closeGetFdNodeWithLock, h.node? hn]
  exact h.write_other hn (fun _ => rfl) rfl (markFd_drv fd n.fds) rfl rfl rfl

/-- The entry that was marked is taken out, and its driver is given back. -/
theorem driverCloseFuncOps (hn : n ∈ s.nodes) (hi : i < n.fds.length) :
    Accounts tasksOnly (s.driverCloseFuncOps n.addr i) (n.addr :: debt) hold := by
  have hdata : (s.node? n.addr).bind (fun n => n.fds[i]?) = some n.fds[i] := by
    rw [h.node? hn, Option.bind_some, getElem?_eq_getElem hi]
  have hout : Accounts tasksOnly (s.delFdToDrvcallNode n.addr i) (n.fds[i].drv :: n.addr :: debt)
      hold := h.removeFd hn (getElem_cons_eraseIdx_perm hi).symm (fun _ => rfl) rfl
  rw [MgrState.driverCloseFuncOps, hdata]
  exact hout.putNode_one

theorem exceptionCloseHandle (hn : n ∈ s.nodes) (hd : n.isDrv = false) :
    Accounts tasksOnly (s.exceptionCloseHandle n.addr).1
      (List.replicate (s.exceptionCloseHandle n.addr).2 n.addr ++ debt) hold := by
  rw [MgrState.exceptionCloseHandle, h.node? hn]
  exact closeOpenFds n.fds [] h hn hd rfl nofun

end Accounts

end TeeOs.DrvMgr
