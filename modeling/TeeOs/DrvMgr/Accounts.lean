import TeeOs.DrvMgr.Manager
import TeeOs.Lib.Tally

/-!
# Who holds which reference

The count of a node is the sum of what refers to it: its registration, the entries of
its own list, the entries that point to it, and what the message in hand holds. That
last part is two lists of addresses, `debt` for references and `hold` for places taken
in a descriptor count. `Accounts` says that every count is right for these lists. A
message starts and ends with both empty.
-/

namespace TeeOs.DrvMgr

open TeeOs.Lib.Keyed List MgrState TaskNode
open TeeOs.Lib.Tally

/-- The entries of the node's list that point to `a`. -/
def TaskNode.entries (n : TaskNode) (a : Nat) : Nat := (n.fds.map FdNode.drv).count a

/-- The entries of all lists that point to `a`. -/
def MgrState.refsTo (s : MgrState) (a : Nat) : Nat := tally (fun n => n.entries a) s.nodes

/-- With `tasksOnly`, no driver has descriptors of its own. -/
structure Accounts (tasksOnly : Prop) (s : MgrState) (debt hold : List Nat) : Prop where
  alive : s.fault = false
  whole : (s.nodes.map TaskNode.addr ++ s.freed.map TaskNode.addr).Perm (List.range s.next)
  refCnt : ∀ n ∈ s.nodes,
    n.refCnt = n.fds.length + n.registered.toNat + s.refsTo n.addr + debt.count n.addr
  fdCount : ∀ n ∈ s.nodes, n.fdCount = n.fds.length + hold.count n.addr
  targets : ∀ n ∈ s.nodes, ∀ d ∈ n.fds, ∃ m ∈ s.nodes, m.addr = d.drv ∧ m.isDrv = true
  held : ∀ a ∈ debt, ∃ n ∈ s.nodes, n.addr = a
  counted : ∀ n ∈ s.nodes, n.isDrv = false → 0 < n.refCnt
  unregistered : ∀ n ∈ s.nodes, n.isDrv = true → n.registered = false
  passive : tasksOnly → ∀ n ∈ s.nodes, n.isDrv = true → n.fds = [] ∧ n.addr ∉ hold
  done : ∀ n ∈ s.freed, n.registered = false ∧ n.fds = []

variable {tasksOnly : Prop} {s : MgrState} {debt debt' hold hold' : List Nat} {n m : TaskNode}
  {a k : Nat} {f : TaskNode → TaskNode}

theorem node?_some (h : s.node? a = some n) : n ∈ s.nodes ∧ n.addr = a :=
  ⟨mem_of_find?_eq_some h, by simpa using find?_some h⟩

namespace Accounts

variable (h : Accounts tasksOnly s debt hold)
include h

theorem addrs : (s.nodes.map addr).Nodup := by
  have hall := h.whole.nodup_iff.mpr nodup_range
  exact (nodup_append.mp hall).1

section

variable (hn : n ∈ s.nodes)
include hn

theorem below : n.addr < s.next := by
  have hmem : n.addr ∈ s.nodes.map addr ++ s.freed.map addr :=
    mem_append_left _ (mem_map_of_mem hn)
  exact mem_range.mp (h.whole.subset hmem)

theorem node? : s.node? n.addr = some n := find?_of_mem h.addrs hn

theorem unique (hm : m ∈ s.nodes) (he : n.addr = m.addr) : n = m := by
  have hfound := h.node? hn
  rw [he, h.node? hm] at hfound
  exact (Option.some.inj hfound).symm

theorem write_eq : s.write n.addr f = { s with nodes := edit addr n.addr f s.nodes } := by
  rw [write, h.node? hn]

theorem mem_write_self : f n ∈ (s.write n.addr f).nodes := by
  rw [h.write_eq hn]
  exact mem_edit.mpr ⟨n, hn, (if_pos rfl).symm⟩

theorem mem_write_ne (hm : m ∈ s.nodes) (hne : m.addr ≠ n.addr) : m ∈ (s.write n.addr f).nodes := by
  rw [h.write_eq hn]
  exact mem_edit.mpr ⟨m, hm, (if_neg hne).symm⟩

end

/-- The lists matter up to their order. -/
theorem perm (hp : debt.Perm debt') : Accounts tasksOnly s debt' hold :=
  { h with
    refCnt := fun n hn => by rw [← hp.count_eq]; exact h.refCnt n hn
    held := fun a ha => h.held a (hp.mem_iff.mpr ha) }

end Accounts

/-- What a write that turns `n` into `n'` must satisfy for the lists to change from
`debt` and `hold` to `debt'` and `hold'`. -/
structure Booked (tasksOnly : Prop) (s : MgrState) (n n' : TaskNode)
    (debt hold debt' hold' : List Nat) : Prop where
  isDrv : n'.isDrv = n.isDrv
  others : ∀ x, x ≠ n.addr → n'.entries x + debt'.count x = n.entries x + debt.count x
  own : n'.refCnt + n.fds.length + n.registered.toNat + n.entries n.addr + debt.count n.addr =
    n.refCnt + n'.fds.length + n'.registered.toNat + n'.entries n.addr + debt'.count n.addr
  fdCount : n'.fdCount + n.fds.length + hold.count n.addr =
    n.fdCount + n'.fds.length + hold'.count n.addr
  holds : ∀ x, x ≠ n.addr → hold'.count x = hold.count x
  targets : ∀ d ∈ n'.fds, ∃ m ∈ s.nodes, m.addr = d.drv ∧ m.isDrv = true
  held : ∀ a ∈ debt', ∃ n ∈ s.nodes, n.addr = a
  counted : n.isDrv = false → 0 < n'.refCnt
  unregistered : n.isDrv = true → n'.registered = n.registered
  passive : tasksOnly → n.isDrv = true → n'.fds = n.fds ∧ n.addr ∉ hold'

namespace Accounts

section

variable (h : Accounts tasksOnly s debt hold)
include h

variable (hn : n ∈ s.nodes)
include hn

theorem refsTo_write (x : Nat) :
    (s.write n.addr f).refsTo x + n.entries x = s.refsTo x + (f n).entries x := by
  rw [h.write_eq hn]
  exact tally_edit h.addrs hn

/-- A node of the list after a write is the written one or an old one. -/
theorem mem_write (hm : m ∈ (s.write n.addr f).nodes) :
    m = f n ∨ m ∈ s.nodes ∧ m.addr ≠ n.addr := by
  rw [h.write_eq hn] at hm
  obtain ⟨b, hb, rfl⟩ := mem_edit.mp hm
  by_cases hk : b.addr = n.addr
  · rw [if_pos hk, h.unique hb hn hk]
    exact Or.inl rfl
  · rw [if_neg hk]
    exact Or.inr ⟨hb, hk⟩

/-- A node of the list is still there after a write, with its address and kind. -/
theorem exists_write (hf : ∀ n, (f n).addr = n.addr) (hdrv : (f n).isDrv = n.isDrv)
    (hm : m ∈ s.nodes) :
    ∃ m' ∈ (s.write n.addr f).nodes, m'.addr = m.addr ∧ m'.isDrv = m.isDrv := by
  by_cases hk : m.addr = n.addr
  · have hmn := h.unique hm hn hk
    subst hmn
    exact ⟨f m, h.mem_write_self hn, hf m, hdrv⟩
  · exact ⟨m, h.mem_write_ne hn hm hk, rfl, rfl⟩

theorem write (hf : ∀ n, (f n).addr = n.addr)
    (hb : Booked tasksOnly s n (f n) debt hold debt' hold') :
    Accounts tasksOnly (s.write n.addr f) debt' hold' := by
  have hrefs := fun x => h.refsTo_write (f := f) hn x
  have hmem : ∀ m ∈ (s.write n.addr f).nodes, m = f n ∨ m ∈ s.nodes ∧ m.addr ≠ n.addr :=
    fun m hm => h.mem_write hn hm
  have hkept := fun m => h.exists_write (m := m) hn hf hb.isDrv
  have hmap : (edit addr n.addr f s.nodes).map addr = s.nodes.map addr :=
    map_edit fun m _ _ => hf m
  have hwrite := h.write_eq (f := f) hn
  obtain ⟨alive, whole, refCnt, fdCount, targets, held, counted, unregistered, passive, done⟩ := h
  obtain ⟨bisDrv, others, own, bfdCount, holds, btargets, bheld, bcounted, bunregistered, bpassive⟩ := hb
  constructor
  case alive => rw [hwrite]; exact alive
  case whole =>
    rw [hwrite]
    rw [hmap]
    exact whole
  case done => rw [hwrite]; exact done
  all_goals clear whole hmap hwrite
  case passive => grind [count_pos_iff]
  case refCnt =>
    intro m hm
    have hm' := hrefs m.addr
    rcases hmem m hm with rfl | ⟨hms, hne⟩
    · grind
    · have := others m.addr hne
      have := refCnt m hms
      omega
  all_goals grind

end

theorem mem_count_cons_ne {x : Nat} (hx : x ≠ a) : (a :: debt).count x = debt.count x :=
  count_cons_of_ne (Ne.symm hx)

section

variable (h : Accounts tasksOnly s debt hold)
include h

variable (hn : n ∈ s.nodes)
include hn

section

variable (hf : ∀ n, (f n).addr = n.addr) (hdrv : (f n).isDrv = n.isDrv)
  (hfds : (f n).fds.map FdNode.drv = n.fds.map FdNode.drv)
  (hreg : (f n).registered = n.registered)
include hf hdrv hfds hreg

/-- A write that keeps the registration and the drivers of the entries. -/
theorem write_counts (hdebt : ∀ x, x ≠ n.addr → debt'.count x = debt.count x)
    (hown : (f n).refCnt + debt.count n.addr = n.refCnt + debt'.count n.addr)
    (hfd : (f n).fdCount + hold.count n.addr = n.fdCount + hold'.count n.addr)
    (hholds : ∀ x, x ≠ n.addr → hold'.count x = hold.count x)
    (hheld : ∀ a ∈ debt', ∃ n ∈ s.nodes, n.addr = a) (hcounted : n.isDrv = false → 0 < (f n).refCnt)
    (hpassive : tasksOnly → n.isDrv = true → n.addr ∉ hold') :
    Accounts tasksOnly (s.write n.addr f) debt' hold' := by
  have hentries : ∀ x, (f n).entries x = n.entries x := fun x => by
    rw [entries, hfds, entries]
  have hlen : (f n).fds.length = n.fds.length := by
    have := congrArg List.length hfds
    simpa only [length_map] using this
  refine h.write hn hf ⟨hdrv, ?_, ?_, ?_, hholds, ?_, hheld, hcounted, fun _ => hreg, ?_⟩
  · intro x hx
    rw [hentries x, hdebt x hx]
  · rw [hentries, hreg, hlen]
    omega
  · omega
  · intro d hd
    have hmem : d.drv ∈ n.fds.map FdNode.drv := hfds ▸ mem_map_of_mem hd
    obtain ⟨d', hd', he⟩ := mem_map.mp hmem
    rw [← he]
    exact h.targets n hn d' hd'
  · intro hp hd
    have hnil := (h.passive hp n hn hd).1
    rw [hnil, length_nil, length_eq_zero_iff] at hlen
    rw [hlen, hnil]
    exact ⟨rfl, hpassive hp hd⟩

/-- A write to fields that no count depends on. -/
theorem write_other (href : (f n).refCnt = n.refCnt) (hfd : (f n).fdCount = n.fdCount) :
    Accounts tasksOnly (s.write n.addr f) debt hold := by
  refine h.write_counts hn hf hdrv hfds hreg (fun _ _ => rfl) ?_ ?_ (fun _ _ => rfl) h.held ?_ ?_
  · rw [href]
  · rw [hfd]
  · intro hd
    rw [href]
    exact h.counted n hn hd
  · exact fun hp hd => (h.passive hp n hn hd).2

end

theorem incDrvNode : Accounts tasksOnly (s.write n.addr incDrvNode) (n.addr :: debt) hold := by
  refine h.write_counts hn (fun _ => rfl) rfl rfl rfl (fun x hx => mem_count_cons_ne hx) ?_ rfl
    (fun _ _ => rfl) ?_ (fun _ => Nat.succ_pos _) (fun hp hd => (h.passive hp n hn hd).2)
  · rw [count_cons_self]
    change n.refCnt + 1 + _ = _
    omega
  · intro a ha
    rcases mem_cons.mp ha with rfl | ha
    · exact ⟨n, hn, rfl⟩
    · exact h.held a ha

/-- Ending a registration leaves its reference to whoever ended it. -/
theorem setExit (hd : n.isDrv = false) (hr : n.registered = true) :
    Accounts tasksOnly (s.write n.addr setExit) (n.addr :: debt) hold := by
  have hta : ∀ {P : Prop}, n.isDrv = true → P := fun h' => by rw [hd] at h'; cases h'
  refine h.write hn (fun _ => rfl) ⟨rfl, ?_, ?_, rfl, fun _ _ => rfl, h.targets n hn, ?_, ?_, hta,
    fun _ => hta⟩
  · intro x hx
    rw [mem_count_cons_ne hx]
    rfl
  · rw [count_cons_self, hr]
    change n.refCnt + n.fds.length + 1 + n.entries n.addr + _ =
      n.refCnt + n.fds.length + 0 + n.entries n.addr + _
    omega
  · intro a ha
    rcases mem_cons.mp ha with rfl | ha
    · exact ⟨n, hn, rfl⟩
    · exact h.held a ha
  · exact fun _ => h.counted n hn hd

end

/-! ## Giving references back -/

theorem decNode_of_le (hk : k ≤ n.refCnt) :
    decNode k n = { n with refCnt := n.refCnt - k } := if_neg (Nat.not_lt.mpr hk)

theorem decNode_addr (n : TaskNode) : (decNode k n).addr = n.addr := by
  unfold decNode
  split <;> rfl

/-- The last reference of a caller node: nothing but the message refers to it. -/
theorem free (h : Accounts tasksOnly s (List.replicate k n.addr ++ debt) hold) (hn : n ∈ s.nodes)
    (hk : n.refCnt = k) (hd : n.isDrv = false) :
    Accounts tasksOnly
      { s with nodes := delete addr n.addr s.nodes
               freed := { n with refCnt := 0 } :: s.freed } debt hold := by
  have hcnt := h.refCnt n hn
  rw [count_append, count_replicate_self] at hcnt
  have hfds : n.fds = [] := length_eq_zero_iff.mp (by omega)
  have hentries : ∀ x, n.entries x = 0 := fun x => by
    rw [entries, hfds]
    rfl
  have hrefs : ∀ x, tally (fun m => m.entries x) (delete addr n.addr s.nodes) =
      s.refsTo x := fun x => by
    have := tally_delete (f := fun m => m.entries x) h.addrs hn
    rw [hentries x] at this
    exact this
  have hmem : ∀ m, m ∈ delete addr n.addr s.nodes ↔ m ∈ s.nodes ∧ m.addr ≠ n.addr :=
    fun m => mem_delete
  have hunique := fun m hm => h.unique (n := m) hm hn
  have hperm : (n.addr :: (delete addr n.addr s.nodes).map addr).Perm (s.nodes.map addr) := by
    exact (cons_delete_perm h.addrs hn).map _
  obtain ⟨alive, whole, refCnt, fdCount, targets, held, counted, unregistered, passive, done⟩ := h
  constructor
  case whole => exact (perm_middle.trans (hperm.append_right _)).trans whole
  case refCnt =>
    intro m hm
    obtain ⟨hms, hne⟩ := mem_delete.mp hm
    have hm' := refCnt m hms
    rw [count_append, count_replicate, if_neg (by simpa using hne.symm)] at hm'
    change _ = _ + _ + tally _ _ + _
    rw [hrefs m.addr, hm']
    omega
  all_goals clear whole hperm refCnt hrefs hentries
  case held =>
    intro a ha
    obtain ⟨t, ht, hta⟩ := held a (mem_append_right _ ha)
    grind
  all_goals grind

/-- Giving back references that the message holds. -/
theorem putNode (h : Accounts tasksOnly s (List.replicate k a ++ debt) hold) (hk : 0 < k) :
    Accounts tasksOnly (s.putNode a k) debt hold := by
  obtain ⟨n, hn, rfl⟩ := h.held a (mem_append_left _ (mem_replicate.mpr ⟨by omega, rfl⟩))
  have hcnt := h.refCnt n hn
  have hcount : (List.replicate k n.addr ++ debt).count n.addr = k + debt.count n.addr := by
    rw [count_append, count_replicate_self]
  have hdec := decNode_of_le (n := n) (k := k) (by omega)
  rw [putNode, h.node? hn]
  dsimp only
  split
  · rename_i hz
    rw [Bool.and_eq_true, decide_eq_true_eq, Bool.not_eq_true', hdec] at hz
    have hle : n.refCnt = k := by
      have := hz.1
      dsimp only at this
      omega
    rw [hdec]
    have hzero : n.refCnt - k = 0 := by omega
    rw [hzero]
    exact h.free hn hle hz.2
  · rename_i hz
    refine h.write_counts hn decNode_addr ?_ ?_ ?_ ?_ ?_ ?_ (fun _ _ => rfl) ?_ ?_ ?_
    · rw [hdec]
      rfl
    · rw [hdec]
    · rw [hdec]
    · intro x hx
      rw [count_append, count_replicate, if_neg (by simpa using hx.symm), Nat.zero_add]
    · rw [hdec, hcount]
      dsimp only
      omega
    · rw [hdec]
    · exact fun a ha => h.held a (mem_append_right _ ha)
    · intro hd
      rw [hd, Bool.not_false, Bool.and_true, decide_eq_true_eq] at hz
      exact Nat.pos_of_ne_zero hz
    · exact fun hp hd => (h.passive hp n hn hd).2

theorem putNode_one (h : Accounts tasksOnly s (a :: debt) hold) :
    Accounts tasksOnly (s.putNode a 1) debt hold := h.putNode Nat.one_pos

theorem mem_putNode_ne (h : Accounts tasksOnly s debt hold) (hm : m ∈ s.nodes)
    (hne : m.addr ≠ a) : m ∈ (s.putNode a k).nodes := by
  rw [MgrState.putNode]
  cases hfound : s.node? a with
  | none => exact hm
  | some n =>
    obtain ⟨hn, rfl⟩ := node?_some hfound
    dsimp only
    split
    · exact mem_delete.mpr ⟨hm, hne⟩
    · exact h.mem_write_ne hn hm hne

end Accounts

end TeeOs.DrvMgr
