import TeeOs.PermSrv.Registry

/-!
# The lists of the registry

The circle of the entries and the circles of their tasks have no node in common, so an
operation on one of them leaves the others alone.
-/

namespace TeeOs.PermSrv

open TeeOs.Lib.Dlist List

/-- An entry with its tasks, each with its address. -/
structure Cell where
  addr : Nat
  config : ConfigInfo
  tasks : List (Nat × TaskConfig)

open Cell

namespace Cell

variable (c : Cell)

def uuid : TeeUuid := c.config.uuid
def taskAddrs : List Nat := c.tasks.map Prod.fst
def taskList : List TaskConfig := c.tasks.map Prod.snd
def nodes : List Addr := c.taskAddrs.map .task

/-- The circle of the tasks. -/
def ring : List Addr := .tasks c.addr :: c.nodes

/-- All nodes of an entry. -/
def footprint : List Addr := .head c.addr :: c.ring

end Cell

def heads (cells : List Cell) : List Addr := cells.map fun c => .head c.addr

/-- The entries are a list, the tasks of each are a list, and no task is in two lists. -/
structure Wired (h : Links Addr) (cells : List Cell) : Prop where
  configs : Linked h .configList (heads cells)
  lists : ∀ c ∈ cells, Linked h (.tasks c.addr) c.nodes
  apart : (cells.flatMap taskAddrs).Nodup

variable {h h' : Links Addr} {cells l₁ l₂ : List Cell} {c : Cell} {e t : Nat}

variable {y : Addr} {c' d : Cell} {task : TaskConfig}

@[simp] theorem configList_not_mem : .configList ∉ c.ring := by simp [ring, nodes]

@[simp] theorem head_not_mem : .head e ∉ c.ring := by simp [ring, nodes]

@[simp] theorem tasks_mem : .tasks e ∈ c.ring ↔ e = c.addr := by simp [ring, nodes]

@[simp] theorem task_mem : .task t ∈ c.ring ↔ t ∈ c.taskAddrs := by simp [ring, nodes]

theorem mem_heads : y ∈ heads cells ↔ ∃ c ∈ cells, .head c.addr = y := mem_map

/-- What is written elsewhere does not matter. -/
theorem Wired.frame (hw : Wired h cells)
    (hsame : ∀ y, (y = .configList ∨ ∃ c ∈ cells, y ∈ c.footprint) →
      h'.next y = h.next y ∧ h'.prev y = h.prev y) : Wired h' cells where
  configs := by
    apply hw.configs.frame
    intro y hy
    rcases mem_cons.mp hy with rfl | hy
    · exact hsame _ (.inl rfl)
    · obtain ⟨c, hc, rfl⟩ := mem_heads.mp hy
      exact hsame _ (.inr ⟨c, hc, mem_cons_self⟩)
  lists := by
    intro c hc
    apply (hw.lists c hc).frame
    intro y hy
    exact hsame y (.inr ⟨c, hc, mem_cons_of_mem _ hy⟩)
  apart := hw.apart

theorem Wired.addrs_nodup (hw : Wired h cells) : (cells.map addr).Nodup := by
  have hnodup := (nodup_cons.mp hw.configs.nodup).2
  have hmap : heads cells = (cells.map addr).map .head := by
    rw [map_map]
    rfl
  rw [hmap] at hnodup
  exact hnodup.of_map _

theorem mem_middle : c' ∈ l₁ ++ c :: l₂ ↔ c' = c ∨ c' ∈ l₁ ++ l₂ := by
  simp only [mem_append, mem_cons]
  exact or_left_comm

/-- The other entries have another address and other tasks. -/
structure Others (c : Cell) (l : List Cell) : Prop where
  addr : ∀ c' ∈ l, c'.addr ≠ c.addr
  tasks : ∀ c' ∈ l, ∀ t ∈ c'.taskAddrs, t ∉ c.taskAddrs

theorem apart_middle {f : Cell → List Nat} : ((l₁ ++ c :: l₂).flatMap f).Nodup ↔
    (f c).Nodup ∧ ((l₁ ++ l₂).flatMap f).Nodup ∧ ∀ d ∈ l₁ ++ l₂, ∀ t ∈ f d, t ∉ f c := by
  rw [(perm_middle.flatMap_right f).nodup_iff, flatMap_cons, nodup_append]
  refine and_congr_right fun _ => and_congr_right fun _ => ?_
  constructor
  · intro hdisj d hd t ht htc
    exact hdisj t htc t (mem_flatMap.mpr ⟨d, hd, ht⟩) rfl
  · rintro hdisj t ht t' ht' rfl
    obtain ⟨d, hd, htd⟩ := mem_flatMap.mp ht'
    exact hdisj d hd t htd ht

theorem Wired.others (hw : Wired h (l₁ ++ c :: l₂)) : Others c (l₁ ++ l₂) where
  addr := by
    have haddrs := hw.addrs_nodup
    rw [(perm_middle.map addr).nodup_iff, map_cons, nodup_cons] at haddrs
    intro c' hc' heq
    exact haddrs.1 (heq ▸ mem_map_of_mem hc')
  tasks := (apart_middle.mp hw.apart).2.2

theorem Wired.erase (hw : Wired h (l₁ ++ c :: l₂)) :
    ∀ d ∈ l₁ ++ l₂, Linked h (.tasks d.addr) d.nodes := fun d hd =>
  hw.lists d (mem_middle.mpr (.inr hd))

/-- A node of another entry is in no circle of this one. -/
theorem Others.not_mem (ho : Others c cells) (hc' : c' ∈ cells) (hy : y ∈ c'.ring) :
    y ∉ c.ring := by
  intro hmem
  cases y with
  | configList => exact configList_not_mem hy
  | head a => exact head_not_mem hy
  | tasks a => exact ho.addr c' hc' ((tasks_mem.mp hy).symm.trans (tasks_mem.mp hmem))
  | task t => exact ho.tasks c' hc' t (task_mem.mp hy) (task_mem.mp hmem)

theorem not_mem_ring (hy : y ∈ Addr.configList :: heads cells) (c : Cell) : y ∉ c.ring := by
  rcases mem_cons.mp hy with rfl | hy
  · exact configList_not_mem
  · obtain ⟨d, -, rfl⟩ := mem_heads.mp hy
    exact head_not_mem

/-! ## Tasks -/

section

variable (hw : Wired h (l₁ ++ c :: l₂))
include hw

/-- An operation on the task list of one entry. -/
theorem Wired.edit (haddr : c'.addr = c.addr) (hlist : Linked h' (.tasks c.addr) c'.nodes)
    (hsame : ∀ y, y ∉ c.ring → y ∉ c'.ring →
      h'.next y = h.next y ∧ h'.prev y = h.prev y)
    (hfresh : ∀ d ∈ l₁ ++ l₂, ∀ t ∈ d.taskAddrs, t ∉ c'.taskAddrs) : Wired h' (l₁ ++ c' :: l₂) := by
  have ho := hw.others
  have ho' : Others c' (l₁ ++ l₂) := ⟨fun d hd => haddr ▸ ho.addr d hd, hfresh⟩
  constructor
  · have hheads : heads (l₁ ++ c' :: l₂) = heads (l₁ ++ c :: l₂) := by
      simp only [heads, map_append, map_cons, haddr]
    rw [hheads]
    apply hw.configs.frame
    intro y hy
    exact hsame y (not_mem_ring hy c) (not_mem_ring hy c')
  · intro d hd
    rcases mem_middle.mp hd with rfl | hd
    · rw [haddr]
      exact hlist
    · apply (hw.erase d hd).frame
      intro y hy
      exact hsame y (ho.not_mem hd hy) (ho'.not_mem hd hy)
  · have hnodup : c'.taskAddrs.Nodup := (nodup_cons.mp hlist.nodup).2.of_map _
    exact apart_middle.mpr ⟨hnodup, (apart_middle.mp hw.apart).2.1, hfresh⟩

theorem Wired.addTask (task : TaskConfig) (hnew : ∀ d ∈ l₁ ++ c :: l₂, t ∉ d.taskAddrs) :
    Wired (h.insertTail (.task t) (.tasks c.addr))
      (l₁ ++ { c with tasks := c.tasks ++ [(t, task)] } :: l₂) := by
  have hlist := hw.lists c mem_append_cons_self
  have hnodes : nodes { c with tasks := c.tasks ++ [(t, task)] } = c.nodes ++ [.task t] := by
    simp only [nodes, taskAddrs, map_append, map_cons, map_nil]
  refine hw.edit rfl ?_ (fun y hy hy' => ?_) (fun d hd t' ht' hmem => ?_)
  · rw [hnodes]
    exact hlist.insertTail (task_mem.not.mpr (hnew c mem_append_cons_self))
  · apply hlist.insertTail_of_not_mem hy
    rintro rfl
    rw [ring, hnodes] at hy'
    exact hy' (mem_cons_of_mem _ mem_append_cons_self)
  · rw [taskAddrs, map_append, mem_append] at hmem
    rcases hmem with hmem | hmem
    · exact hw.others.tasks d hd t' ht' hmem
    · obtain rfl := mem_singleton.mp hmem
      exact hnew d (mem_middle.mpr (.inr hd)) ht'

theorem Wired.deleteTask {m₁ m₂ : List (Nat × TaskConfig)}
    (htasks : c.tasks = m₁ ++ (t, task) :: m₂) :
    Wired (h.delete (.task t)) (l₁ ++ { c with tasks := m₁ ++ m₂ } :: l₂) := by
  have hlist := hw.lists c mem_append_cons_self
  have hnodes : c.nodes = m₁.map (fun t => .task t.1) ++ .task t :: m₂.map (fun t => .task t.1) := by
    rw [nodes, taskAddrs, htasks, map_map, map_append, map_cons]
    rfl
  have hnodes' : nodes { c with tasks := m₁ ++ m₂ } =
      m₁.map (fun t => .task t.1) ++ m₂.map (fun t => .task t.1) := by
    rw [nodes, taskAddrs, map_map, map_append]
    rfl
  rw [hnodes] at hlist
  refine hw.edit rfl ?_ (fun y hy _ => ?_) (fun d hd t' ht' hmem => ?_)
  · rw [hnodes']
    exact hlist.delete
  · rw [ring, hnodes] at hy
    exact hlist.delete_of_not_mem hy
  · apply hw.others.tasks d hd t' ht'
    rw [taskAddrs, htasks]
    rw [taskAddrs, map_append] at hmem
    rw [map_append, map_cons]
    rcases mem_append.mp hmem with hmem | hmem
    · exact mem_append_left _ hmem
    · exact mem_append_right _ (mem_cons_of_mem _ hmem)

end

/-! ## Entries -/

/-- The nodes of other entries are outside the task list of this one. -/
theorem Others.outside (ho : Others c cells)
    (hy : y = .configList ∨ ∃ d ∈ cells, y ∈ d.footprint) : y ∉ c.ring := by
  rcases hy with rfl | ⟨d, hd, hy⟩
  · exact configList_not_mem
  · rcases mem_cons.mp hy with rfl | hy
    · exact head_not_mem
    · exact ho.not_mem hd hy

theorem Wired.deleteEntry (hw : Wired h (l₁ ++ c :: l₂)) :
    Wired (h.delete (.head c.addr)) (l₁ ++ l₂) ∧
      Linked (h.delete (.head c.addr)) (.tasks c.addr) c.nodes := by
  have hconfigs := hw.configs
  have hheads : heads (l₁ ++ c :: l₂) = heads l₁ ++ .head c.addr :: heads l₂ := by
    rw [heads, map_append, map_cons]
    rfl
  rw [hheads] at hconfigs
  have hsame : ∀ (d : Cell) (y : Addr), y ∈ d.ring →
      (h.delete (.head c.addr)).next y = h.next y ∧
        (h.delete (.head c.addr)).prev y = h.prev y := by
    intro d y hy
    apply hconfigs.delete_of_not_mem
    rw [← hheads]
    exact fun hmem => not_mem_ring hmem d hy
  refine ⟨⟨?_, ?_, ?_⟩, ?_⟩
  · rw [heads, map_append]
    exact hconfigs.delete
  · intro d hd
    exact (hw.erase d hd).frame (hsame d)
  · exact (apart_middle.mp hw.apart).2.1
  · exact (hw.lists c mem_append_cons_self).frame (hsame c)

theorem tasks_not_mem (hfresh : ∀ d ∈ cells, d.addr ≠ e) :
    ¬ (Addr.tasks e = .configList ∨ ∃ d ∈ cells, Addr.tasks e ∈ d.footprint) := by
  rintro (heq | ⟨d, hd, hmem⟩)
  · cases heq
  · rcases mem_cons.mp hmem with heq | hmem
    · cases heq
    · exact hfresh d hd (tasks_mem.mp hmem).symm

variable (hw : Wired h cells)
include hw

section

variable (hc : Linked h (.tasks c.addr) c.nodes)
include hc

theorem Wired.addEntry (ho : Others c cells) :
    Wired (h.insertTail (.head c.addr) .configList) (cells ++ [c]) := by
  have hnode : Addr.head c.addr ∉ Addr.configList :: heads cells := by
    intro hmem
    rcases mem_cons.mp hmem with heq | hmem
    · cases heq
    · obtain ⟨d, hd, heq⟩ := mem_heads.mp hmem
      exact ho.addr d hd (Addr.head.inj heq)
  have hsame : ∀ (d : Cell) (y : Addr), y ∈ d.ring →
      (h.insertTail (.head c.addr) .configList).next y = h.next y ∧
        (h.insertTail (.head c.addr) .configList).prev y = h.prev y := fun d y hy =>
    hw.configs.insertTail_of_not_mem (fun hmem => not_mem_ring hmem d hy)
      fun heq => head_not_mem (heq ▸ hy)
  constructor
  · rw [heads, map_append]
    exact hw.configs.insertTail hnode
  · intro d hd
    rcases mem_append.mp hd with hd | hd
    · exact (hw.lists d hd).frame (hsame d)
    · rw [mem_singleton.mp hd]
      exact hc.frame (hsame c)
  · apply apart_middle.mpr
    rw [append_nil]
    exact ⟨(nodup_cons.mp hc.nodup).2.of_map _, hw.apart, ho.tasks⟩

/-- A task list with tasks gets another head. -/
theorem Wired.replaceList (ho : Others c cells) (htasks : c.tasks ≠ []) (hnew : e ≠ c.addr)
    (hfresh : ∀ d ∈ cells, d.addr ≠ e) :
    Wired (h.replace (.tasks c.addr) (.tasks e)) cells ∧
      Linked (h.replace (.tasks c.addr) (.tasks e)) (.tasks e) c.nodes := by
  have hnode : .tasks e ∉ c.ring := tasks_mem.not.mpr hnew
  have hne : c.nodes ≠ [] := by
    rw [nodes, taskAddrs, map_map]
    exact fun hnil => htasks (map_eq_nil_iff.mp hnil)
  obtain ⟨x, l, hxl⟩ := exists_cons_of_ne_nil hne
  rw [ring, hxl] at hnode
  rw [hxl] at hc
  refine ⟨hw.frame fun y hy => ?_, hxl ▸ hc.replace hnode⟩
  have hout := ho.outside hy
  rw [ring, hxl] at hout
  apply hc.replace_of_not_mem hnode (fun hmem => hout (mem_cons_of_mem _ hmem))
  rintro rfl
  exact tasks_not_mem hfresh hy

/-- The first task is taken out of a list that belongs to no entry any more. -/
theorem Wired.deleteFirst {m : List (Nat × TaskConfig)} (ho : Others c cells)
    (htasks : c.tasks = (t, task) :: m) :
    Wired (h.delete (.task t)) cells ∧
      Linked (h.delete (.task t)) (.tasks c.addr) (nodes { c with tasks := m }) := by
  have hnodes : c.nodes = [] ++ .task t :: nodes { c with tasks := m } := by
    rw [nodes, taskAddrs, htasks]
    rfl
  rw [hnodes] at hc
  refine ⟨hw.frame fun y hy => ?_, hc.delete⟩
  have hout := ho.outside hy
  rw [ring, hnodes] at hout
  exact hc.delete_of_not_mem hout

end

theorem Wired.init (hfresh : ∀ d ∈ cells, d.addr ≠ e) : Wired (h.init (.tasks e)) cells := by
  apply hw.frame
  intro y hy
  apply init_of_ne
  rintro rfl
  exact tasks_not_mem hfresh hy

end TeeOs.PermSrv
