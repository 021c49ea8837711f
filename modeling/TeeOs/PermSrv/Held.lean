import TeeOs.PermSrv.Wiring

/-!
# What the registry holds

The cells of a registry are its entries with their contents and addresses. Each
operation reads the cells as a search in a list would, and leaves a registry that holds
the cells it should; installing a configuration over an entry without tasks is the one
exception.
-/

namespace TeeOs.PermSrv

open TeeOs.Lib.Dlist List Function Nat Cell

/-- The contents of an entry and its tasks are in memory. -/
structure Stored (s : Registry) (c : Cell) : Prop where
  entry : s.entry c.addr = some c.config
  task : ∀ t ∈ c.tasks, s.task t.1 = some t.2
  addr_lt : c.addr < s.allocs
  task_lt : ∀ t ∈ c.taskAddrs, t < s.allocs

/-- The registry holds the cells, and nothing else is listed. -/
structure Held (s : Registry) (cells : List Cell) : Prop where
  wired : Wired s.links cells
  stored : ∀ c ∈ cells, Stored s c
  uuids : (cells.map uuid).Nodup

variable {s s' : Registry} {cells l₁ l₂ : List Cell} {c : Cell} {u : TeeUuid} {taskid : Nat}
  {task : TaskConfig}

theorem length_le_of_nodup {l : List Nat} {n : Nat} (hn : l.Nodup) (h : ∀ x ∈ l, x < n) :
    l.length ≤ n := by
  have hsub : l ⊆ List.range n := fun x hx => mem_range.mpr (h x hx)
  have hle := (subperm_of_subset hn hsub).length_le
  rwa [length_range] at hle

theorem Held.length_lt (hh : Held s cells) : cells.length < s.fuel := by
  have hle := length_le_of_nodup hh.wired.addrs_nodup fun a ha => by
    obtain ⟨c, hc, rfl⟩ := mem_map.mp ha
    exact (hh.stored c hc).addr_lt
  rw [length_map] at hle
  exact lt_succ_of_le hle

theorem Held.heads_length_lt (hh : Held s cells) : (heads cells).length < s.fuel := by
  rw [heads, length_map]
  exact hh.length_lt

theorem Held.tasks_length_lt (hh : Held s cells) (hc : c ∈ cells) : c.nodes.length < s.fuel := by
  have hnodup := (nodup_cons.mp (hh.wired.lists c hc).nodup).2
  have hle := length_le_of_nodup hnodup.of_map (hh.stored c hc).task_lt
  rw [nodes, length_map]
  exact lt_succ_of_le hle

/-! ## Reading -/

/-- The entry of a TA. -/
def cellOf (cells : List Cell) (u : TeeUuid) : Option Cell := cells.find? fun c => c.uuid = u

theorem find?_reverse_of_nodup (hn : (cells.map uuid).Nodup) :
    (cells.reverse.find? fun c => c.uuid = u) = cellOf cells u := by
  cases hc : cellOf cells u with
  | none => exact find?_eq_none.mpr fun c hmem => find?_eq_none.mp hc c (mem_reverse.mp hmem)
  | some c =>
    have hu := find?_some hc
    obtain rfl := of_decide_eq_true hu
    have hrev : (cells.reverse.map uuid).Nodup := by rwa [map_reverse, nodup_reverse]
    exact Lib.Keyed.find?_of_mem hrev (mem_reverse.mpr (mem_of_find?_eq_some hc))

section

variable (hh : Held s cells)
include hh

variable (u : TeeUuid)

theorem Held.entryMatches (hc : c ∈ cells) :
    s.entryMatches u (.head c.addr) = some (decide (c.uuid = u)) := by
  rw [Registry.entryMatches, (hh.stored c hc).entry]
  rfl

theorem Held.taskMatches (hc : c ∈ cells) {t : Nat × TaskConfig} (ht : t ∈ c.tasks) :
    s.taskMatches taskid (.task t.1) = some (decide (t.2.taskid = taskid)) := by
  rw [Registry.taskMatches, (hh.stored c hc).task t ht]
  rfl

theorem Held.entryMatches_heads : ∀ y ∈ heads cells,
    s.entryMatches u y = some ((s.entryMatches u y).getD false) := by
  intro y hy
  obtain ⟨c, hc, rfl⟩ := mem_heads.mp hy
  rw [hh.entryMatches u hc]
  rfl

theorem Held.getConfigEntry : s.getConfigEntry u = some ((cellOf cells u).map addr) := by
  have hfind : (heads cells).reverse.find? (fun y => (s.entryMatches u y).getD false) =
      (cellOf cells u).map fun c => .head c.addr := by
    rw [heads, ← map_reverse, find?_map, ← find?_reverse_of_nodup hh.uuids]
    congr 1
    apply find?_congr
    intro c hc
    simp only [comp_apply, hh.entryMatches u (mem_reverse.mp hc), Option.getD_some]
  rw [Registry.getConfigEntry, hh.wired.configs.search_prev (hh.entryMatches_heads u) hh.heads_length_lt, hfind]
  cases cellOf cells u with
  | none => rfl
  | some c => rfl

/-- The search from the front, as a release makes it. -/
theorem Held.search_front :
    Links.search s.links.next (s.entryMatches u) .configList s.fuel (s.links.next .configList) =
      some ((cellOf cells u).map fun c => .head c.addr) := by
  rw [hh.wired.configs.search_next (hh.entryMatches_heads u) hh.heads_length_lt, heads, find?_map, cellOf]
  congr 2
  apply find?_congr
  intro c hc
  simp only [comp_apply, hh.entryMatches u hc, Option.getD_some]

theorem Held.findTask (hc : c ∈ cells) (taskid : Nat) : s.findTask c.addr taskid =
      some ((c.tasks.find? fun t => t.2.taskid = taskid).map Prod.fst) := by
  have hmatch : ∀ y ∈ c.nodes,
      s.taskMatches taskid y = some ((s.taskMatches taskid y).getD false) := by
    intro y hy
    rw [nodes, taskAddrs, map_map] at hy
    obtain ⟨t, ht, rfl⟩ := mem_map.mp hy
    rw [comp_apply, hh.taskMatches hc ht]
    rfl
  have hfind : c.nodes.find? (fun y => (s.taskMatches taskid y).getD false) =
      (c.tasks.find? fun t => t.2.taskid = taskid).map fun t => .task t.1 := by
    rw [nodes, taskAddrs, map_map, find?_map]
    congr 1
    apply find?_congr
    intro t ht
    simp only [comp_apply, hh.taskMatches hc ht, Option.getD_some]
  rw [Registry.findTask, (hh.wired.lists c hc).search_next hmatch (hh.tasks_length_lt hc), hfind]
  cases c.tasks.find? fun t => t.2.taskid = taskid with
  | none => rfl
  | some t => rfl

end

def Cell.hasTask (c : Cell) (taskid : Nat) : Bool := c.taskList.any fun t => t.taskid = taskid

theorem Cell.hasTask_iff : c.hasTask taskid = true ↔ ∃ t ∈ c.taskList, t.taskid = taskid := by
  simp only [hasTask, any_eq_true, decide_eq_true_eq]

/-- The lookup by task finds the first entry that has the task. -/
theorem Held.permSrvGetConfigByTaskid (hh : Held s cells) (taskid : Nat) :
    s.permSrvGetConfigByTaskid taskid =
      some ((cells.find? fun c => c.hasTask taskid).map config) := by
  have hloop : ∀ (l : List Cell) (fuel : Nat) (a : Addr), (∀ c ∈ l, c ∈ cells) →
      Chain s.links a (heads l) .configList → l.length < fuel →
      s.lookupLoop taskid fuel (s.links.next a) =
        some ((l.find? fun c => c.hasTask taskid).map config) := by
    intro l
    induction l with
    | nil =>
      intro fuel a _ hchain hfuel
      obtain _ | fuel := fuel
      · omega
      rw [hchain.1]
      rfl
    | cons c l ih =>
      intro fuel a hsub hchain hfuel
      rw [length_cons] at hfuel
      obtain _ | fuel := fuel
      · omega
      have hc := hsub c mem_cons_self
      have hrest := ih fuel (.head c.addr) (fun d hd => hsub d (mem_cons_of_mem c hd))
        hchain.2.2 (by omega)
      rw [hchain.1, Registry.lookupLoop, (hh.stored c hc).entry, hh.findTask hc]
      cases hfind : c.tasks.find? fun t => t.2.taskid = taskid with
      | none =>
        have hno : ¬ c.hasTask taskid = true := by
          intro hany
          obtain ⟨t, ht, heq⟩ := hasTask_iff.mp hany
          obtain ⟨p, hp, rfl⟩ := mem_map.mp ht
          exact find?_eq_none.mp hfind p hp (decide_eq_true heq)
        rw [find?_cons_of_neg (p := fun c : Cell => c.hasTask taskid) hno]
        exact hrest
      | some t =>
        have ht := find?_some hfind
        have hyes : c.hasTask taskid = true := hasTask_iff.mpr
          ⟨t.2, mem_map_of_mem (mem_of_find?_eq_some hfind), of_decide_eq_true ht⟩
        rw [find?_cons_of_pos (p := fun c : Cell => c.hasTask taskid) hyes]
        rfl
  exact hloop cells s.fuel .configList (fun _ hc => hc) hh.wired.configs.chain hh.length_lt

/-! ## Writing -/

theorem Stored.frame (hs : Stored s c) (hentry : s'.entry c.addr = s.entry c.addr)
    (htask : ∀ t ∈ c.taskAddrs, s'.task t = s.task t) (hallocs : s.allocs ≤ s'.allocs) :
    Stored s' c where
  entry := hentry.trans hs.entry
  task := fun t ht => (htask t.1 (mem_map_of_mem ht)).trans (hs.task t ht)
  addr_lt := lt_of_lt_of_le hs.addr_lt hallocs
  task_lt := fun t ht => lt_of_lt_of_le (hs.task_lt t ht) hallocs

theorem cellOf_split (hc : cellOf cells u = some c) :
    c.uuid = u ∧ ∃ l₁ l₂, cells = l₁ ++ c :: l₂ := by
  have huuid := find?_some hc
  exact ⟨of_decide_eq_true huuid, append_of_mem (mem_of_find?_eq_some hc)⟩

/-- Addresses that were not given out are not in use. -/
theorem Held.fresh (hh : Held s cells) : (∀ c ∈ cells, c.addr ≠ s.allocs) ∧
    ∀ c ∈ cells, s.allocs ∉ c.taskAddrs :=
  ⟨fun c hc => (hh.stored c hc).addr_lt.ne, fun c hc ht => ((hh.stored c hc).task_lt _ ht).false⟩

/-- An entry that is in memory with its task list is listed. -/
theorem Held.addEntry (hh : Held s cells) (hc : Linked s.links (.tasks c.addr) c.nodes)
    (ho : Others c cells) (hs : Stored s c) (hu : cellOf cells c.uuid = none) :
    Held { s with links := s.links.insertTail (.head c.addr) .configList } (cells ++ [c]) where
  wired := hh.wired.addEntry hc ho
  stored := by
    intro d hd
    rcases mem_append.mp hd with hd | hd
    · exact { hh.stored d hd with }
    · rw [mem_singleton.mp hd]
      exact { hs with }
  uuids := by
    rw [map_append, map_singleton, ← concat_eq_append]
    apply List.Nodup.concat
    · intro hmem
      obtain ⟨d, hd, heq⟩ := mem_map.mp hmem
      exact find?_eq_none.mp hu d hd (decide_eq_true heq)
    · exact hh.uuids

/-- An entry that was taken out of the list: its tasks are still a list. -/
structure Detached (s : Registry) (cells : List Cell) (c : Cell) : Prop where
  held : Held s cells
  list : Linked s.links (.tasks c.addr) c.nodes
  others : Others c cells
  stored : Stored s c

theorem Detached.freeEntry (hd : Detached s cells c) : Held (s.freeEntry c.addr) cells where
  wired := hd.held.wired
  stored := fun d hmem => (hd.held.stored d hmem).frame
    (update_of_ne (hd.others.addr d hmem) ..) (fun _ _ => rfl) (le_refl _)
  uuids := hd.held.uuids

/-- The task list goes over to a new entry, which is listed. -/
theorem Detached.moveList (hd : Detached s cells c) {new : Nat} {config : ConfigInfo}
    (htasks : c.tasks ≠ []) (hnew : new ≠ c.addr) (hfresh : ∀ d ∈ cells, d.addr ≠ new)
    (hentry : s.entry new = some config) (hlt : new < s.allocs)
    (hu : cellOf cells config.uuid = none) :
    Held { s.freeEntry c.addr with
        links := (s.links.replace (.tasks c.addr) (.tasks new)).insertTail (.head new) .configList }
      (cells ++ [⟨new, config, c.tasks⟩]) := by
  obtain ⟨hwired, hlist⟩ := hd.held.wired.replaceList hd.list hd.others htasks hnew hfresh
  have hfreed := hd.freeEntry
  have hheld : Held { s.freeEntry c.addr with
      links := s.links.replace (.tasks c.addr) (.tasks new) } cells :=
    ⟨hwired, fun d hmem => { hfreed.stored d hmem with },
      hfreed.uuids⟩
  refine Held.addEntry (c := ⟨new, config, c.tasks⟩) hheld hlist ⟨hfresh, hd.others.tasks⟩ ?_ hu
  exact ⟨(update_of_ne hnew ..).trans hentry, hd.stored.task, hlt, hd.stored.task_lt⟩

theorem cellOf_eq_none : cellOf cells u = none ↔ ∀ c ∈ cells, c.uuid ≠ u := by
  simp only [cellOf, find?_eq_none, decide_eq_true_eq, ne_eq]

section

variable (hh : Held s (l₁ ++ c :: l₂))
include hh

theorem Held.addTask (task : TaskConfig) :
    Held (s.addTask c.addr task)
      (l₁ ++ { c with tasks := c.tasks ++ [(s.allocs, task)] } :: l₂) where
  wired := hh.wired.addTask task hh.fresh.2
  stored := by
    have hold : ∀ d ∈ l₁ ++ c :: l₂, Stored (s.addTask c.addr task) d := by
      intro d hd
      refine (hh.stored d hd).frame rfl (fun t ht => ?_) (le_succ _)
      exact update_of_ne (fun he : t = s.allocs => hh.fresh.2 d hd (he ▸ ht)) ..
    intro d hd
    rcases mem_middle.mp hd with rfl | hd
    · have hc := hold c mem_append_cons_self
      refine ⟨hc.entry, fun t ht => ?_, hc.addr_lt, fun t ht => ?_⟩
      · rcases mem_append.mp ht with ht | ht
        · exact hc.task t ht
        · rw [mem_singleton.mp ht]
          exact update_self ..
      · rw [taskAddrs, map_append, mem_append] at ht
        rcases ht with ht | ht
        · exact hc.task_lt t ht
        · rw [mem_singleton.mp ht]
          exact lt_succ_self _
    · exact hold d (mem_middle.mpr (Or.inr hd))
  uuids := by
    have hu := hh.uuids
    rw [map_append, map_cons] at hu ⊢
    exact hu

theorem Held.deleteTask {m₁ m₂ : List (Nat × TaskConfig)} {t : Nat}
    (htasks : c.tasks = m₁ ++ (t, task) :: m₂) :
    Held (s.deleteTask t) (l₁ ++ { c with tasks := m₁ ++ m₂ } :: l₂) where
  wired := hh.wired.deleteTask htasks
  stored := by
    have hc := hh.stored c mem_append_cons_self
    have hself : t ∈ c.taskAddrs := by
      rw [taskAddrs, htasks, map_append, map_cons]
      exact mem_append_right _ mem_cons_self
    have hsub : ∀ p ∈ m₁ ++ m₂, p ∈ c.tasks ∧ p.1 ≠ t := by
      have hnodup := (apart_middle.mp hh.wired.apart).1
      rw [taskAddrs, htasks, (perm_middle.map Prod.fst).nodup_iff, map_cons,
        nodup_cons] at hnodup
      intro p hp
      rw [htasks]
      exact ⟨perm_middle.mem_iff.mpr (mem_cons_of_mem _ hp),
        fun he => hnodup.1 (mem_map.mpr ⟨p, hp, he⟩)⟩
    intro d hd
    rcases mem_middle.mp hd with rfl | hd
    · refine ⟨hc.entry, fun p hp => ?_, hc.addr_lt, fun a ha => ?_⟩
      · exact (update_of_ne (hsub p hp).2 ..).trans (hc.task p (hsub p hp).1)
      · obtain ⟨p, hp, rfl⟩ := mem_map.mp ha
        exact hc.task_lt p.1 (mem_map_of_mem (hsub p hp).1)
    · refine (hh.stored d (mem_middle.mpr (Or.inr hd))).frame rfl (fun a ha => ?_) (le_refl _)
      have hne : a ≠ t := fun he => hh.wired.others.tasks d hd a ha (he ▸ hself)
      exact update_of_ne hne ..
  uuids := by
    have hu := hh.uuids
    rw [map_append, map_cons] at hu ⊢
    exact hu

theorem Held.deleteEntry :
    Detached { s with links := s.links.delete (.head c.addr) } (l₁ ++ l₂) c where
  held :=
    { wired := hh.wired.deleteEntry.1
      stored := fun d hd => { hh.stored d (mem_middle.mpr (Or.inr hd)) with }
      uuids := by
        have hu := hh.uuids
        rw [(perm_middle.map uuid).nodup_iff, map_cons, nodup_cons] at hu
        exact hu.2 }
  list := hh.wired.deleteEntry.2
  others := hh.wired.others
  stored := { hh.stored c mem_append_cons_self with }

theorem Held.others_uuid : ∀ d ∈ l₁ ++ l₂, d.uuid ≠ c.uuid := by
  have hu := hh.uuids
  rw [(perm_middle.map uuid).nodup_iff, map_cons, nodup_cons] at hu
  intro d hd he
  exact hu.1 (he ▸ mem_map_of_mem hd)

end

theorem Detached.deleteFirst {t : Nat} {m : List (Nat × TaskConfig)} (hd : Detached s cells c)
    (htasks : c.tasks = (t, task) :: m) :
    Detached (s.deleteTask t) cells { c with tasks := m } := by
  obtain ⟨hwired, hlist⟩ := hd.held.wired.deleteFirst hd.list hd.others htasks
  have haddrs : c.taskAddrs = t :: m.map Prod.fst := by rw [taskAddrs, htasks]; rfl
  have hnodup := (nodup_cons.mp hd.list.nodup).2.of_map
  rw [haddrs, nodup_cons] at hnodup
  refine ⟨⟨hwired, fun d hmem => ?_, hd.held.uuids⟩, hlist, ⟨hd.others.addr, ?_⟩, ?_⟩
  · refine (hd.held.stored d hmem).frame rfl (fun a ha => ?_) (le_refl _)
    have hne : a ≠ t := by
      rintro rfl
      exact hd.others.tasks d hmem a ha (haddrs ▸ mem_cons_self)
    exact update_of_ne hne ..
  · intro d hmem a ha hin
    exact hd.others.tasks d hmem a ha (haddrs ▸ mem_cons_of_mem t hin)
  · refine ⟨hd.stored.entry, fun p hp => ?_, hd.stored.addr_lt, fun a ha => ?_⟩
    · have hne : p.1 ≠ t := fun he => hnodup.1 (he ▸ mem_map_of_mem hp)
      exact (update_of_ne hne ..).trans (hd.stored.task p (htasks ▸ mem_cons_of_mem _ hp))
    · exact hd.stored.task_lt a (haddrs ▸ mem_cons_of_mem t ha)

/-- The tasks of the entry are freed one by one. -/
theorem Detached.taClearList (m : List (Nat × TaskConfig)) :
    ∀ {s : Registry} {c : Cell} {fuel : Nat}, c.tasks = m → Detached s cells c → m.length < fuel →
      ∃ s', Registry.taClearList c.addr fuel (s.links.next (.tasks c.addr)) s = some s' ∧
        Detached s' cells { c with tasks := [] } := by
  induction m with
  | nil =>
    intro s c fuel htasks hd hfuel
    obtain _ | fuel := fuel
    · omega
    obtain ⟨addr, config, tasks⟩ := c
    subst htasks
    refine ⟨s, ?_, hd⟩
    rw [hd.list.chain.1]
    exact if_pos rfl
  | cons p m ih =>
    intro s c fuel htasks hd hfuel
    obtain ⟨t, task⟩ := p
    rw [length_cons] at hfuel
    obtain _ | fuel := fuel
    · omega
    have hnodes : c.nodes = .task t :: nodes { c with tasks := m } := by
      rw [nodes, taskAddrs, htasks]
      rfl
    have hlist := hd.list
    rw [hnodes] at hlist
    have htask : s.task t = some task := hd.stored.task (t, task) (htasks ▸ mem_cons_self)
    have hnext := hlist.delete_next
    have hfuel' : m.length < fuel := by omega
    obtain ⟨s', hclear, hdone⟩ := ih rfl (hd.deleteFirst htasks) hfuel'
    refine ⟨s', ?_, hdone⟩
    rw [hlist.chain.1, Registry.taClearList, if_neg (by simp)]
    simp only [htask]
    rw [← hnext]
    exact hclear

/-- The entry of the TA, if there is one, has tasks. -/
def Registry.Replaceable (s : Registry) (u : TeeUuid) : Prop :=
  ∀ e, s.getConfigEntry u = some (some e) → s.links.next (.tasks e) ≠ .tasks e

/-- What installing a configuration does: it makes an entry without tasks, or one that
takes the tasks of the old one over. -/
inductive Installed (s : Registry) (cells : List Cell) (config : ConfigInfo) : Prop
  | fresh (s' : Registry) (absent : cellOf cells config.uuid = none)
      (run : s.permSrvUpdateConfigBySameUuid config = some s')
      (held : Held s' (cells ++ [⟨s.allocs, config, []⟩]))
  | replaced (s' : Registry) (c : Cell) (l₁ l₂ : List Cell) (split : cells = l₁ ++ c :: l₂)
      (uuid : c.uuid = config.uuid) (run : s.permSrvUpdateConfigBySameUuid config = some s')
      (held : Held s' (l₁ ++ l₂ ++ [⟨s.allocs, config, c.tasks⟩]))

/-- The entry without its addresses. -/
def Cell.toEntry (c : Cell) : ConfigEntry := ⟨c.config, c.taskList⟩

theorem getConfigEntry_toEntry (hn : (cells.map uuid).Nodup) :
    getConfigEntry (cells.map toEntry) u = (cellOf cells u).map toEntry := by
  rw [getConfigEntry, ← map_reverse, find?_map, ← find?_reverse_of_nodup hn]
  rfl

variable (hh : Held s cells)
include hh

variable (config : ConfigInfo)

theorem Held.newEntry : Held (s.newEntry config) cells where
  wired := hh.wired
  stored := fun c hc => (hh.stored c hc).frame (update_of_ne (hh.fresh.1 c hc) ..)
    (fun _ _ => rfl) (le_succ _)
  uuids := hh.uuids

theorem Held.init {e : Nat} (hfresh : ∀ d ∈ cells, d.addr ≠ e) :
    Held { s with links := s.links.init (.tasks e) } cells where
  wired := hh.wired.init hfresh
  stored := fun c hc => { hh.stored c hc with }
  uuids := hh.uuids

theorem Held.addEmpty (hu : cellOf cells config.uuid = none) : Held { s.newEntry config with
        links := ((s.newEntry config).links.init (.tasks s.allocs)).insertTail (.head s.allocs)
          .configList }
      (cells ++ [⟨s.allocs, config, []⟩]) := by
  have hmade := (hh.newEntry config).init hh.fresh.1
  refine Held.addEntry (c := ⟨s.allocs, config, []⟩) hmade (linked_init _ _)
    ⟨hh.fresh.1, fun _ _ _ _ => not_mem_nil⟩ ?_ hu
  exact ⟨update_self .., nofun, lt_succ_self _, nofun⟩

theorem Held.install (hfits : s.Replaceable config.uuid) : Installed s cells config := by
  have hmade := hh.newEntry config
  have hentry := hmade.getConfigEntry config.uuid
  cases hcell : cellOf cells config.uuid with
  | none =>
    refine .fresh _ hcell ?_ (hh.addEmpty config hcell)
    rw [hcell] at hentry
    simp only [Registry.permSrvUpdateConfigBySameUuid, hentry, Option.map_none]
  | some c =>
    rw [hcell] at hentry
    obtain ⟨huuid, l₁, l₂, rfl⟩ := cellOf_split hcell
    have hc : c ∈ l₁ ++ c :: l₂ := mem_append_cons_self
    have hne : c.tasks ≠ [] := by
      intro hnil
      have hold : s.getConfigEntry config.uuid = some (some c.addr) := by
        rw [hh.getConfigEntry, hcell]
        rfl
      have hlist := hh.wired.lists c hc
      rw [nodes, taskAddrs, hnil] at hlist
      exact hfits c.addr hold hlist.chain.1
    have hfree : cellOf (l₁ ++ l₂) config.uuid = none := by
      apply cellOf_eq_none.mpr
      rw [← huuid]
      exact hh.others_uuid
    refine .replaced _ c l₁ l₂ rfl huuid ?_ (hmade.deleteEntry.moveList hne (hh.fresh.1 c hc).symm
      (fun d hd => hh.fresh.1 d (mem_middle.mpr (Or.inr hd))) (update_self ..)
      (lt_succ_self _) hfree)
    simp only [Registry.permSrvUpdateConfigBySameUuid, hentry, Option.map_some]
    rfl

/-- With its pointers the registry installs a configuration as the list does. -/
theorem Held.install_refines (hfits : s.Replaceable config.uuid) :
    ∃ s' cells', s.permSrvUpdateConfigBySameUuid config = some s' ∧ Held s' cells' ∧
      cells'.map toEntry = permSrvUpdateConfigBySameUuid (cells.map toEntry) config := by
  have hlist := getConfigEntry_toEntry (u := config.uuid) hh.uuids
  cases hh.install config hfits with
  | fresh s' hcell hrun hheld =>
    refine ⟨s', _, hrun, hheld, ?_⟩
    rw [hcell] at hlist
    rw [permSrvUpdateConfigBySameUuid, hlist, map_append]
    rfl
  | replaced s' c l₁ l₂ hcells huuid hrun hheld =>
    subst hcells
    refine ⟨s', _, hrun, hheld, ?_⟩
    have hcell : cellOf (l₁ ++ c :: l₂) config.uuid = some c := by
      apply find?_eq_some_iff_append.mpr
      refine ⟨decide_eq_true huuid, l₁, l₂, rfl, fun d hd => ?_⟩
      simp only [← huuid, hh.others_uuid d (mem_append_left _ hd), decide_false, Bool.not_false]
    have herase : ((l₁ ++ c :: l₂).map toEntry).reverse.eraseP
        (fun e => e.uuid = config.uuid) = ((l₁ ++ l₂).map toEntry).reverse := by
      rw [map_append, map_cons, reverse_append, reverse_cons, append_assoc,
        eraseP_append_right, singleton_append, eraseP_cons_of_pos]
      · rw [map_append, reverse_append]
      · exact decide_eq_true huuid
      · intro e he
        obtain ⟨d, hd, rfl⟩ := mem_map.mp (mem_reverse.mp he)
        have hne := hh.others_uuid d (mem_append_right _ hd)
        rw [huuid] at hne
        exact fun heq => hne (of_decide_eq_true heq)
    rw [hcell] at hlist
    rw [permSrvUpdateConfigBySameUuid, hlist, Option.map_some, herase, reverse_reverse, map_append]
    rfl

end TeeOs.PermSrv
