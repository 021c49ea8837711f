import TeeOs.PermSrv.Held

/-!
# The registry over whole histories

As long as a configuration is not installed over an entry without tasks, and a task is
not registered while it is registered, the registry holds what its history says: one
entry for each TA, its current configuration, and its tasks.
-/

namespace TeeOs.PermSrv

open TeeOs.Lib.Runs List Cell

variable {s s' : Registry} {cells l₁ l₂ : List Cell} {c : Cell} {u : TeeUuid} {taskid : Nat}

def Cell.ids (c : Cell) : List Nat := c.taskList.map TaskConfig.taskid

/-- The cells are what the history says, and no task is registered twice. -/
structure Follows (s : Registry) (cells : List Cell) (cfg : TeeUuid → Option ConfigInfo)
    (tasks : TeeUuid → List TaskConfig) : Prop extends Held s cells where
  current : ∀ c ∈ cells, cfg c.uuid = some c.config ∧ tasks c.uuid = c.taskList
  absent : ∀ u, cellOf cells u = none → cfg u = none ∧ tasks u = []
  ids : (cells.flatMap ids).Nodup

variable {cfg : TeeUuid → Option ConfigInfo} {tasks : TeeUuid → List TaskConfig}

variable {cfg' : TeeUuid → Option ConfigInfo} {tasks' : TeeUuid → List TaskConfig}

theorem cellOf_middle {v : TeeUuid} :
    cellOf (l₁ ++ c :: l₂) v = none ↔ c.uuid ≠ v ∧ cellOf (l₁ ++ l₂) v = none := by
  simp only [cellOf_eq_none, mem_middle, forall_eq_or_imp]

/-- One entry is edited, and the history says so of its TA and of no other. -/
theorem Follows.edit {c' : Cell} (hf : Follows s (l₁ ++ c :: l₂) cfg tasks)
    (hh : Held s' (l₁ ++ c' :: l₂)) (huuid : c'.uuid = c.uuid)
    (hself : cfg' c.uuid = some c'.config ∧ tasks' c.uuid = c'.taskList)
    (hother : ∀ v, v ≠ c.uuid → cfg' v = cfg v ∧ tasks' v = tasks v)
    (hids : c'.ids.Nodup) (hnew : ∀ t ∈ c'.ids, t ∉ c.ids → ∀ d ∈ l₁ ++ l₂, t ∉ d.ids) :
    Follows s' (l₁ ++ c' :: l₂) cfg' tasks' := by
  obtain ⟨-, hrest, hdisj⟩ := apart_middle.mp hf.ids
  refine { hh with current := ?_, absent := ?_, ids := ?_ }
  · intro d hd
    rcases mem_middle.mp hd with rfl | hd
    · rw [huuid]
      exact hself
    · have hold := hf.current d (mem_middle.mpr (.inr hd))
      obtain ⟨hc, ht⟩ := hother d.uuid (hf.others_uuid d hd)
      exact ⟨hc.trans hold.1, ht.trans hold.2⟩
  · intro v hv
    rw [cellOf_middle, huuid, ← cellOf_middle] at hv
    obtain ⟨hc, ht⟩ := hother v (cellOf_middle.mp hv).1.symm
    exact ⟨hc.trans (hf.absent v hv).1, ht.trans (hf.absent v hv).2⟩
  · refine apart_middle.mpr ⟨hids, hrest, fun d hd t ht ht' => ?_⟩
    exact hnew t ht' (hdisj d hd t ht) d hd ht

theorem Follows.add (hcur : ∀ d ∈ cells, cfg d.uuid = some d.config ∧ tasks d.uuid = d.taskList)
    (habs : ∀ v, v ≠ c.uuid → cellOf cells v = none → cfg v = none ∧ tasks v = [])
    (hids : (cells.flatMap Cell.ids).Nodup) (hh : Held s (cells ++ [c]))
    (hself : cfg' c.uuid = some c.config ∧ tasks' c.uuid = c.taskList)
    (hother : ∀ v, v ≠ c.uuid → cfg' v = cfg v ∧ tasks' v = tasks v)
    (hcids : c.ids.Nodup) (hnew : ∀ t ∈ c.ids, ∀ d ∈ cells, t ∉ d.ids) :
    Follows s (cells ++ [c]) cfg' tasks' := by
  have hothers := hh.others_uuid
  rw [append_nil] at hothers
  refine { hh with current := ?_, absent := ?_, ids := ?_ }
  · intro d hd
    rcases mem_append.mp hd with hd | hd
    · obtain ⟨hc, ht⟩ := hother d.uuid (hothers d hd)
      exact ⟨hc.trans (hcur d hd).1, ht.trans (hcur d hd).2⟩
    · rw [mem_singleton.mp hd]
      exact hself
  · intro v hv
    have hne : v ≠ c.uuid := fun he =>
      cellOf_eq_none.mp hv c (mem_append_right _ (mem_singleton.mpr rfl)) he.symm
    have hold := habs v hne (cellOf_eq_none.mpr fun d hd =>
      cellOf_eq_none.mp hv d (mem_append_left _ hd))
    obtain ⟨hc, ht⟩ := hother v hne
    exact ⟨hc.trans hold.1, ht.trans hold.2⟩
  · apply apart_middle.mpr
    rw [append_nil]
    exact ⟨hcids, hids, fun d hd t ht ht' => hnew t ht' d hd ht⟩

/-- A task is not registered twice, and a configuration is not installed over an entry
without tasks. -/
def RegistryEvent.fits : Option Registry → RegistryEvent → Bool
  | some s, .register _ taskid _ => decide (s.permSrvGetConfigByTaskid taskid = some none)
  | some s, .install config =>
    match s.getConfigEntry config.uuid with
    | some (some e) => decide (s.links.next (.tasks e) ≠ .tasks e)
    | _ => true
  | _, _ => true

/-- The registry after an event follows the history with the event. -/
def FollowsAfter (s' : Option Registry) (cfg : TeeUuid → Option ConfigInfo)
    (tasks : TeeUuid → List TaskConfig) (e : RegistryEvent) : Prop :=
  ∃ r cells, s' = some r ∧ Follows r cells (fun v => e.config v (cfg v)) fun v => e.tasks v (tasks v)

theorem Held.not_registered (hh : Held s cells)
    (h : s.permSrvGetConfigByTaskid taskid = some none) : ∀ c ∈ cells, taskid ∉ c.ids := by
  rw [hh.permSrvGetConfigByTaskid, Option.some.injEq, Option.map_eq_none_iff, find?_eq_none] at h
  intro c hc hmem
  obtain ⟨t, ht, heq⟩ := mem_map.mp hmem
  exact h c hc (hasTask_iff.mpr ⟨t, ht, heq⟩)

theorem Follows.ids_nodup (hf : Follows s (l₁ ++ c :: l₂) cfg tasks) : c.ids.Nodup :=
  (apart_middle.mp hf.ids).1

theorem Follows.register (hf : Follows s cells cfg tasks) (u : TeeUuid) (taskid userid : Nat)
    (hfits : s.permSrvGetConfigByTaskid taskid = some none) :
    FollowsAfter (s.permSrvRegisterTaTaskid u taskid userid) cfg tasks
      (.register u taskid userid) := by
  have hnew := hf.not_registered hfits
  unfold Registry.permSrvRegisterTaTaskid
  rw [hf.getConfigEntry u]
  cases hcell : cellOf cells u with
  | some c =>
    obtain ⟨rfl, l₁, l₂, rfl⟩ := cellOf_split hcell
    have hc : c ∈ l₁ ++ c :: l₂ := mem_append_cons_self
    obtain ⟨hcfg, htasks⟩ := hf.current c hc
    have hids : Cell.ids { c with tasks := c.tasks ++ [(s.allocs, ⟨taskid, userid⟩)] } =
        c.ids ++ [taskid] := by
      simp only [Cell.ids, Cell.taskList, map_append, map_cons, map_nil]
    refine ⟨_, _, rfl, hf.edit (hf.toHeld.addTask ⟨taskid, userid⟩) rfl ⟨?_, ?_⟩ (fun v hv => ?_)
      ?_ (fun t ht htc d hd => ?_)⟩
    · simp only [RegistryEvent.config, hcfg, if_true, Option.getD_some]
    · simp only [RegistryEvent.tasks, htasks, if_true, taskList, map_append, map_cons, map_nil]
    · simp only [RegistryEvent.config, RegistryEvent.tasks, if_neg hv.symm, and_self]
    · rw [hids, ← concat_eq_append]
      exact hf.ids_nodup.concat (hnew c hc)
    · rw [hids] at ht
      rcases mem_append.mp ht with ht | ht
      · exact absurd ht htc
      · rw [mem_singleton.mp ht]
        exact hnew d (mem_middle.mpr (.inr hd))
  | none =>
    obtain ⟨hcfg, htasks⟩ := hf.absent u hcell
    have hmade := hf.toHeld.addEmpty { uuid := u } hcell
    have hadded := hmade.addTask ⟨taskid, userid⟩
    refine ⟨_, _, rfl, .add hf.current (fun v _ => hf.absent v) hf.ids hadded ⟨?_, ?_⟩
      (fun v hv => ?_) (nodup_singleton taskid) (fun t ht d hd => ?_)⟩
    · show RegistryEvent.config u (cfg u) _ = _
      simp only [RegistryEvent.config, hcfg, if_true, Option.getD_none]
    · show RegistryEvent.tasks u (tasks u) _ = _
      simp only [RegistryEvent.tasks, htasks, if_true]
      rfl
    · have hne : ¬ u = v := fun he => hv he.symm
      simp only [RegistryEvent.config, RegistryEvent.tasks, if_neg hne, and_self]
    · rw [mem_singleton.mp ht]
      exact hnew d hd

/-- An event that changes nothing, in the registry and in the history. -/
theorem Follows.same (hf : Follows s cells cfg tasks) {e : RegistryEvent}
    (h : ∀ v, e.config v (cfg v) = cfg v ∧ e.tasks v (tasks v) = tasks v) :
    FollowsAfter (some s) cfg tasks e := by
  have hcfg : (fun v => e.config v (cfg v)) = cfg := funext fun v => (h v).1
  have htasks : (fun v => e.tasks v (tasks v)) = tasks := funext fun v => (h v).2
  refine ⟨s, cells, rfl, ?_⟩
  rw [hcfg, htasks]
  exact hf

theorem filter_of_not_mem {ts : List TaskConfig} (h : ∀ t ∈ ts, t.taskid ≠ taskid) :
    (ts.filter fun t => t.taskid ≠ taskid) = ts :=
  filter_eq_self.mpr fun t ht => decide_eq_true (h t ht)

/-- The first task of an id, in a list without two of it, is the one that goes. -/
theorem find?_task {m : List (Nat × TaskConfig)} {t : Nat} {task : TaskConfig}
    (hn : (m.map fun p => p.2.taskid).Nodup)
    (hfind : (m.find? fun p => p.2.taskid = taskid) = some (t, task)) :
    ∃ m₁ m₂, m = m₁ ++ (t, task) :: m₂ ∧
      ((m.map Prod.snd).filter fun t => t.taskid ≠ taskid) = (m₁ ++ m₂).map Prod.snd := by
  obtain ⟨hid, m₁, m₂, rfl, -⟩ := find?_eq_some_iff_append.mp hfind
  have hid : task.taskid = taskid := of_decide_eq_true hid
  rw [(perm_middle.map _).nodup_iff, map_cons, nodup_cons] at hn
  have hgone : ∀ t ∈ (m₁ ++ m₂).map Prod.snd, t.taskid ≠ taskid := by
    intro t ht he
    obtain ⟨p, hp, rfl⟩ := mem_map.mp ht
    exact hn.1 (mem_map.mpr ⟨p, hp, he.trans hid.symm⟩)
  refine ⟨m₁, m₂, rfl, ?_⟩
  rw [← filter_of_not_mem hgone, map_append, map_append, map_cons,
    filter_append, filter_append, filter_cons_of_neg (by simp [hid])]

section

variable (hf : Follows s cells cfg tasks)
include hf

theorem Follows.unregister (u : TeeUuid) (taskid : Nat) :
    FollowsAfter (s.permSrvUnregisterTaTaskid u taskid) cfg tasks (.unregister u taskid) := by
  unfold Registry.permSrvUnregisterTaTaskid
  rw [hf.getConfigEntry u]
  cases hcell : cellOf cells u with
  | none =>
    refine hf.same fun v => ⟨rfl, ?_⟩
    simp only [RegistryEvent.tasks]
    split
    · rename_i huv
      rw [← huv, (hf.absent u hcell).2]
      rfl
    · rfl
  | some c =>
    obtain ⟨rfl, l₁, l₂, rfl⟩ := cellOf_split hcell
    have hc : c ∈ l₁ ++ c :: l₂ := mem_append_cons_self
    obtain ⟨hcfg, htasks⟩ := hf.current c hc
    simp only [Option.map_some, hf.findTask hc]
    cases hfind : c.tasks.find? fun t => t.2.taskid = taskid with
    | none =>
      refine hf.same fun v => ⟨rfl, ?_⟩
      simp only [RegistryEvent.tasks]
      split
      · rename_i huv
        rw [← huv, htasks]
        apply filter_of_not_mem
        intro t ht heq
        obtain ⟨p, hp, rfl⟩ := mem_map.mp ht
        exact find?_eq_none.mp hfind p hp (decide_eq_true heq)
      · rfl
    | some p =>
      obtain ⟨t, task⟩ := p
      have hids := hf.ids_nodup
      rw [Cell.ids, Cell.taskList, map_map] at hids
      obtain ⟨m₁, m₂, hsplit, hfilter⟩ := find?_task hids hfind
      have hsub : List.Sublist (m₁ ++ m₂) c.tasks := by
        rw [hsplit]
        exact (sublist_cons_self _ _).append_left _
      have hcids := (hsub.map Prod.snd).map TaskConfig.taskid
      refine ⟨_, _, rfl, hf.edit (hf.toHeld.deleteTask hsplit) rfl ⟨hcfg, ?_⟩ (fun v hv => ?_)
        (hf.ids_nodup.sublist hcids) fun t' ht' hnot => absurd (hcids.subset ht') hnot⟩
      · simp only [RegistryEvent.tasks, htasks, if_true]
        exact hfilter
      · simp only [RegistryEvent.config, RegistryEvent.tasks, if_neg hv.symm, and_self]

theorem Follows.release (u : TeeUuid) :
    FollowsAfter (s.permSrvClearTaPermissions u) cfg tasks (.release u) := by
  unfold Registry.permSrvClearTaPermissions
  rw [hf.search_front u]
  cases hcell : cellOf cells u with
  | none =>
    refine hf.same fun v => ?_
    simp only [RegistryEvent.config, RegistryEvent.tasks]
    split
    · rename_i huv
      rw [← huv, (hf.absent u hcell).1, (hf.absent u hcell).2]
      exact ⟨rfl, rfl⟩
    · exact ⟨rfl, rfl⟩
  | some c =>
    obtain ⟨rfl, l₁, l₂, rfl⟩ := cellOf_split hcell
    have hc : c ∈ l₁ ++ c :: l₂ := mem_append_cons_self
    have hfuel : c.tasks.length < s.fuel := by
      have hlt := hf.tasks_length_lt hc
      rwa [nodes, taskAddrs, length_map, length_map] at hlt
    obtain ⟨s', hclear, hdone⟩ := hf.toHeld.deleteEntry.taClearList c.tasks rfl hfuel
    have hout := hf.others_uuid
    refine ⟨s'.freeEntry c.addr, l₁ ++ l₂, ?_, { hdone.freeEntry with
      current := ?_, absent := ?_, ids := (apart_middle.mp hf.ids).2.1 }⟩
    · exact congrArg (Option.map _) hclear
    · intro d hd
      simp only [RegistryEvent.config, RegistryEvent.tasks, if_neg (hout d hd).symm]
      exact hf.current d (mem_middle.mpr (.inr hd))
    · intro v hv
      simp only [RegistryEvent.config, RegistryEvent.tasks]
      split
      · exact ⟨rfl, rfl⟩
      · rename_i hne
        exact hf.absent v (cellOf_middle.mpr ⟨hne, hv⟩)

theorem Follows.install (config : ConfigInfo) (hfits : s.Replaceable config.uuid) :
    FollowsAfter (s.permSrvUpdateConfigBySameUuid config) cfg tasks (.install config) := by
  have hother : ∀ v, v ≠ config.uuid → RegistryEvent.config v (cfg v) (.install config) = cfg v ∧
        RegistryEvent.tasks v (tasks v) (.install config) = tasks v := by
    intro v hv
    simp only [RegistryEvent.config, RegistryEvent.tasks, if_neg hv.symm, and_self]
  cases hf.toHeld.install config hfits with
  | fresh s' hcell hrun hheld =>
    refine ⟨_, _, hrun, .add hf.current (fun v _ => hf.absent v) hf.ids hheld ⟨if_pos rfl, ?_⟩
      hother nodup_nil nofun⟩
    exact (hf.absent config.uuid hcell).2
  | replaced s' c l₁ l₂ hcells huuid hrun hheld =>
    subst hcells
    have hc : c ∈ l₁ ++ c :: l₂ := mem_append_cons_self
    obtain ⟨hids, hrest, hdisj⟩ := apart_middle.mp hf.ids
    refine ⟨_, _, hrun, .add (fun d hd => hf.current d (mem_middle.mpr (.inr hd)))
      (fun v hv habs => ?_) hrest hheld ⟨if_pos rfl, ?_⟩ hother hids
      fun t ht d hd ht' => hdisj d hd t ht' ht⟩
    · refine hf.absent v (cellOf_middle.mpr ⟨?_, habs⟩)
      rw [huuid]
      exact Ne.symm hv
    · show tasks config.uuid = _
      rw [← huuid]
      exact (hf.current c hc).2

theorem Follows.run (e : RegistryEvent) (hfits : e.fits (some s) = true) :
    FollowsAfter (e.run s) cfg tasks e := by
  cases e with
  | register u taskid userid => exact hf.register u taskid userid (of_decide_eq_true hfits)
  | unregister u taskid => exact hf.unregister u taskid
  | release u => exact hf.release u
  | install config =>
    apply hf.install config
    intro e he
    rw [RegistryEvent.fits, he] at hfits
    exact of_decide_eq_true hfits

/-- What the registry is for: its lists are well formed, with one entry for each TA that
has a configuration and with its tasks in it, and a task finds the configuration of the
TA it was registered under. -/
structure WellKept (s : Registry) (cfg : TeeUuid → Option ConfigInfo)
    (tasks : TeeUuid → List TaskConfig) : Prop where
  listed : ∃ cells, Held s cells ∧
    (∀ c ∈ cells, cfg c.uuid = some c.config ∧ tasks c.uuid = c.taskList) ∧
    ∀ u, (∀ c ∈ cells, c.uuid ≠ u) → cfg u = none ∧ tasks u = []
  lookup : ∀ u, ∀ t ∈ tasks u, s.permSrvGetConfigByTaskid t.taskid = some (cfg u)

theorem Follows.wellKept : WellKept s cfg tasks := by
  refine ⟨⟨cells, hf.toHeld, hf.current, fun u hu => hf.absent u (cellOf_eq_none.mpr hu)⟩, ?_⟩
  intro u t ht
  cases hcell : cellOf cells u with
  | none =>
    rw [(hf.absent u hcell).2] at ht
    exact absurd ht not_mem_nil
  | some c =>
    obtain ⟨rfl, l₁, l₂, rfl⟩ := cellOf_split hcell
    obtain ⟨hcfg, htasks⟩ := hf.current c mem_append_cons_self
    have hid : t.taskid ∈ c.ids := mem_map_of_mem (htasks ▸ ht)
    have hhas : c.hasTask t.taskid = true := hasTask_iff.mpr ⟨t, htasks ▸ ht, rfl⟩
    have hfirst : (l₁ ++ c :: l₂).find? (fun c => c.hasTask t.taskid) = some c := by
      apply find?_eq_some_iff_append.mpr
      refine ⟨hhas, l₁, l₂, rfl, fun d hd => ?_⟩
      rw [Bool.not_eq_true', Bool.eq_false_iff]
      intro hd'
      obtain ⟨t', ht', heq⟩ := hasTask_iff.mp hd'
      exact (apart_middle.mp hf.ids).2.2 d (mem_append_left _ hd) t.taskid
        (heq ▸ mem_map_of_mem ht') hid
    rw [hf.permSrvGetConfigByTaskid, hfirst, hcfg]
    rfl

end

theorem follows_init : Follows {} [] (fun _ => none) fun _ => [] where
  wired := ⟨⟨nodup_singleton _, rfl, rfl⟩, nofun, nodup_nil⟩
  stored := nofun
  uuids := nodup_nil
  current := nofun
  absent := fun _ _ => ⟨rfl, rfl⟩
  ids := nodup_nil

/-- A TA with a configuration and a task. -/
def oneTask : Registry :=
  (runs registryStep (some {}) [.install {}, .register {} 5 0]).getD {}

theorem held_oneTask : Held oneTask [⟨0, {}, [(1, ⟨5, 0⟩)]⟩] := by
  have hempty : Held _ ([] ++ ⟨0, {}, []⟩ :: []) := follows_init.addEmpty {} rfl
  exact hempty.addTask ⟨5, 0⟩

/-- A second configuration of the TA, which takes the task over. -/
theorem install_refines_oneTask : oneTask.getConfigEntry {} = some (some 0) ∧ ∃ s' cells',
    oneTask.permSrvUpdateConfigBySameUuid { version := 1 } = some s' ∧ Held s' cells' ∧
      cells'.map toEntry = [⟨{ version := 1 }, [⟨5, 0⟩]⟩] := by
  refine ⟨held_oneTask.getConfigEntry {}, held_oneTask.install_refines { version := 1 } ?_⟩
  intro e he
  cases (held_oneTask.getConfigEntry {}).symm.trans he
  decide +kernel

theorem follows_run (es : List RegistryEvent) :
    ∀ {s : Registry} {cells : List Cell} {cfg : TeeUuid → Option ConfigInfo}
      {tasks : TeeUuid → List TaskConfig}, Follows s cells cfg tasks →
      Along registryStep (fun s e => e.fits s = true) (some s) es →
      ∃ s' cells', runs registryStep (some s) es = some s' ∧
        Follows s' cells' (fun u => es.foldl (RegistryEvent.config u) (cfg u))
          fun u => es.foldl (RegistryEvent.tasks u) (tasks u) := by
  induction es with
  | nil =>
    intro s cells cfg tasks hf _
    exact ⟨s, cells, rfl, hf⟩
  | cons e es ih =>
    intro s cells cfg tasks hf halong
    obtain ⟨s', cells', hrun, hf'⟩ := hf.run e halong.1
    have hstep : registryStep (some s) e = some s' := hrun
    have hrest := halong.2
    rw [hstep] at hrest
    rw [runs_cons, hstep]
    exact ih hf' hrest

/-- After every history that registers no task twice and installs no configuration over an
entry without tasks, the registry is what the history says. -/
theorem registry_follows_history (es : List RegistryEvent)
    (h : Along registryStep (fun s e => e.fits s = true) (some {}) es) :
    ∃ s, runs registryStep (some {}) es = some s ∧ WellKept s (configAfter es) (tasksAfter es) := by
  obtain ⟨s, cells, hrun, hf⟩ := follows_run es follows_init h
  exact ⟨s, hrun, hf.wellKept⟩

theorem registry_follows_history_sample :
    ∃ s, runs registryStep (some {}) [.install {}, .register {} 5 0, .install { version := 1 },
        .register { timeLow := 1 } 6 0, .unregister {} 5, .release { timeLow := 1 }] = some s ∧
      WellKept s (configAfter [.install {}, .register {} 5 0, .install { version := 1 },
          .register { timeLow := 1 } 6 0, .unregister {} 5, .release { timeLow := 1 }])
        (tasksAfter [.install {}, .register {} 5 0, .install { version := 1 },
          .register { timeLow := 1 } 6 0, .unregister {} 5, .release { timeLow := 1 }]) :=
  registry_follows_history _ (by decide +kernel)

/-- A task that is registered for no TA, or no more, is given no configuration. -/
theorem unregistered_task_unknown (es : List RegistryEvent) (taskid : Nat)
    (h : Along registryStep (fun s e => e.fits s = true) (some {}) es)
    (hno : ∀ u, ∀ t ∈ tasksAfter es u, t.taskid ≠ taskid) :
    ∃ s, runs registryStep (some {}) es = some s ∧ s.permSrvGetConfigByTaskid taskid = some none := by
  obtain ⟨s, cells, hrun, hf⟩ := follows_run es follows_init h
  refine ⟨s, hrun, ?_⟩
  rw [hf.permSrvGetConfigByTaskid, find?_eq_none.mpr]
  · rfl
  intro c hc hhas
  obtain ⟨t, ht, hid⟩ := hasTask_iff.mp hhas
  rw [← (hf.current c hc).2] at ht
  exact hno c.uuid t ht hid

theorem unregistered_task_unknown_again : ∃ s,
    runs registryStep (some {}) [.register {} 5 0, .unregister {} 5] = some s ∧
      s.permSrvGetConfigByTaskid 5 = some none :=
  unregistered_task_unknown _ 5 (by decide +kernel) fun u => by
    by_cases hu : {} = u <;> simp [tasksAfter, RegistryEvent.tasks, hu]

/-- A configuration that is installed twice, with no task between: the task list of the
entry leads into the entry that was freed, and a lookup reads it. -/
theorem installed_twice_dangles : (runs registryStep (some {}) [.install {}, .install {}]).map
        (fun s => (s.getConfigEntry {}, s.links.next (.tasks 1), s.entry 0)) =
      some (some (some 1), .tasks 0, none) ∧
    (runs registryStep (some {}) [.install {}, .install {}]).map
        (fun s => s.permSrvGetConfigByTaskid 5) = some none := by
  decide +kernel

-- a task of two TAs is found under the first one
example : (runs registryStep (some {}) [.register {} 5 0, .register { timeLow := 1 } 5 0]).map
    (fun s => s.permSrvGetConfigByTaskid 5) = some (some (some {})) := by
  decide +kernel

end TeeOs.PermSrv
