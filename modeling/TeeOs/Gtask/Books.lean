import TeeOs.Gtask.Owner

/-!
# The books of the session manager

For each service gtask keeps a list of sessions, a counter and a bitmap of the ids in
use, and each session has a task. `Books` says that they agree. A step may open
sessions and release sessions; what it leaves in the lists keeps its identity, and
what it takes out has had its task deleted.
-/

namespace TeeOs.Gtask

open TeeOs.Lib List Keyed Service Globals Session

section Bitmap

variable {b : BitVec 32} {i j : Nat}

theorem getLsbD_bit (hi : i < 32) : (1#32 <<< (i % 32)).getLsbD j = decide (j = i) := by
  rw [Nat.mod_eq_of_lt hi, BitVec.getLsbD_shiftLeft, BitVec.getLsbD_one]
  by_cases hj : j = i
  · simp [hj, hi]
  · by_cases hlt : j < i
    · simp [hlt, hj]
    · have hne : ¬ j - i = 0 := by omega
      simp [hne, hj]

theorem getLsbD_setBit (hi : i < 32) :
    (setBit b i).getLsbD j = (b.getLsbD j || decide (j = i)) := by
  rw [setBit, BitVec.getLsbD_or, getLsbD_bit hi]

theorem getLsbD_clrBit (hi : i < 32) :
    (clrBit b i).getLsbD j = (b.getLsbD j && !decide (j = i)) := by
  rw [clrBit, BitVec.getLsbD_and, BitVec.getLsbD_not, getLsbD_bit hi]
  by_cases hle : j < 32
  · simp [hle]
  · simp [BitVec.getLsbD_of_ge _ _ (Nat.le_of_not_lt hle)]

/-- The number of set bits. -/
def bitCount (b : BitVec 32) : Nat := (List.range 32).countP b.getLsbD

theorem getSessionId_spec {id : Nat} (h : getSessionId b = some id) :
    1 ≤ id ∧ id ≤ maxSessionId ∧ b.getLsbD (id - 1) = false := by
  obtain ⟨i, hf, rfl⟩ := Option.map_eq_some_iff.1 h
  have hr := mem_range.1 (mem_of_find?_eq_some hf)
  have hb := find?_some hf
  refine ⟨Nat.le_add_left 1 i, hr, ?_⟩
  simpa using hb

end Bitmap

/-- The ids of the sessions of a service. -/
def Globals.idsOf (g : Globals) (i : Nat) : List Nat := (g.sessionsOf i).map sessionId

/-- The books of one service. -/
structure ServiceBooks (g : Globals) (v : Service) : Prop where
  count : v.sessionCount = (g.sessionsOf v.index).length
  ids : (g.idsOf v.index).Nodup
  range : ∀ id ∈ g.idsOf v.index, 1 ≤ id ∧ id ≤ maxSessionId
  bitmap : ∀ i, v.sessionBitmap.getLsbD i = true ↔ i + 1 ∈ g.idsOf v.index

/-- The books of gtask: those of each listed service, a live task of its own for each
session, and that the lists are well formed. -/
structure Books (g : Globals) : Prop where
  services : ∀ v ∈ g.services, ServiceBooks g v
  live : ∀ s ∈ g.sessions, s.taskId ∈ g.tasks
  own : (g.sessions.map taskId).Nodup
  indices : (g.services.map index).Nodup
  refs : (g.sessions.map ref).Nodup
  fresh : ∀ s ∈ g.sessions, s.ref < g.next
  listed : ∀ s ∈ g.sessions, ∃ v ∈ g.services, v.index = s.srv

/-- The books agree, and if `P` also sessions show their owners. What is proved for every
`P` can be used where nothing is known about owners. -/
structure Good (P : Prop) (g : Globals) : Prop extends Books g where
  owned : P → Owned g

variable {P : Prop} {g g' g'' : Globals} {env : Env} {v : Service} {s : Session} {O : Out → Prop}

variable {i n r : Nat} {s' t : Session} {f : Service → Service} {v' : Service}

theorem mem_sessionsOf : s ∈ g.sessionsOf i ↔ s ∈ g.sessions ∧ s.srv = i := by
  simp only [sessionsOf, mem_filter, decide_eq_true_eq]

theorem length_idsOf : (g.idsOf i).length = (g.sessionsOf i).length := length_map _

namespace ServiceBooks

/-- At most one session for each id. -/
theorem length_le (h : ServiceBooks g v) : (g.sessionsOf v.index).length ≤ maxSessionId := by
  have hsub : g.idsOf v.index ⊆ List.range' 1 maxSessionId := fun i hi =>
    mem_range'_1.2 ⟨(h.range i hi).1, by have := (h.range i hi).2; omega⟩
  have hle := (h.ids.subperm hsub).length_le
  rwa [length_idsOf, length_range'] at hle

/-- The bitmap has one bit for each session. -/
theorem bitCount_eq (h : ServiceBooks g v) :
    bitCount v.sessionBitmap = (g.sessionsOf v.index).length := by
  have hp : ((List.range 32).filter v.sessionBitmap.getLsbD).Perm
      ((g.idsOf v.index).map (· - 1)) := by
    refine (perm_ext_iff_of_nodup (nodup_range.filter _) ?_).2 fun i => ?_
    · refine h.ids.map_on fun a ha b hb hab => ?_
      have h₁ := (h.range a ha).1
      have h₂ := (h.range b hb).1
      omega
    · rw [mem_filter, mem_range, h.bitmap i, mem_map]
      constructor
      · rintro ⟨-, hid⟩
        exact ⟨i + 1, hid, Nat.add_sub_cancel i 1⟩
      · rintro ⟨id, hid, rfl⟩
        have hr := h.range id hid
        rw [maxSessionId] at hr
        exact ⟨by omega, by rwa [Nat.sub_add_cancel hr.1]⟩
  rw [bitCount, countP_eq_length_filter, hp.length_eq, length_map, length_idsOf]

end ServiceBooks

/-- What the books say about a service. -/
def Service.ledger (v : Service) : Nat × Nat × BitVec 32 :=
  (v.index, v.sessionCount, v.sessionBitmap)

/-- From `g` to `g'` more may have been recorded; if `P`, only what is allowed. -/
structure Grown (P : Prop) (g g' : Globals) : Prop where
  next : g.next ≤ g'.next
  died : g.died ⊆ g'.died
  out : ∃ l, g'.out = g.out ++ l ∧ ∀ o ∈ l, P → o.allowed g'.died

/-- What may be recorded in the state `g`. -/
abbrev Globals.allows (g : Globals) (P : Prop) (o : Out) : Prop := P → o.allowed g.died

theorem allows_of_notSend : ∀ o : Out, o.notSend → g.allows P o := fun _ h _ => h.allowed

/-- From `g` to `g'` no session is opened or released. -/
structure Same (P : Prop) (g g' : Globals) : Prop extends Grown P g g' where
  sessions : ∃ f, g'.sessions = g.sessions.map f ∧ ∀ s ∈ g.sessions, (f s).ident = s.ident ∧
    (P → (f s).sessionStatus = .fatherDead →
      s.sessionStatus = .fatherDead ∨ ∃ t ∈ g'.died, s.opener = .task t)
  services : g'.services.map ledger = g.services.map ledger
  tasks : g'.tasks = g.tasks

/-- From `g` to `g'` sessions may be opened and released: the books agree afterwards,
and a session that is gone has had its task deleted. -/
structure Served (P : Prop) (g g' : Globals) : Prop extends Grown P g g' where
  books : Good P g'
  stay : ∀ s ∈ g.sessions, (∃ s' ∈ g'.sessions, s'.ident = s.ident) ∨ .deleted s.taskId ∈ g'.out

/-- The same, and no session is opened. -/
structure Kept (P : Prop) (g g' : Globals) : Prop extends Served P g g' where
  origin : ∀ s' ∈ g'.sessions, ∃ s ∈ g.sessions, s'.ident = s.ident

namespace Grown

theorem of_eq (next : g'.next = g.next) (died : g'.died = g.died) (out : g'.out = g.out) :
    Grown P g g' :=
  ⟨Nat.le_of_eq next.symm, fun _ h => died ▸ h, [], by rw [out, append_nil],
    fun _ h => nomatch h⟩

/-- Whatever is recorded is no message. -/
theorem of_notSend {l : List Out} (next : g.next ≤ g'.next) (died : g'.died = g.died)
    (out : g'.out = g.out ++ l) (h : ∀ o ∈ l, o.notSend) : Grown P g g' :=
  ⟨next, fun _ h => died ▸ h, l, out, fun o ho _ => (h o ho).allowed⟩

theorem refl : Grown P g g := of_eq rfl rfl rfl

theorem trans (h : Grown P g g') (h' : Grown P g' g'') : Grown P g g'' := by
  obtain ⟨l, hl, ho⟩ := h.out
  obtain ⟨l', hl', ho'⟩ := h'.out
  refine ⟨Nat.le_trans h.next h'.next, fun _ hm => h'.died (h.died hm), l ++ l', ?_, fun o hm hp => ?_⟩
  · rw [hl', hl, append_assoc]
  · rcases mem_append.1 hm with hm | hm
    · exact (ho o hm hp).mono h'.died
    · exact ho' o hm hp

theorem subset (h : Grown P g g') : g.out ⊆ g'.out := by
  obtain ⟨l, hl, -⟩ := h.out
  rw [hl]
  exact subset_append_left _ _

end Grown

theorem Touch.same (h : Touch (g.allows P) g g') : Same P g g' where
  sessions := by
    obtain ⟨f, hf, hs⟩ := h.sessions
    exact ⟨f, hf, fun s hm => ⟨ident_of_frame (hs s hm).1, fun _ hd =>
      .inl ((status_of_frame (hs s hm).1).symm.trans hd)⟩⟩
  services := by
    have hb : ∀ l : List Service, l.map ledger = (l.map book).map ledger :=
      fun l => by rw [map_map]; rfl
    rw [hb g'.services, h.services, ← hb]
  tasks := h.tasks
  next := h.next
  died := fun _ hd => h.died ▸ hd
  out := by
    obtain ⟨l, hl, ho⟩ := h.out
    exact ⟨l, hl, fun o hm hp => h.died ▸ ho o hm hp⟩

theorem ident_srv (h : s'.ident = s.ident) : s'.srv = s.srv := by
  have ht := congrArg srv h
  exact ht

theorem ident_sessionId (h : s'.ident = s.ident) : s'.sessionId = s.sessionId := by
  have ht := congrArg sessionId h
  exact ht

theorem ident_devFileId (h : s'.ident = s.ident) : s'.cmdIn.devFileId = s.cmdIn.devFileId := by
  have ht := congrArg (fun t : Session => t.cmdIn.devFileId) h
  exact ht

theorem Served.refl (h : Good P g) : Served P g g := ⟨.refl, h, fun s hs => .inl ⟨s, hs, rfl⟩⟩

theorem Served.trans (h : Served P g g') (h' : Served P g' g'') : Served P g g'' := by
  refine ⟨h.toGrown.trans h'.toGrown, h'.books, fun s hs => ?_⟩
  rcases h.stay s hs with ⟨s', hm, hi⟩ | hd
  · rcases h'.stay s' hm with ⟨s'', hm', hi'⟩ | hd
    · exact .inl ⟨s'', hm', hi'.trans hi⟩
    · exact .inr (ident_taskId hi ▸ hd)
  · exact .inr (h'.subset hd)

theorem Served.bind (h : Served P g g') (h' : Good P g' → Served P g' g'') : Served P g g'' :=
  h.trans (h' h.books)

namespace Kept

theorem refl (h : Good P g) : Kept P g g := ⟨.refl h, fun s hs => ⟨s, hs, rfl⟩⟩

theorem trans (h : Kept P g g') (h' : Kept P g' g'') : Kept P g g'' := by
  refine ⟨h.toServed.trans h'.toServed, fun s'' hs => ?_⟩
  obtain ⟨s', hm, hi⟩ := h'.origin s'' hs
  obtain ⟨s, hm', hi'⟩ := h.origin s' hm
  exact ⟨s, hm', hi.trans hi'⟩

theorem bind (h : Kept P g g') (h' : Good P g' → Kept P g' g'') : Kept P g g'' :=
  h.trans (h' h.books)

end Kept

theorem ServiceBooks.of_ids (h : ServiceBooks g v) (hl : v'.ledger = v.ledger)
    (hi : g'.idsOf v.index = g.idsOf v.index) : ServiceBooks g' v' := by
  obtain ⟨hx, hc, hb⟩ : v'.index = v.index ∧ v'.sessionCount = v.sessionCount ∧
      v'.sessionBitmap = v.sessionBitmap := by
    simpa only [ledger, Prod.mk.injEq] using hl
  constructor
  · rw [hc, hx, ← length_idsOf, hi, length_idsOf]
    exact h.count
  · rw [hx, hi]
    exact h.ids
  · rw [hx, hi]
    exact h.range
  · rw [hx, hi, hb]
    exact h.bitmap

theorem Same.idsOf (h : Same P g g') (i : Nat) : g'.idsOf i = g.idsOf i := by
  obtain ⟨f, hf, hs⟩ := h.sessions
  have hof : g'.sessionsOf i = (g.sessionsOf i).map f := by
    rw [sessionsOf, hf, filter_map, sessionsOf]
    congr 1
    exact filter_congr fun s hm => by rw [Function.comp_apply, ident_srv (hs s hm).1]
  rw [Globals.idsOf, hof, map_map, Globals.idsOf]
  exact map_congr_left fun s hm => ident_sessionId (hs s (mem_sessionsOf.1 hm).1).1

theorem Same.mem_ledger (h : Same P g g') (hv : v' ∈ g'.services) :
    ∃ v ∈ g.services, v.ledger = v'.ledger :=
  mem_map.1 (h.services ▸ mem_map_of_mem hv)

theorem map_index_eq {l l' : List Service} (h : l'.map ledger = l.map ledger) :
    l'.map index = l.map index := by
  have hfst (l : List Service) : l.map index = (l.map ledger).map Prod.fst := by
    rw [map_map]
    rfl
  rw [hfst, h, ← hfst]

theorem listed_of_map_index (h : g'.services.map index = g.services.map index)
    (hv : ∃ v ∈ g.services, v.index = i) : ∃ v ∈ g'.services, v.index = i := by
  rw [← mem_map] at hv ⊢
  exact h ▸ hv

/-- One service is edited, and the others keep their ids. -/
theorem services_of_edit (hb : Books g)
    (h : g'.services.map ledger = (edit index i f g.services).map ledger)
    (hi : ∀ v ∈ g.services, v.index = i → ServiceBooks g' (f v))
    (hids : ∀ j, j ≠ i → g'.idsOf j = g.idsOf j) : ∀ v ∈ g'.services, ServiceBooks g' v := by
  intro v' hv'
  obtain ⟨w, hw, hwl⟩ := mem_map.1 (h ▸ mem_map_of_mem hv')
  obtain ⟨v, hv, rfl⟩ := mem_edit.1 hw
  by_cases hx : v.index = i
  · rw [if_pos hx] at hwl
    exact (hi v hv hx).of_ids hwl.symm rfl
  · rw [if_neg hx] at hwl
    exact (hb.services v hv).of_ids hwl.symm (hids v.index hx)

theorem Same.kept (h : Same P g g') (hb : Good P g) : Kept P g g' := by
  obtain ⟨f, hf, hs⟩ := h.sessions
  have hmap {β : Type} (p : Session → β) (hp : ∀ s s', s'.ident = s.ident → p s' = p s) :
      g'.sessions.map p = g.sessions.map p := by
    rw [hf, map_map]
    exact map_congr_left fun s hm => hp s (f s) (hs s hm).1
  have hmem : ∀ s' ∈ g'.sessions, ∃ s ∈ g.sessions, s'.ident = s.ident := by
    intro s' hm
    obtain ⟨s, hm', rfl⟩ := mem_map.1 (hf ▸ hm)
    exact ⟨s, hm', (hs s hm').1⟩
  have howned (hp : P) : Owned g' := by
    refine (hb.owned hp).of_origin h.next h.died fun s' hm => ?_
    obtain ⟨s, hm', rfl⟩ := mem_map.1 (hf ▸ hm)
    exact ⟨s, hm', (hs s hm').1, fun hd => ident_opener (hs s hm').1 ▸ (hs s hm').2 hp hd⟩
  refine ⟨⟨h.toGrown, ⟨⟨fun v' hv => ?_, fun s' hm => ?_, ?_, ?_, ?_, fun s' hm => ?_,
    fun s' hm => ?_⟩, howned⟩, fun s hm => .inl ⟨f s, hf ▸ mem_map_of_mem hm, (hs s hm).1⟩⟩,
    hmem⟩
  · obtain ⟨v, hv', hl⟩ := h.mem_ledger hv
    exact (hb.services v hv').of_ids hl.symm (h.idsOf v.index)
  · obtain ⟨s, hm', hi⟩ := hmem s' hm
    rw [ident_taskId hi, h.tasks]
    exact hb.live s hm'
  · rw [hmap _ fun _ _ => ident_taskId]
    exact hb.own
  · rw [map_index_eq h.services]
    exact hb.indices
  · rw [hmap _ fun _ _ => ident_ref]
    exact hb.refs
  · obtain ⟨s, hm', hi⟩ := hmem s' hm
    rw [ident_ref hi]
    exact Nat.lt_of_lt_of_le (hb.fresh s hm') h.next
  · obtain ⟨s, hm', hi⟩ := hmem s' hm
    rw [ident_srv hi]
    exact listed_of_map_index (map_index_eq h.services) (hb.listed s hm')

theorem Same.trans (h : Same P g g') (h' : Same P g' g'') : Same P g g'' := by
  obtain ⟨f, hf, hid⟩ := h.sessions
  obtain ⟨f', hf', hid'⟩ := h'.sessions
  refine ⟨h.toGrown.trans h'.toGrown, ⟨f' ∘ f, by rw [hf', hf, map_map], fun s hs => ?_⟩,
    h'.services.trans h.services, h'.tasks.trans h.tasks⟩
  obtain ⟨hi, hd⟩ := hid s hs
  obtain ⟨hi', hd'⟩ := hid' (f s) (hf ▸ mem_map_of_mem hs)
  refine ⟨hi'.trans hi, fun hp hst => ?_⟩
  rcases hd' hp hst with hst | hdead
  · exact (hd hp hst).imp_right fun ⟨t, ht, ho⟩ => ⟨t, h'.died ht, ho⟩
  · exact .inr (ident_opener hi ▸ hdead)

theorem Touch.kept (h : Touch (g.allows P) g g') (hb : Good P g) : Kept P g g' := h.same.kept hb

/-- The books of a service of which the session `s` is taken out. -/
def Service.without (s : Session) (v : Service) : Service :=
  { v with sessionCount := countDown v.sessionCount,
           sessionBitmap := clrBit v.sessionBitmap (s.sessionId - 1) }

@[simp] theorem without_index : (v.without s).index = v.index := rfl

@[simp] theorem without_sessionCount : (v.without s).sessionCount = countDown v.sessionCount := rfl

@[simp] theorem without_sessionBitmap :
    (v.without s).sessionBitmap = clrBit v.sessionBitmap (s.sessionId - 1) := rfl

/-- From `g` to `g'` the session `s` is released. -/
structure Removed (s : Session) (g g' : Globals) : Prop where
  mem : s ∈ g.sessions
  sessions : g'.sessions = delete ref s.ref g.sessions
  services : g'.services.map ledger =
    (edit index s.srv (without s) g.services).map ledger
  tasks : g'.tasks = g.tasks.erase s.taskId
  next : g.next ≤ g'.next
  died : g'.died = g.died
  out : ∃ l, g'.out = g.out ++ l ∧ ∀ o ∈ l, o.notSend
  deleted : .deleted s.taskId ∈ g'.out

theorem countDown_eq (h : 0 < n) : countDown n = n - 1 := if_neg (by omega)

theorem countUp_eq (h : n ≤ maxSessionId) : countUp n = n + 1 :=
  if_neg (by rw [maxSessionId] at h; omega)

theorem Books.eq_of_ref (h : Books g) {s : Session} (hs : s ∈ g.sessions) (ht : t ∈ g.sessions)
    (hr : s.ref = t.ref) : s = t :=
  inj_on_of_nodup_map h.refs hs ht hr

theorem Books.eq_of_taskId (h : Books g) {s : Session} (hs : s ∈ g.sessions)
    (ht : t ∈ g.sessions) (hr : s.taskId = t.taskId) : s = t :=
  inj_on_of_nodup_map h.own hs ht hr

section

variable (h : Removed s g g')
include h

theorem Removed.sessionsOf (i : Nat) :
    g'.sessionsOf i = delete ref s.ref (g.sessionsOf i) := by
  rw [Globals.sessionsOf, h.sessions, delete, delete, Globals.sessionsOf,
    filter_filter, filter_filter]
  exact filter_congr fun t _ => Bool.and_comm _ _

/-- The ids of the service of the session released: its own is gone. -/
theorem Removed.mem_idsOf (hb : Books g) (hv : v ∈ g.services) (hx : v.index = s.srv) {id : Nat} :
    id ∈ g'.idsOf v.index ↔ id ∈ g.idsOf v.index ∧ id ≠ s.sessionId := by
  rw [idsOf, h.sessionsOf, mem_map, idsOf, mem_map]
  constructor
  · rintro ⟨t, ht, rfl⟩
    obtain ⟨hm, hne⟩ := mem_delete.1 ht
    refine ⟨⟨t, hm, rfl⟩, fun hid => hne ?_⟩
    have hst : t = s := inj_on_of_nodup_map (hb.services v hv).ids hm
      (mem_sessionsOf.2 ⟨h.mem, hx.symm⟩) hid
    rw [hst]
  · rintro ⟨⟨t, ht, rfl⟩, hne⟩
    refine ⟨t, mem_delete.2 ⟨ht, fun hr => hne ?_⟩, rfl⟩
    rw [hb.eq_of_ref (mem_sessionsOf.1 ht).1 h.mem hr]

theorem Removed.serviceBooks (hb : Books g) (hv : v ∈ g.services) (hx : v.index = s.srv) :
    ServiceBooks g' (v.without s) := by
  have hsb := hb.services v hv
  have hmem : s ∈ g.sessionsOf v.index := mem_sessionsOf.2 ⟨h.mem, hx.symm⟩
  have hrange := hsb.range s.sessionId (mem_map_of_mem hmem)
  rw [maxSessionId] at hrange
  have hlen : (g'.sessionsOf v.index).length + 1 = (g.sessionsOf v.index).length := by
    rw [h.sessionsOf]
    exact length_delete (hb.refs.sublist (filter_sublist.map _)) hmem
  refine ⟨?_, ?_, fun id hid => ?_, fun i => ?_⟩
  · rw [without_sessionCount, without_index, countDown_eq (by rw [hsb.count]; omega), hsb.count]
    omega
  · rw [without_index, idsOf, h.sessionsOf]
    exact hsb.ids.sublist (delete_sublist.map _)
  · exact hsb.range id ((h.mem_idsOf hb hv hx).1 hid).1
  · rw [without_sessionBitmap, without_index, getLsbD_clrBit (by omega), h.mem_idsOf hb hv hx,
      Bool.and_eq_true, hsb.bitmap i, Bool.not_eq_true', decide_eq_false_iff_not]
    refine and_congr_right fun _ => not_congr ?_
    omega

theorem Removed.idsOf_of_ne (hb : Books g) (hx : i ≠ s.srv) : g'.idsOf i = g.idsOf i := by
  rw [idsOf, h.sessionsOf, delete_of_forall_ne fun t ht hr => ?_, idsOf]
  obtain ⟨hm, hsrv⟩ := mem_sessionsOf.1 ht
  exact hx (by rw [← hsrv, hb.eq_of_ref hm h.mem hr])

theorem Removed.kept (hb : Good P g) : Kept P g g' := by
  have hmem {t : Session} : t ∈ g'.sessions ↔ t ∈ g.sessions ∧ t.ref ≠ s.ref :=
    h.sessions ▸ mem_delete
  have hsub : g'.sessions.Sublist g.sessions := h.sessions ▸ delete_sublist
  have hidx := (map_index_eq h.services).trans (map_edit fun v _ _ => rfl)
  have howned (hp : P) : Owned g' := by
    refine (hb.owned hp).of_origin h.next (fun _ hd => h.died ▸ hd) fun t ht => ?_
    exact ⟨t, (hmem.1 ht).1, rfl, .inl⟩
  obtain ⟨l, hout, hquiet⟩ := h.out
  refine ⟨⟨.of_notSend h.next h.died hout hquiet, ⟨⟨?_, fun t ht => ?_, ?_, hidx ▸ hb.indices, ?_,
    fun t ht => ?_, fun t ht => listed_of_map_index hidx (hb.listed t (hmem.1 ht).1)⟩, howned⟩,
    fun t ht => ?_⟩, fun t ht => ⟨t, (hmem.1 ht).1, rfl⟩⟩
  · exact services_of_edit hb.toBooks h.services (fun v hv hx => h.serviceBooks hb.toBooks hv hx)
      fun i hi => h.idsOf_of_ne hb.toBooks hi
  · obtain ⟨hm, hne⟩ := hmem.1 ht
    rw [h.tasks]
    refine (mem_erase_of_ne fun htask => hne ?_).2 (hb.live t hm)
    rw [hb.eq_of_taskId hm h.mem htask]
  · exact hb.own.sublist (hsub.map _)
  · exact hb.refs.sublist (hsub.map _)
  · exact Nat.lt_of_lt_of_le (hb.fresh t (hmem.1 ht).1) h.next
  · by_cases hr : t.ref = s.ref
    · rw [hb.eq_of_ref ht h.mem hr]
      exact .inr h.deleted
    · exact .inl ⟨t, hmem.2 ⟨ht, hr⟩, rfl⟩

end

theorem service?_eq_some (h : g.service? i = some v) : v ∈ g.services ∧ v.index = i := by
  have hi := find?_some h
  exact ⟨mem_of_find?_eq_some h, of_decide_eq_true hi⟩

theorem session?_eq_some (h : g.session? r = some s) : s ∈ g.sessions ∧ s.ref = r := by
  have hr := find?_some h
  exact ⟨mem_of_find?_eq_some h, of_decide_eq_true hr⟩

/-- A change of neither sessions nor ledgers. -/
theorem Same.of_eq (sessions : g'.sessions = g.sessions)
    (services : g'.services.map ledger = g.services.map ledger)
    (tasks : g'.tasks = g.tasks) (grown : Grown P g g') : Same P g g' :=
  ⟨grown, ⟨id, by rw [sessions, map_id], fun _ _ => ⟨rfl, fun _ => .inl⟩⟩, services, tasks⟩

/-- An edit that leaves a session its identity, and marks it only if its caller died. -/
theorem same_editSession {f : Session → Session} (hf : ∀ s, (f s).ident = s.ident)
    (hd : P → ∀ s ∈ g.sessions, s.ref = r → (f s).sessionStatus = .fatherDead →
      s.sessionStatus = .fatherDead ∨ ∃ t ∈ g.died, s.opener = .task t) :
    Same P g (g.editSession r f) := by
  refine ⟨.of_eq rfl rfl rfl, ⟨fun s => if s.ref = r then f s else s, rfl, fun s hs => ?_⟩, rfl, rfl⟩
  by_cases hr : s.ref = r
  · simp only [if_pos hr]
    exact ⟨hf s, fun hp => hd hp s hs hr⟩
  · simp only [if_neg hr]
    exact ⟨trivial, fun _ => .inl⟩

/-- The counter of a service goes down and an id is given back, in one edit. -/
theorem edit_without {l : List Service} : edit index i
      (fun v => { v with sessionBitmap := clrBit v.sessionBitmap (s.sessionId - 1) })
      (edit index i (fun v => { v with sessionCount := countDown v.sessionCount }) l) =
    edit index i (without s) l :=
  edit_edit fun _ => rfl

theorem notSend_release {node : Option PamNode} :
    ∀ o ∈ node.toList.map fun n => Out.release n.ref, o.notSend := by
  intro o ho
  obtain ⟨n, -, rfl⟩ := mem_map.1 ho
  trivial

variable (hb : Good P g)
include hb

/-- A service without sessions may go. -/
theorem kept_services {vs : List Service} (hsub : vs.Sublist g.services)
    (hgone : ∀ v ∈ g.services, v ∉ vs → v.sessionCount = 0) :
    Kept P g { g with services := vs } := by
  refine ⟨⟨.of_eq rfl rfl rfl, ⟨⟨fun v hv => (hb.services v (hsub.subset hv)).of_ids rfl rfl,
    hb.live, hb.own, hb.indices.sublist (hsub.map _), hb.refs, hb.fresh, fun s hs => ?_⟩,
    fun hp => (hb.owned hp).of_eq rfl rfl rfl⟩,
    fun s hs => .inl ⟨s, hs, rfl⟩⟩, fun s hs => ⟨s, hs, rfl⟩⟩
  obtain ⟨v, hv, hx⟩ := hb.listed s hs
  by_cases hin : v ∈ vs
  · exact ⟨v, hin, hx⟩
  · have hlen : (g.sessionsOf v.index).length = 0 :=
      (hb.services v hv).count.symm.trans (hgone v hv hin)
    have hm : s ∈ g.sessionsOf v.index := mem_sessionsOf.2 ⟨hs, hx.symm⟩
    rw [eq_nil_of_length_eq_zero hlen] at hm
    cases hm

theorem kept_processReleaseService (hv : g.service? i = some v) (hc : v.sessionCount = 0) :
    Kept P g (g.processReleaseService i) := by
  obtain ⟨hmv, hx⟩ := service?_eq_some hv
  refine kept_services hb delete_sublist fun w hw hgone => ?_
  have hi : w.index = i := by
    by_contra hne
    exact hgone (mem_delete.2 ⟨hw, hne⟩)
  rw [inj_on_of_nodup_map hb.indices hw hmv (hi.trans hx.symm)]
  exact hc

/-- A change of what the books do not speak about. -/
theorem Kept.of_eq (core : g'.core = g.core) (next : g'.next = g.next) (out : g'.out = g.out) :
    Kept P g g' := by
  simp only [Globals.core, Prod.mk.injEq] at core
  obtain ⟨sessions, services, tasks, died⟩ := core
  exact Same.kept (.of_eq sessions (by rw [services]) tasks (.of_eq next died out)) hb

theorem kept_editService (hf : ∀ v, (f v).ledger = v.ledger) : Kept P g (g.editService i f) :=
  Same.kept (.of_eq rfl (map_edit fun v _ _ => hf v) rfl (.of_eq rfl rfl rfl)) hb

theorem kept_editSession {f : Session → Session} (hf : ∀ s, (f s).frame = s.frame) :
    Kept P g (g.editSession r f) :=
  (same_editSession (fun s => ident_of_frame (hf s)) fun _ s _ _ hd =>
    .inl ((status_of_frame (hf s)).symm.trans hd)).kept hb

theorem kept_releaseSession (hi : ∀ s, g.session? r = some s → s.srv = i) :
    Kept P g (g.releaseSession env i r).2 := by
  unfold releaseSession
  split
  · next v s hv hs =>
    obtain ⟨hm, rfl⟩ := session?_eq_some hs
    obtain rfl := hi s hs
    refine Removed.kept ⟨hm, rfl, ?_, rfl, Nat.le_refl _, rfl, ⟨_, append_assoc _ _ _,
      fun o ho => ?_⟩, ?_⟩ hb
    · exact congrArg (List.map ledger) edit_without
    · rcases mem_cons.1 ho with rfl | ho
      · trivial
      · exact notSend_release o ho
    · exact mem_append_left _ (mem_append_right _ (mem_singleton_self _))
  · exact .refl hb

theorem kept_retireService {sre : SreRet} {fresh : Bool} :
    Kept P g (g.retireService i sre fresh) := by
  unfold retireService
  split
  · exact .refl hb
  · next v hv =>
    have hrestart :
        Kept P g (g.editService i fun v => { v with initBuild := false, serviceThread := 0 }) :=
      kept_editService hb fun _ => rfl
    split
    · split_ifs with hc
      · exact kept_processReleaseService hb hv hc
      · exact hrestart
      · exact .refl hb
    · split_ifs with hc
      · exact kept_processReleaseService hb hv (by simpa using (Bool.and_eq_true_iff.1 hc).1)
      · exact .refl hb
      · exact hrestart
      · exact .refl hb
      · exact .refl hb

theorem kept_processCloseSessionEntry (hi : ∀ s, g.session? r = some s → s.srv = i) :
    Kept P g (g.processCloseSessionEntry env i r) := by
  have h : Kept P g (g.releaseSession env i r).2 := kept_releaseSession hb hi
  exact h.trans (kept_retireService h.books)

end TeeOs.Gtask
