import TeeOs.Ssa.Agent

/-!
# Transfers in parts

The client library transfers in parts when a shared buffer of the whole size is refused. The parts
before a refused one stay written. A service that answers more than was asked is believed: each part
of a read may fill the whole size of the caller's buffer, from where the last one ended.
-/

namespace TeeOs.Ssa.Split

open Lib.Bytes List

/-- `dataSize` and `dataPosition` of an object. -/
structure Info where
  size : Nat
  pos : Nat
  deriving DecidableEq

/-- How the agent answers the messages about one object. -/
structure Service (σ : Type) where
  write : List UInt8 → σ → Except TeeResult Info × σ
  /-- The count, and the memory from the start of the shared buffer on. -/
  read : Nat → σ → Except TeeResult (Nat × Info) × (Nat → UInt8) × σ
  abort : σ → σ

def fillNum : Nat := 4

/-- The size of the shared buffer. The parts are doubled while they are fewer than
`MAX_SPLIT_NUM` and the allocation is refused. -/
def allocSharemem (alloc : Nat → Bool) (size : Nat) : Option Nat :=
  ([1, 2, 4].find? alloc).map fun split => if split = 1 then size else size/split + fillNum

section

variable {σ : Type} (S : Service σ)

def writeLoop (bufSize : Nat) : Nat → List UInt8 → σ → Except TeeResult Info × σ
  | 0, _, st => (.error .generic, st)
  | fuel+1, p, st =>
    match S.write (p.take bufSize) st with
    | (.error e, st) => (.error e, st)
    | (.ok info, st) =>
      if p.length ≤ bufSize then (.ok info, st) else writeLoop bufSize fuel (p.drop bufSize) st

def writeObjectDataProc (alloc : Nat → Bool) (d : List UInt8) (st : σ) : Except TeeResult Info × σ :=
  match allocSharemem alloc d.length with
  | none => (.error .outOfMemory, S.abort st)
  | some bufSize => writeLoop S bufSize d.length d st

/-- A read under way, with what has been stored from the start of the caller's buffer on. -/
structure Reading (σ : Type) where
  ret : Except TeeResult Unit
  count : Nat
  out : List UInt8
  info : Info
  st : σ

def readLoop (bufSize size : Nat) : Nat → Reading σ → Reading σ
  | 0, r => r
  | fuel+1, r =>
    if size ≤ r.count then r
    else
      match S.read (min bufSize (size-r.count)) r.st with
      | (.error e, _, st) => { r with ret := .error e, count := 0, st := st }
      | (.ok (count, info), mem, st) =>
        if count = 0 then { r with ret := .ok (), info := info, st := st }
        -- `memmove_s` is given the whole size again
        else if size < count then { r with ret := .error .security, info := info, st := st }
        else readLoop bufSize size fuel
          ⟨.ok (), r.count+count, r.out ++ (List.range count).map mem, info, st⟩

def readObjectDataProc (alloc : Nat → Bool) (size : Nat) (info : Info) (st : σ) :
    Option (Reading σ) :=
  (allocSharemem alloc size).map fun bufSize =>
    readLoop S bufSize size size ⟨.error .generic, 0, [], info, st⟩

/-- The bytes of the parts that the service accepts. -/
def accepted (bufSize : Nat) : Nat → List UInt8 → σ → List UInt8
  | 0, _, _ => []
  | fuel+1, p, st =>
    match S.write (p.take bufSize) st with
    | (.error _, _) => []
    | (.ok _, st) => p.take bufSize ++
        if p.length ≤ bufSize then [] else accepted bufSize fuel (p.drop bufSize) st

end

/-- The data of an object and the position in it. -/
structure Object where
  data : List UInt8
  pos : Nat
  pos_le : pos ≤ data.length

namespace Object

variable (o : Object) (d : List UInt8)

def write : Object := ⟨overlay o.data o.pos d, o.pos+d.length, by simp⟩

def info : Info := ⟨o.data.length, o.pos⟩

theorem ext {o o' : Object} (hd : o.data = o'.data) (hp : o.pos = o'.pos) : o = o' := by
  cases o
  cases o'
  cases hd
  cases hp
  rfl

theorem write_nil : o.write [] = o := ext (overlay_nil _ o.pos_le) rfl

theorem write_append (d' : List UInt8) : o.write (d ++ d') = (o.write d).write d' := by
  have hpos := o.pos_le
  refine ext (ext_cell ?_ fun i _ => ?_) ?_
  · simp only [write, length_overlay, length_append]
    omega
  · simp only [write, cell_overlay, length_append, cell_append]
    grind
  · simp only [write, length_append, Nat.add_assoc]

end Object

variable {σ : Type} {S : Service σ} {view : σ → Object}

/-- The service keeps an object: a refused write leaves it, a read answers at most what was asked,
and nothing only at the end. -/
structure Service.Keeps (S : Service σ) (view : σ → Object) : Prop where
  written : ∀ {d st info st'}, S.write d st = (.ok info, st') →
    view st' = (view st).write d ∧ info = (view st').info
  refused : ∀ {d st e st'}, S.write d st = (.error e, st') → view st' = view st
  data : ∀ {n st r mem st'}, S.read n st = (r, mem, st') → (view st').data = (view st).data
  read : ∀ {n st count info mem st'}, S.read n st = (.ok (count, info), mem, st') →
    count ≤ n ∧ (view st').pos = (view st).pos+count ∧ info = (view st').info ∧
      (range count).map mem = ((view st).data.drop (view st).pos).take count ∧
      (count = 0 → n = 0 ∨ (view st).pos = (view st).data.length)

/-- A write has the outcome of one message: all is written and reported, or nothing. -/
def WrittenAsOne (view : σ → Object) (d : List UInt8) (st : σ) (r : Except TeeResult Info × σ) :
    Prop :=
  match r.1 with
  | .ok info => view r.2 = (view st).write d ∧ info = (view r.2).info
  | .error _ => (view r.2).data = (view st).data

/-- A read stays in the caller's buffer, and if it succeeds it has the outcome of one message. -/
structure ReadAsOne (view : σ → Object) (size : Nat) (st : σ) (r : Reading σ) : Prop where
  inside : r.out.length ≤ size
  same : r.ret = .ok () → r.out = ((view st).data.drop (view st).pos).take size ∧
    r.count = r.out.length ∧ (view r.st).data = (view st).data ∧
    (view r.st).pos = (view st).pos+r.count ∧ r.info = (view r.st).info

variable {alloc : Nat → Bool} {b size fuel : Nat} {info : Info} {st : σ} {d : List UInt8}

theorem allocSharemem_pos (hsize : 0 < size) (h : allocSharemem alloc size = some b) : 0 < b := by
  obtain ⟨split, -, rfl⟩ := Option.map_eq_some_iff.mp h
  split
  · exact hsize
  · exact Nat.lt_add_left _ (by decide)

/-- The loop leaves in the object what was accepted, and succeeds only if that is all. -/
theorem writeLoop_spec (h : S.Keeps view) (hb : 0 < b) (hfuel : d.length ≤ fuel) (hd : d ≠ []) :
    view (writeLoop S b fuel d st).2 = (view st).write (accepted S b fuel d st) ∧
      match (writeLoop S b fuel d st).1 with
      | .ok info => accepted S b fuel d st = d ∧ info = (view (writeLoop S b fuel d st).2).info
      | .error _ => accepted S b fuel d st ≠ d := by
  induction fuel generalizing d st with
  | zero => exact absurd (length_eq_zero_iff.mp (Nat.le_zero.mp hfuel)) hd
  | succ fuel ih =>
    rw [writeLoop, accepted]
    rcases hw : S.write (d.take b) st with ⟨e | info, st'⟩
    · exact ⟨(h.refused hw).trans (Object.write_nil _).symm, hd.symm⟩
    obtain ⟨hview, hinfo⟩ := h.written hw
    dsimp only
    split_ifs with hlast
    · rw [append_nil]
      exact ⟨hview, take_of_length_le hlast, hinfo⟩
    · have hrest : (d.drop b).length ≤ fuel := by
        rw [length_drop]
        omega
      have hne : d.drop b ≠ [] := fun hnil => hlast (drop_eq_nil_iff.mp hnil)
      obtain ⟨hview', hout⟩ : view (writeLoop S b fuel (d.drop b) st').2 = _ ∧ _ := ih hrest hne
      refine ⟨by rw [hview', hview, Object.write_append], ?_⟩
      generalize writeLoop S b fuel (d.drop b) st' = r at hout ⊢
      rcases r with ⟨e | info, st''⟩
      · intro heq
        exact hout (append_cancel_left (heq.trans (take_append_drop b d).symm))
      · exact ⟨by rw [hout.1, take_append_drop], hout.2⟩

theorem writeObjectDataProc_asOne_iff (h : S.Keeps view) (hd : d ≠ [])
    (hb : allocSharemem alloc d.length = some b) :
    WrittenAsOne view d st (writeObjectDataProc S alloc d st) ↔
      accepted S b d.length d st = d ∨
        overlay (view st).data (view st).pos (accepted S b d.length d st) = (view st).data := by
  have hpos := allocSharemem_pos (length_pos_iff.mpr hd) hb
  obtain ⟨hview, hout⟩ : view (writeLoop S b d.length d st).2 = _ ∧ _ :=
    writeLoop_spec h hpos (Nat.le_refl _) hd
  rw [writeObjectDataProc, hb]
  dsimp only [WrittenAsOne]
  generalize writeLoop S b d.length d st = r at hview hout ⊢
  rcases r with ⟨e | info, st'⟩
  · rw [or_iff_right hout]
    exact hview ▸ Iff.rfl
  · exact iff_of_true ⟨hview.trans (by rw [hout.1]), hout.2⟩ (.inl hout.1)

/-- A read under way that has stored what the object has from the position on. -/
structure Stored (view : σ → Object) (size : Nat) (st : σ) (r : Reading σ) : Prop where
  out : r.out = ((view st).data.drop (view st).pos).take r.count
  length : r.out.length = r.count
  count_le : r.count ≤ size
  data : (view r.st).data = (view st).data
  pos : (view r.st).pos = (view st).pos+r.count

theorem Stored.readAsOne {r : Reading σ} (hr : Stored view size st r)
    (hall : size ≤ r.count ∨ (view st).data.length ≤ (view st).pos+r.count)
    (hinfo : r.ret = .ok () → r.info = (view r.st).info) : ReadAsOne view size st r := by
  refine ⟨hr.length.trans_le hr.count_le, fun hret => ⟨?_, hr.length.symm, hr.data, hr.pos, hinfo hret⟩⟩
  rw [hr.out]
  rcases hall with hall | hall
  · rw [Nat.le_antisymm hr.count_le hall]
  · have hle : ((view st).data.drop (view st).pos).length ≤ r.count := by
      rw [length_drop]
      omega
    rw [take_of_length_le hle, take_of_length_le (hle.trans hr.count_le)]

theorem readLoop_asOne (h : S.Keeps view) {r : Reading σ} (hb : 0 < b) (hr : Stored view size st r)
    (hfuel : size ≤ r.count+fuel) (hinfo : r.ret = .ok () → r.info = (view r.st).info) :
    ReadAsOne view size st (readLoop S b size fuel r) := by
  induction fuel generalizing r with
  | zero => exact hr.readAsOne (.inl hfuel) hinfo
  | succ fuel ih =>
    rw [readLoop]
    split_ifs with hall
    · exact hr.readAsOne (.inl hall) hinfo
    rcases hread : S.read (min b (size-r.count)) r.st with ⟨e | ⟨count, info⟩, mem, st'⟩
    · exact ⟨hr.length.trans_le hr.count_le, nofun⟩
    have hdata := (h.data hread).trans hr.data
    obtain ⟨hle, hpos, hinfo, hmem, hend⟩ := h.read hread
    dsimp only
    split_ifs with hzero hbig
    · have hstored : Stored view size st { r with ret := .ok (), info := info, st := st' } := by
        refine ⟨hr.out, hr.length, hr.count_le, hdata, ?_⟩
        rw [hpos, hr.pos, hzero, Nat.add_zero]
      refine hstored.readAsOne (.inr ?_) fun _ => hinfo
      have hrest := (hend hzero).resolve_left (by omega)
      rw [hr.data, hr.pos] at hrest
      exact hrest.ge
    · omega
    · refine ih ⟨?_, ?_, ?_, hdata, ?_⟩ ?_ fun _ => hinfo
      · rw [hmem, hr.out, hr.data, hr.pos, take_add, drop_drop]
      · rw [length_append, hr.length, length_map, length_range]
      · show r.count+count ≤ size
        omega
      · rw [hpos, hr.pos, Nat.add_assoc]
      · show size ≤ r.count+count+fuel
        omega

theorem readObjectDataProc_asOne (h : S.Keeps view) (hsize : 0 < size)
    (hb : allocSharemem alloc size = some b) :
    ∃ r, readObjectDataProc S alloc size info st = some r ∧ ReadAsOne view size st r := by
  rw [readObjectDataProc, hb]
  refine ⟨_, rfl, readLoop_asOne h (allocSharemem_pos hsize hb) ?_ (Nat.le_add_left _ _) nofun⟩
  exact ⟨rfl, rfl, Nat.zero_le _, rfl, rfl⟩

/-- A service that answers one byte, and then as many as the caller's buffer has in all. -/
def stutter (size : Nat) : Service Bool where
  write _ st := (.error .generic, st)
  read _ st := (.ok (if st then size else 1, ⟨0, 0⟩), fun _ => 0, true)
  abort st := st

theorem stutter_overruns (n : Nat) :
    ∃ r ∈ readObjectDataProc (stutter (n+2)) (fun _ => true) (n+2) ⟨0, 0⟩ false,
      r.out.length = n+3 := by
  refine ⟨_, rfl, ?_⟩
  cases n <;> simp [stutter, readLoop]

theorem length_out_one {τ : Type} (T : Service τ) (st : τ) :
    ∀ r ∈ readObjectDataProc T alloc 1 info st, r.out.length ≤ 1 := by
  intro r hr
  obtain ⟨b, -, rfl⟩ := Option.map_eq_some_iff.mp hr
  rcases h : T.read (min b 1) st with ⟨e | ⟨count, info'⟩, mem, st'⟩
  · simp [readLoop, h]
  · simp only [readLoop, Nat.sub_zero, h]
    split_ifs <;> simp
    omega

/-- An object of at most `max` bytes behind a service that answers all it has. -/
def limited (max : Nat) : Service Object where
  write d o := if o.pos+d.length ≤ max then (.ok (o.write d).info, o.write d) else (.error .generic, o)
  read n o :=
    let count := min n (o.data.length-o.pos)
    let o' : Object := ⟨o.data, o.pos+count, by have := o.pos_le; omega⟩
    (.ok (count, o'.info), fun i => o.data.getD (o.pos+i) 0, o')
  abort o := o

theorem keeps_limited (max : Nat) : (limited max).Keeps id where
  written := by
    intro d o info o' h
    simp only [limited] at h
    split_ifs at h
    · cases h
      exact ⟨rfl, rfl⟩
    · cases h
  refused := by
    intro d o e o' h
    simp only [limited] at h
    split_ifs at h
    · cases h
    · cases h
      rfl
  data := by
    intro n o r mem o' h
    cases h
    rfl
  read := by
    intro n o count info mem o' h
    cases h
    have hpos := o.pos_le
    refine ⟨Nat.min_le_left _ _, rfl, rfl, ext_getElem ?_ fun i hi _ => ?_, fun hzero => ?_⟩
    · simp
    · simp only [length_map, length_range] at hi
      simp only [getElem_map, getElem_range, id, getElem_take, getElem_drop]
      exact getD_eq_getElem _ _ (by omega)
    · show n = 0 ∨ o.pos = o.data.length
      omega

def empty : Object := ⟨[], 0, Nat.le_refl 0⟩

end TeeOs.Ssa.Split
