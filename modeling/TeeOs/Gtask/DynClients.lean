import TeeOs.Lib.Runs

/-!
# The list of the dynamic clients

A client library that is loaded is recorded with its word size. `find_record` should find
it again, but the length that it hands to `TEE_MemCompare` is the outcome of a comparison,
so it finds nothing: a client that is loaded again takes another place, or fails.
-/

namespace TeeOs.Gtask.DynLoad

open List Lib.Runs

def maxRecordListNum : Nat := 10
def clientNameSize : Nat := 72
def libNameMax : Nat := 64

/-- A load of a client library: the name that `uuid_to_libname` wrote into `fname`, the word
size, whether the file was checked and stored, and whether memory is left. -/
structure ClientLoad where
  name : List UInt8
  fnameSize : Nat
  is64bit : Bool
  stored : Bool
  memory : Bool
  name_pos : 0 < name.length
  name_lt : name.length < fnameSize
  fname_le : fnameSize ≤ libNameMax
  deriving DecidableEq

/-- `dyn_client_t`: the name up to its end, and the word size. -/
abbrev DynClient := List UInt8 × Bool

def ClientLoad.client (c : ClientLoad) : DynClient := (c.name, c.is64bit)

/-- `TEE_MemCompare` finds a difference. -/
def memDiffers (a b : List UInt8) (size : Nat) : Bool := a.take size ≠ b.take size

variable (l : List DynClient) (c : ClientLoad)

def findRecord : Bool :=
  l.any fun n => n.1.length = c.fnameSize &&
    memDiffers n.1 c.name (if c.name.length = 0 then 1 else 0) && n.2 = c.is64bit

/-- `add_dyn_client_to_list`; `g_client_num` is the length of the list. -/
def addDynClientToList : List DynClient × Bool :=
  if findRecord l c then (l, true)
  else if l.length ≥ maxRecordListNum then (l, false)
  else if c.memory then (l ++ [c.client], true)
  else (l, false)

/-- `dynamic_load_lib_elf` for a client. -/
def dynamicLoadLibElf : List DynClient × Bool :=
  if c.stored then addDynClientToList l c else (l, false)

/-- What `get_dyn_client_name` writes, and where. -/
def getDynClientName (is64bit : Bool) (size : Nat) : Nat → List DynClient → List (Nat × List UInt8)
  | _, [] => []
  | count, n :: l =>
    if n.2 ≠ is64bit then getDynClientName is64bit size count l
    else if count * clientNameSize ≥ size then []
    else if size - count * clientNameSize < n.1.length then getDynClientName is64bit size count l
    else (count * clientNameSize, n.1) :: getDynClientName is64bit size (count + 1) l

/-- The recorded names of a word size. -/
def namesOf (is64bit : Bool) (l : List DynClient) : List (List UInt8) :=
  (l.filter fun n => n.2 = is64bit).map Prod.fst

def step : List DynClient := (dynamicLoadLibElf l c).1

/-- A load acts on a set: it adds its client once, a recorded client is loaded again without
a place, and a failed load changes nothing. -/
structure LoadsIntoSet (l : List DynClient) (c : ClientLoad) : Prop where
  added : (dynamicLoadLibElf l c).2 = true →
    ∀ p, (step l c).count p = if p = c.client then 1 else l.count p
  again : c.stored = true → c.client ∈ l → dynamicLoadLibElf l c = (l, true)
  failed : (dynamicLoadLibElf l c).2 = false → step l c = l

/-- The list is a set through all loads, and its names are handed out in their places. -/
structure RegistryIsSet (cs : List ClientLoad) : Prop where
  loads : Along step LoadsIntoSet [] cs
  names : ∀ is64bit size, clientNameSize * (namesOf is64bit (runs step [] cs)).length ≤ size →
    getDynClientName is64bit size 0 (runs step [] cs) =
      (namesOf is64bit (runs step [] cs)).mapIdx fun i n => (i * clientNameSize, n)
  inside : ∀ is64bit size, ∀ w ∈ getDynClientName is64bit size 0 (runs step [] cs),
    w.1 + w.2.length ≤ size

variable {l : List DynClient} {c : ClientLoad} {is64bit : Bool} {size count : Nat}

/-- No byte is compared, since a name is never empty. -/
theorem findRecord_eq_false : findRecord l c = false := by
  have hname : c.name.length ≠ 0 := Nat.ne_of_gt c.name_pos
  rw [findRecord, if_neg hname, any_eq_false]
  intro n _
  simp [memDiffers]

theorem dynamicLoadLibElf_eq (l : List DynClient) (c : ClientLoad) : dynamicLoadLibElf l c =
    if c.stored = true ∧ l.length < maxRecordListNum ∧ c.memory = true
    then (l ++ [c.client], true) else (l, false) := by
  rw [dynamicLoadLibElf, addDynClientToList, findRecord_eq_false]
  grind

theorem loadsIntoSet_iff : LoadsIntoSet l c ↔ (c.stored = true → c.client ∉ l) := by
  constructor
  · intro h hstored hmem
    have hsame := h.again hstored hmem
    rw [dynamicLoadLibElf_eq] at hsame
    split at hsame
    · have hlen := congrArg (fun r => r.1.length) hsame
      simp at hlen
    · cases hsame
  · intro h
    refine ⟨fun hok p => ?_, fun hs hmem => absurd hmem (h hs), fun hfail => ?_⟩
    · rw [step]
      rw [dynamicLoadLibElf_eq] at hok ⊢
      split at hok
      · next hadd =>
        rw [if_pos hadd, count_append, count_singleton]
        by_cases hp : p = c.client
        · rw [if_pos hp, hp, count_eq_zero_of_not_mem (h hadd.1), beq_self_eq_true, if_pos rfl]
        · rw [if_neg hp, if_neg (by simpa using Ne.symm hp), Nat.add_zero]
      · cases hok
    · rw [step]
      rw [dynamicLoadLibElf_eq] at hfail ⊢
      split at hfail
      · cases hfail
      · next hno => rw [if_neg hno]

theorem getDynClientName_inside (l : List DynClient) :
    ∀ w ∈ getDynClientName is64bit size count l, w.1 + w.2.length ≤ size := by
  induction l generalizing count with
  | nil => nofun
  | cons n l ih =>
    intro w hw
    rw [getDynClientName] at hw
    split at hw
    · exact ih w hw
    split at hw
    · cases hw
    · split at hw
      · exact ih w hw
      · rcases mem_cons.1 hw with rfl | hw
        · dsimp only
          omega
        · exact ih w hw

theorem getDynClientName_all (l : List DynClient) (hl : ∀ n ∈ l, n.1.length < clientNameSize)
    (count : Nat) (hsize : clientNameSize * (count + (namesOf is64bit l).length) ≤ size) :
    getDynClientName is64bit size count l =
      (namesOf is64bit l).mapIdx fun i n => ((count + i) * clientNameSize, n) := by
  induction l generalizing count with
  | nil => rfl
  | cons n l ih =>
    have hn := hl n mem_cons_self
    have hrest := ih fun m hm => hl m (mem_cons_of_mem n hm)
    by_cases hbits : n.2 = is64bit
    · have hnames : namesOf is64bit (n :: l) = n.1 :: namesOf is64bit l := by
        simp [namesOf, hbits]
      rw [hnames, length_cons] at hsize
      simp only [clientNameSize] at hsize hn
      rw [getDynClientName, if_neg (not_not.2 hbits), if_neg (by simp only [clientNameSize]; omega),
        if_neg (by simp only [clientNameSize]; omega), hnames, mapIdx_cons,
        hrest (count + 1) (by simp only [clientNameSize]; omega)]
      simp only [Nat.add_zero, Nat.add_assoc, Nat.add_comm 1]
    · have hnames : namesOf is64bit (n :: l) = namesOf is64bit l := by
        simp [namesOf, hbits]
      rw [getDynClientName, if_pos hbits, hnames, hrest count (hnames ▸ hsize)]

theorem name_lt_runs (cs : List ClientLoad) :
    ∀ n ∈ runs step [] cs, n.1.length < clientNameSize := by
  refine invariant_runs (I := fun l : List DynClient => ∀ n ∈ l, n.1.length < clientNameSize) ?_
    (fun _ hn => absurd hn not_mem_nil) cs
  intro l c h n hn
  rw [step, dynamicLoadLibElf_eq] at hn
  split at hn
  · rcases mem_append.1 hn with hn | hn
    · exact h n hn
    · rw [mem_singleton.1 hn]
      have hlen : c.name.length < libNameMax := Nat.lt_of_lt_of_le c.name_lt c.fname_le
      exact Nat.lt_trans hlen (by decide)
  · exact h n hn

/-- The list of clients is a set exactly as long as no client that is in it is loaded again. -/
theorem registry_is_set_iff (cs : List ClientLoad) : RegistryIsSet cs ↔
    Along step (fun l c => c.stored = true → c.client ∉ l) [] cs := by
  have hload : LoadsIntoSet = fun l c => c.stored = true → c.client ∉ l := by
    funext l c
    exact propext loadsIntoSet_iff
  refine ⟨fun h => hload ▸ h.loads, fun h => ⟨hload ▸ h, fun is64bit size hsize => ?_, ?_⟩⟩
  · rw [getDynClientName_all _ (name_lt_runs cs) 0 (by rwa [Nat.zero_add])]
    simp only [Nat.zero_add]
  · exact fun is64bit size => getDynClientName_inside _

/-- The client of uuid 0 with the library `c`. -/
def sampleClient : ClientLoad :=
  ⟨"/tafs/00000000-0000-0000-0000-000000000000c.so".toList.map fun c => c.toNat.toUInt8,
    64, true, true, true, by decide, by decide, by decide⟩

/-- The client is loaded again after its file is gone. -/
theorem client_recorded_twice : ¬ RegistryIsSet [sampleClient, sampleClient] := by
  intro h
  have hagain := h.loads.2.1.again rfl (by decide)
  exact absurd hagain (by decide)

end TeeOs.Gtask.DynLoad
