import TeeOs.Ssa.Tables

/-!
# The sharing rules of persistent objects

Two handles on one object must have been opened with flags that allow it. The
agent compares a new open only with the link marked `first_opened`, and only the
access the new handle asks for. Over a run the rules hold exactly as long as every
open that is granted also passes what these comparisons leave out.
-/

namespace TeeOs.Ssa

open Lib.Runs Function Tables List Option

section Rules

/-- The kinds of access that handles can share. -/
inductive Access where
  | read
  | write

def DataFlags.access (flags : DataFlags) : Access → Bool
  | .read => flags.accessRead
  | .write => flags.accessWrite

def DataFlags.shares (flags : DataFlags) : Access → Bool
  | .read => flags.shareRead
  | .write => flags.shareWrite

/-- The flags of two handles on one object agree with the rules. -/
structure Compatible (a b : DataFlags) : Prop where
  share : ∀ x, a.access x = true ∨ b.access x = true → a.shares x = true ∧ b.shares x = true
  writeMeta : a.accessWriteMeta = false ∧ b.accessWriteMeta = false

def Tables.linkAt (s : Tables) (i j : Nat) : Option Nat := (s.clients i).fileInstance j

variable (s : Tables)

/-- The link `k` is in use for `sfd`. -/
def Serving (k : Nat) (sfd : LinkedSfd) : Prop :=
  (s.privateStorage k).linkCount ≠ 0 ∧ (s.privateStorage k).sfd = some sfd

/-- The instance `j` of the client in slot `i` is a handle on `sfd`. -/
def OpenHandle (i j : Nat) (sfd : LinkedSfd) : Prop :=
  ∃ k, s.linkAt i j = some k ∧ Serving s k sfd

/-- Two handles are open on one object. -/
def TwoHandles (a b : LinkedSfd) : Prop :=
  a.object = b.object ∧
    ∃ i j i' j', (i, j) ≠ (i', j') ∧ OpenHandle s i j a ∧ OpenHandle s i' j' b

/-- What two handles on one object have to fulfil. -/
structure SharingRules (s : Tables) : Prop where
  read : ∀ a b, TwoHandles s a b → a.flags.accessRead = true →
    a.flags.shareRead = true ∧ b.flags.shareRead = true
  write : ∀ a b, TwoHandles s a b → a.flags.accessWrite = true →
    a.flags.shareWrite = true ∧ b.flags.shareWrite = true
  writeMeta : ∀ a b, TwoHandles s a b → a.flags.accessWriteMeta = false

/-- The flags of the object's links that are marked `first_opened`, or of those that are not. -/
def Tables.openFlags (object : ObjectId) (first : Bool) : List DataFlags :=
  (range maxPrivateOpenFiles).filterMap fun k =>
    if (s.privateStorage k).serves object && (s.privateStorage k).firstOpened == first then
      (s.privateStorage k).sfd.map LinkedSfd.flags
    else none

/-- Left out with the marked handle: an access that it has and the new one does not ask for. -/
def unasked (first new : DataFlags) (x : Access) : Bool :=
  !(first.access x && !new.access x) || first.shares x && new.shares x

/-- Left out with any other handle: an access that only one of the two has. What the marked handle
has too was compared when the later of these two was opened. -/
def unseen (first new other : DataFlags) (x : Access) : Bool :=
  (!(other.access x && !new.access x) || new.shares x) &&
  (!(new.access x && !other.access x && !first.access x) || other.shares x)

/-- Left out when the marked handle has been closed: everything. -/
def unchecked (new other : DataFlags) (x : Access) : Bool :=
  !(other.access x || new.access x) || other.shares x && new.shares x

/-- The new flags pass what the check of the agent leaves out. -/
def overlooked (object : ObjectId) (new : DataFlags) : Bool :=
  match s.openFlags object true with
  | first :: _ =>
    [Access.read, .write].all fun x =>
      unasked first new x && (s.openFlags object false).all (unseen first new · x)
  | [] =>
    (s.openFlags object false).all fun other =>
      [Access.read, .write].all (unchecked new other ·) &&
        !(other.accessWriteMeta || new.accessWriteMeta)

/-- An open that the agent grants also passes what its check leaves out. -/
def heeds (sender : Nat) (fileId : String) (flags : DataFlags) (lost stored : Bool) : Bool :=
  match getSenderClient s sender with
  | none => true
  | some i =>
    let sfd : LinkedSfd := ⟨⟨(s.clients i).uuid, fileId⟩, flags⟩
    !(sharedAccess s sfd.object flags lost && stored &&
        (createFileInstanceToClient s sender sfd).1.isSome) ||
      overlooked s sfd.object flags

def TableMsg.heeded : TableMsg → Bool
  | .create sender fileId flags stored => heeds s sender fileId flags false stored
  | .openObject sender fileId flags stored => heeds s sender fileId flags true stored
  | _ => true

/-- An open comes from a task; the id 0 marks a free slot. -/
def TableMsg.fromTask : TableMsg → Bool
  | .create sender _ _ _ | .openObject sender _ _ _ => sender != 0
  | _ => true

end Rules

section Links

variable {t : Tables} {i j k : Nat} {l : FileLink} {c : Client} {sfd : LinkedSfd} {o : Option Nat}
  {sender : Nat}

/-- Every file instance belongs to a client and has a link of its own, and every link in
use has its instance. The link of the instance `out` has been given back already. -/
structure Linked (t : Tables) (out : Option (Nat × Nat)) : Prop where
  free : ∀ i j, (t.clients i).taskId = 0 → t.linkAt i j = none
  row : ∀ i j k, t.linkAt i j = some k → j < maxClientOpenFiles
  unique : ∀ i j i' j' k, t.linkAt i j = some k → t.linkAt i' j' = some k → (i, j) = (i', j')
  counted : ∀ i j k, t.linkAt i j = some k →
    (t.privateStorage k).linkCount = if out = some (i, j) then 0 else 1
  sfd : ∀ i j k, t.linkAt i j = some k → (t.privateStorage k).sfd ≠ none
  used : ∀ k, (t.privateStorage k).linkCount ≠ 0 → ∃ i j, t.linkAt i j = some k

variable {out : Option (Nat × Nat)}

@[simp, grind =] theorem linkAt_setLink (i' j' : Nat) :
    (t.setLink k l).linkAt i' j' = t.linkAt i' j' := rfl

@[simp] theorem privateStorage_setInstance :
    (t.setInstance i j o).privateStorage = t.privateStorage := rfl

@[grind =] theorem link_setLink (k' : Nat) :
    (t.setLink k l).privateStorage k' = if k' = k then l else t.privateStorage k' :=
  update_apply ..

@[grind =] theorem clients_setClient (i' : Nat) :
    (t.setClient i c).clients i' = if i' = i then c else t.clients i' := update_apply ..

@[grind =] theorem linkAt_setClient (i' j' : Nat) :
    (t.setClient i c).linkAt i' j' = if i' = i then c.fileInstance j' else t.linkAt i' j' := by
  rw [Tables.linkAt, clients_setClient]
  split <;> rfl

@[grind =] theorem linkAt_setInstance (i' j' : Nat) :
    (t.setInstance i j o).linkAt i' j' = if i' = i ∧ j' = j then o else t.linkAt i' j' := by
  rw [setInstance, linkAt_setClient]
  dsimp only
  rw [update_apply]
  by_cases hi : i' = i
  · subst hi
    simp only [true_and, if_true]
    rfl
  · rw [if_neg hi, if_neg (fun h => hi h.1)]

/-- No slot changes its task or its mark. -/
abbrev SameSeats (t t' : Tables) : Prop := ∀ i,
  (t'.clients i).taskId = (t.clients i).taskId ∧ (t'.clients i).dead = (t.clients i).dead

theorem seats_setInstance : SameSeats t (t.setInstance i j o) := by
  intro i'
  rw [Tables.setInstance, clients_setClient]
  split
  · next hi => exact hi ▸ ⟨rfl, rfl⟩
  · exact ⟨rfl, rfl⟩

theorem Linked.counted_one (h : Linked t none) (hk : t.linkAt i j = some k) :
    (t.privateStorage k).linkCount = 1 := (h.counted i j k hk).trans (if_neg nofun)

/-- A slot whose instances stay as they are. -/
theorem Linked.setClient (h : Linked t out) (hc : ∀ j, c.fileInstance j = t.linkAt i j)
    (hfree : c.taskId = 0 → ∀ j, t.linkAt i j = none) : Linked (t.setClient i c) out := by
  obtain ⟨free, row, unique, counted, sfd, used⟩ := h
  have hat : ∀ i' j', (t.setClient i c).linkAt i' j' = t.linkAt i' j' := by grind
  have hlinks : (t.setClient i c).privateStorage = t.privateStorage := rfl
  constructor <;> simp only [hat, hlinks]
  case free => grind
  all_goals assumption

/-- An instance goes, with its link given back. -/
theorem Linked.drop (h : Linked t out) (ho : out = none ∨ out = some (i, j))
    (hk : t.linkAt i j = some k) (hl : l.linkCount = 0) :
    Linked ((t.setLink k l).setInstance i j none) none := by
  obtain ⟨free, row, unique, counted, sfd, used⟩ := h
  constructor <;> try simp only [privateStorage_setInstance]
  case free =>
    intro i' j' ht
    have hnone : t.linkAt i' j' = none := free i' j' ((seats_setInstance i').1 ▸ ht)
    grind
  case used =>
    intro k' hk'
    obtain ⟨i', j', hat⟩ := used k' (by grind)
    exact ⟨i', j', by grind⟩
  all_goals grind

/-- A link that is free goes to a free instance of a client. -/
theorem Linked.give (h : Linked t none) (hi : (t.clients i).taskId ≠ 0)
    (hj : j < maxClientOpenFiles) (hnone : t.linkAt i j = none)
    (hfree : (t.privateStorage k).linkCount = 0) (first : Bool) :
    Linked ((t.setLink k ⟨some sfd, 1, first⟩).setInstance i j (some k)) none := by
  obtain ⟨free, row, unique, counted, hsfd, used⟩ := h
  constructor <;> try simp only [privateStorage_setInstance]
  case free =>
    intro i' j' ht
    have hseat : (t.clients i').taskId = 0 := (seats_setInstance i').1 ▸ ht
    grind
  case used =>
    intro k' hk'
    by_cases hkk : k' = k
    · exact ⟨i, j, by grind⟩
    · obtain ⟨i', j', hold⟩ := used k' (by grind)
      exact ⟨i', j', by grind⟩
  all_goals grind

theorem getSenderClientProc_some {dead : Bool} (h : getSenderClientProc t sender dead = some i) :
    i < srvMaxClients ∧ (t.clients i).taskId = sender ∧ (t.clients i).dead = dead := by
  have hfound := find?_some h
  exact ⟨mem_range.1 (mem_of_find?_eq_some h), of_decide_eq_true hfound⟩

/-- `create_file_instance_to_client` finds no room, or takes a free link and a free instance. -/
theorem createFileInstance_cases (t : Tables) (sender : Nat) (sfd : LinkedSfd) :
    createFileInstanceToClient t sender sfd = (none, t) ∨
      ∃ i j k, (t.clients i).taskId = sender ∧ k < maxPrivateOpenFiles ∧
        (t.privateStorage k).linkCount = 0 ∧ j < maxClientOpenFiles ∧ t.linkAt i j = none ∧
        createFileInstanceToClient t sender sfd = (some (j+1),
          (t.setLink k ⟨some sfd, 1, !opensElsewhere t k sfd.object⟩).setInstance i j (some k)) := by
  unfold createFileInstanceToClient
  split
  · exact .inl rfl
  next i hi =>
  split
  · exact .inl rfl
  next k hk =>
  split
  · exact .inl rfl
  next j hj =>
  have hnone := find?_some hj
  have hfree := find?_some hk
  exact .inr ⟨i, j, k, (getSenderClientProc_some hi).2.1, mem_range.1 (mem_of_find?_eq_some hk),
    of_decide_eq_true hfree, mem_range.1 (mem_of_find?_eq_some hj), isNone_iff_eq_none.1 hnone, rfl⟩

theorem Linked.createFileInstance (h : Linked t none) (sfd : LinkedSfd)
    (hs : sender ≠ 0) : Linked (createFileInstanceToClient t sender sfd).2 none := by
  rcases createFileInstance_cases t sender sfd with heq | ⟨i, j, k, htask, -, hfree, hj, hnone, heq⟩
  · rw [heq]
    exact h
  · rw [heq]
    exact h.give (htask ▸ hs) hj hnone hfree _

theorem Linked.noFiles (h : Linked t out) (hc : noFiles (t.clients i) = true) (j : Nat) :
    t.linkAt i j = none := by
  cases hk : t.linkAt i j with
  | none => rfl
  | some k =>
    have hrow := h.row i j k hk
    have hj := all_eq_true.1 hc j (mem_range.2 hrow)
    have hsome : (t.clients i).fileInstance j = some k := hk
    rw [hsome] at hj
    cases hj

end Links

section Flags

variable {first new other : DataFlags}

theorem forall_access {p : Access → Prop} : (∀ x, p x) ↔ p .read ∧ p .write := by
  constructor
  · intro h
    exact ⟨h .read, h .write⟩
  · rintro ⟨hr, hw⟩ (_ | _)
    · exact hr
    · exact hw

theorem all_access {p : Access → Bool} : [Access.read, .write].all p = true ↔ ∀ x, p x = true := by
  rw [forall_access]
  simp only [all_cons, all_nil, Bool.and_true, Bool.and_eq_true]

theorem Compatible.symm {a b : DataFlags} (h : Compatible a b) : Compatible b a :=
  ⟨fun x hx => (h.share x hx.symm).symm, h.writeMeta.symm⟩

theorem checkSharedAccess_passed (h : checkSharedAccess first new = true) :
    (∀ x, new.access x = true → first.shares x = true ∧ new.shares x = true) ∧
      first.accessWriteMeta = false ∧ new.accessWriteMeta = false := by
  simp only [checkSharedAccess, Bool.and_eq_true, Bool.not_or, Bool.not_eq_true', Bool.and_eq_false_imp,
    Bool.not_eq_false'] at h
  obtain ⟨⟨⟨hr, hw⟩, hm⟩, -⟩ := h
  exact ⟨forall_access.2 ⟨hr, hw⟩, hm.symm⟩

/-- With the check of the agent, the access not asked for completes the comparison. -/
theorem compatible_first_iff (h : checkSharedAccess first new = true) :
    Compatible first new ↔ ∀ x, unasked first new x = true := by
  obtain ⟨hasked, hmeta⟩ := checkSharedAccess_passed h
  have haccess : ∀ fa fs na ns : Bool, (na = true → fs = true ∧ ns = true) →
      ((fa = true ∨ na = true → fs = true ∧ ns = true) ↔ (!(fa && !na) || fs && ns) = true) := by
    decide
  constructor
  · intro hc x
    exact (haccess _ _ _ _ (hasked x)).1 (hc.share x)
  · intro hu
    exact ⟨fun x => (haccess _ _ _ _ (hasked x)).2 (hu x), hmeta⟩

/-- With it and the rules between the marked and another handle, what neither says completes it. -/
theorem compatible_other_iff (h : checkSharedAccess first new = true)
    (hother : Compatible other first) :
    Compatible other new ↔ ∀ x, unseen first new other x = true := by
  obtain ⟨hasked, hmeta⟩ := checkSharedAccess_passed h
  have haccess : ∀ fa fs na ns oa os : Bool, (na = true → fs = true ∧ ns = true) →
      (oa = true ∨ fa = true → os = true ∧ fs = true) →
      ((oa = true ∨ na = true → os = true ∧ ns = true) ↔
        ((!(oa && !na) || ns) && (!(na && !oa && !fa) || os)) = true) := by
    decide
  constructor
  · intro hc x
    exact (haccess _ _ _ _ _ _ (hasked x) (hother.share x)).1 (hc.share x)
  · intro hu
    exact ⟨fun x => (haccess _ _ _ _ _ _ (hasked x) (hother.share x)).2 (hu x),
      hother.writeMeta.1, hmeta.2⟩

theorem compatible_iff_unchecked : Compatible other new ↔
    ([Access.read, .write].all (unchecked new other ·) &&
      !(other.accessWriteMeta || new.accessWriteMeta)) = true := by
  have haccess : ∀ oa os na ns : Bool, (oa = true ∨ na = true → os = true ∧ ns = true) ↔
      (!(oa || na) || os && ns) = true := by
    decide
  rw [Bool.and_eq_true, all_access, Bool.not_or, Bool.and_eq_true, Bool.not_eq_true',
    Bool.not_eq_true']
  constructor
  · intro hc
    exact ⟨fun x => (haccess _ _ _ _).1 (hc.share x), hc.writeMeta⟩
  · rintro ⟨hu, hm⟩
    exact ⟨fun x => (haccess _ _ _ _).2 (hu x), hm⟩

end Flags

variable {s t : Tables} {i j k sender : Nat} {a : LinkedSfd} {sfd : LinkedSfd} {object : ObjectId}
  {flags : DataFlags}

section Fair

/-- The links of one object have compatible flags. -/
def LinksShare (s : Tables) : Prop :=
  ∀ k k' a b, k ≠ k' → Serving s k a → Serving s k' b → a.object = b.object →
    Compatible a.flags b.flags

/-- The links share their objects, and at most one link of an object is marked. -/
structure Fair (s : Tables) : Prop where
  bounded : ∀ k, (s.privateStorage k).linkCount ≠ 0 → k < maxPrivateOpenFiles
  links : LinksShare s
  marks : ∀ k k' a b, Serving s k a → Serving s k' b → a.object = b.object →
    (s.privateStorage k).firstOpened = true → (s.privateStorage k').firstOpened = true → k = k'

/-- No link comes into use or changes. -/
abbrev FewerLinks (s t : Tables) : Prop :=
  ∀ k, (t.privateStorage k).linkCount ≠ 0 → t.privateStorage k = s.privateStorage k

theorem Fair.fewer (h : Fair s) (hsub : FewerLinks s t) : Fair t := by
  have hserve : ∀ k a, Serving t k a → Serving s k a := by
    intro k a ha
    unfold Serving at ha ⊢
    rwa [hsub k ha.1] at ha
  refine ⟨fun k hk => h.bounded k (hsub k hk ▸ hk), ?_, ?_⟩
  · intro k k' a b hne ha hb
    exact h.links k k' a b hne (hserve k a ha) (hserve k' b hb)
  · intro k k' a b ha hb hab hm hm'
    rw [hsub k ha.1] at hm
    rw [hsub k' hb.1] at hm'
    exact h.marks k k' a b (hserve k a ha) (hserve k' b hb) hab hm hm'

theorem serves_iff : (s.privateStorage k).serves object = true ↔
    ∃ a, Serving s k a ∧ a.object = object := by
  unfold FileLink.serves Serving
  rw [Bool.and_eq_true, bne_iff_ne, Option.any_eq_true]
  constructor
  · rintro ⟨hc, a, ha, ho⟩
    exact ⟨a, ⟨hc, ha⟩, beq_iff_eq.1 ho⟩
  · rintro ⟨a, ⟨hc, ha⟩, ho⟩
    exact ⟨hc, a, ha, beq_iff_eq.2 ho⟩

/-- The tables after a free link went to an instance. -/
abbrev Tables.given (s : Tables) (i j k : Nat) (sfd : LinkedSfd) : Tables :=
  (s.setLink k ⟨some sfd, 1, !opensElsewhere s k sfd.object⟩).setInstance i j (some k)

theorem link_given (k' : Nat) : (s.given i j k sfd).privateStorage k' =
    if k' = k then ⟨some sfd, 1, !opensElsewhere s k sfd.object⟩ else s.privateStorage k' :=
  link_setLink k'

theorem serving_given {k' : Nat} : Serving (s.given i j k sfd) k' a ↔
    (k' = k ∧ a = sfd) ∨ (k' ≠ k ∧ Serving s k' a) := by
  unfold Serving
  rw [link_given]
  by_cases hk : k' = k
  · rw [if_pos hk]
    constructor
    · rintro ⟨-, heq⟩
      exact .inl ⟨hk, (some.inj heq).symm⟩
    · rintro (⟨-, rfl⟩ | ⟨hne, -⟩)
      · exact ⟨Nat.one_ne_zero, rfl⟩
      · exact absurd hk hne
  · rw [if_neg hk]
    simp only [hk, false_and, false_or, ne_eq, not_false_eq_true, true_and]

section

variable (h : Fair s) (hb : k < maxPrivateOpenFiles) (hfree : (s.privateStorage k).linkCount = 0)
include h hfree

omit h in
/-- A new descriptor among compatible ones is compatible with each. -/
theorem LinksShare.of_given (hshare : LinksShare (s.given i j k sfd)) {k' : Nat}
    (ha : Serving s k' a) (hao : a.object = sfd.object) : Compatible a.flags sfd.flags := by
  have hne : k' ≠ k := fun heq => ha.1 (heq ▸ hfree)
  exact hshare k' k a sfd hne (serving_given.2 (.inr ⟨hne, ha⟩)) (serving_given.2 (.inl ⟨rfl, rfl⟩)) hao

include hb

theorem Fair.give (hshare : ∀ k' a, Serving s k' a → a.object = sfd.object →
    Compatible a.flags sfd.flags) : Fair (s.given i j k sfd) := by
  have hmark : ∀ k' a, k' ≠ k → Serving s k' a → a.object = sfd.object →
      ((s.given i j k sfd).privateStorage k).firstOpened = false := by
    intro k' a hne ha hao
    have helse : opensElsewhere s k sfd.object = true := by
      refine any_eq_true.2 ⟨k', mem_range.2 (h.bounded k' ha.1), ?_⟩
      rw [Bool.and_eq_true, bne_iff_ne]
      exact ⟨hne, serves_iff.2 ⟨a, ha, hao⟩⟩
    rw [link_given, if_pos rfl, helse]
    rfl
  refine ⟨?_, ?_, ?_⟩
  · intro k' hc
    by_cases hk : k' = k
    · exact hk ▸ hb
    · rw [link_given, if_neg hk] at hc
      exact h.bounded k' hc
  · intro k₁ k₂ a b hne ha hb' hab
    rcases serving_given.1 ha with ⟨h₁, rfl⟩ | ⟨h₁, ha'⟩
    · rcases serving_given.1 hb' with ⟨h₂, -⟩ | ⟨-, hb''⟩
      · exact absurd (h₁.trans h₂.symm) hne
      · exact (hshare k₂ b hb'' hab.symm).symm
    · rcases serving_given.1 hb' with ⟨-, rfl⟩ | ⟨-, hb''⟩
      · exact hshare k₁ a ha' hab
      · exact h.links k₁ k₂ a b hne ha' hb'' hab
  · intro k₁ k₂ a b ha hb' hab hm₁ hm₂
    rcases serving_given.1 ha with ⟨rfl, rfl⟩ | ⟨h₁, ha'⟩
    · rcases serving_given.1 hb' with ⟨h₂, -⟩ | ⟨h₂, hb''⟩
      · exact h₂.symm
      · rw [hmark k₂ b h₂ hb'' hab.symm] at hm₁
        cases hm₁
    · rcases serving_given.1 hb' with ⟨rfl, rfl⟩ | ⟨h₂, hb''⟩
      · rw [hmark k₁ a h₁ ha' hab] at hm₂
        cases hm₂
      · rw [link_given, if_neg h₁] at hm₁
        rw [link_given, if_neg h₂] at hm₂
        exact h.marks k₁ k₂ a b ha' hb'' hab hm₁ hm₂

end

theorem mem_openFlags (h : Fair s) {first : Bool} : flags ∈ s.openFlags object first ↔
    ∃ k a, Serving s k a ∧ a.object = object ∧ (s.privateStorage k).firstOpened = first ∧
      a.flags = flags := by
  unfold Tables.openFlags
  rw [mem_filterMap]
  constructor
  · rintro ⟨k, -, hk⟩
    split at hk
    · next hs =>
      rw [Bool.and_eq_true, beq_iff_eq] at hs
      obtain ⟨a, ha, hao⟩ := serves_iff.1 hs.1
      rw [ha.2, map_some, some.injEq] at hk
      exact ⟨k, a, ha, hao, hs.2, hk⟩
    · cases hk
  · rintro ⟨k, a, ha, hao, hf, rfl⟩
    refine ⟨k, mem_range.2 (h.bounded k ha.1), ?_⟩
    rw [serves_iff.2 ⟨a, ha, hao⟩, hf, beq_self_eq_true, ha.2]
    rfl

/-- The link that the check looks at is the marked one. -/
theorem checked_of_sharedAccess (h : Fair s) {lost : Bool}
    (hs : sharedAccess s object flags lost = true) (ha : Serving s k a) (hao : a.object = object)
    (hf : (s.privateStorage k).firstOpened = true) : checkSharedAccess a.flags flags = true := by
  cases hk : findAlreadyOpen s object with
  | none =>
    have hno := find?_eq_none.1 hk k (mem_range.2 (h.bounded k ha.1))
    rw [serves_iff.2 ⟨a, ha, hao⟩, hf] at hno
    exact absurd rfl hno
  | some k' =>
    have hfound := find?_some hk
    rw [Bool.and_eq_true] at hfound
    obtain ⟨b, hb, hbo⟩ := serves_iff.1 hfound.1
    have heq := h.marks k k' a b ha hb (hao.trans hbo.symm) hf hfound.2
    subst heq
    unfold sharedAccess at hs
    rw [hk] at hs
    dsimp only at hs
    rw [ha.2] at hs
    exact hs

/-- An open that passes the check is compatible with every link of its object exactly if it also
passes what the check leaves out. -/
theorem overlooked_iff (h : Fair s) {lost : Bool} (hs : sharedAccess s object flags lost = true) :
    overlooked s object flags = true ↔
      ∀ k a, Serving s k a → a.object = object → Compatible a.flags flags := by
  unfold overlooked
  cases hm : s.openFlags object true with
  | nil =>
    have hunmarked : ∀ k a, Serving s k a → a.object = object →
        (s.privateStorage k).firstOpened = false := by
      intro k a ha hao
      cases hf : (s.privateStorage k).firstOpened with
      | false => rfl
      | true =>
        have hmem := (mem_openFlags h).2 ⟨k, a, ha, hao, hf, rfl⟩
        rw [hm] at hmem
        cases hmem
    rw [List.all_eq_true]
    constructor
    · intro hall k a ha hao
      exact compatible_iff_unchecked.2
        (hall _ ((mem_openFlags h).2 ⟨k, a, ha, hao, hunmarked k a ha hao, rfl⟩))
    · intro hc other hmem
      obtain ⟨k, a, ha, hao, -, rfl⟩ := (mem_openFlags h).1 hmem
      exact compatible_iff_unchecked.1 (hc k a ha hao)
  | cons first rest =>
    obtain ⟨k₁, f, hfirst, hfo, hmark, rfl⟩ :=
      (mem_openFlags h).1 (hm ▸ mem_cons_self : first ∈ s.openFlags object true)
    have hcheck := checked_of_sharedAccess h hs hfirst hfo hmark
    dsimp only
    rw [all_access]
    simp only [Bool.and_eq_true, List.all_eq_true, forall_and]
    rw [← compatible_first_iff hcheck]
    constructor
    · rintro ⟨hf, hother⟩ k a ha hao
      by_cases hk : k = k₁
      · subst hk
        rw [some.inj (ha.2.symm.trans hfirst.2)]
        exact hf
      · refine (compatible_other_iff hcheck (h.links k k₁ a f hk ha hfirst (hao.trans hfo.symm))).2 ?_
        intro x
        refine hother x _ ((mem_openFlags h).2 ⟨k, a, ha, hao, ?_, rfl⟩)
        refine Bool.eq_false_iff.2 fun hf' => hk ?_
        exact h.marks k k₁ a f ha hfirst (hao.trans hfo.symm) hf' hmark
    · intro hc
      refine ⟨hc k₁ f hfirst hfo, fun x other hmem => ?_⟩
      obtain ⟨k, a, ha, hao, hf, rfl⟩ := (mem_openFlags h).1 hmem
      have hk : k ≠ k₁ := by
        rintro rfl
        rw [hmark] at hf
        cases hf
      exact (compatible_other_iff hcheck
        (h.links k k₁ a f hk ha hfirst (hao.trans hfo.symm))).1 (hc k a ha hao) x

end Fair

section Steps

/-- What every message keeps. -/
structure Shared (s : Tables) : Prop where
  linked : Linked s none
  fair : Fair s

/-- The links of a closed handle go, and no other changes. -/
structure Fewer (s t : Tables) : Prop where
  linked : Linked t none
  links : FewerLinks s t

theorem Fewer.trans {u : Tables} (h : Fewer s t) (h' : Fewer t u) : Fewer s u := by
  refine ⟨h'.linked, fun k hk => ?_⟩
  have hkt := h'.links k hk
  exact hkt.trans (h.links k (hkt ▸ hk))

theorem fileLinkOf_some {obj : Nat} (h : fileLinkOf s sender obj = some (i, k)) :
    s.linkAt i (obj - 1) = some k := by
  unfold fileLinkOf at h
  split at h
  · cases h
  · split at h
    · cases h
    · obtain ⟨k', hk', heq⟩ := map_eq_some_iff.mp h
      rw [Prod.mk.injEq] at heq
      rw [← heq.1, ← heq.2]
      exact hk'

section

variable (h : Linked s none)
include h

theorem Linked.fewer_setClient {c : Client} (hc : ∀ j, c.fileInstance j = s.linkAt i j)
    (hfree : c.taskId = 0 → ∀ j, s.linkAt i j = none) : Fewer s (s.setClient i c) :=
  ⟨h.setClient hc hfree, fun _ _ => rfl⟩

theorem Linked.fewer_drop {l : FileLink} (hk : s.linkAt i j = some k) (hl : l.linkCount = 0) :
    Fewer s ((s.setLink k l).setInstance i j none) := by
  refine ⟨h.drop (.inl rfl) hk hl, fun k' hk' => ?_⟩
  rw [privateStorage_setInstance, link_setLink] at hk' ⊢
  by_cases heq : k' = k
  · rw [if_pos heq] at hk'
    exact absurd hl hk'
  · rw [if_neg heq]

theorem Linked.registerUuid (sender uuid : Nat) : Fewer s (registerUuid s sender uuid) := by
  unfold Ssa.registerUuid
  split
  · exact ⟨h, fun _ _ => rfl⟩
  next i hi =>
  have hfound := find?_some hi
  have hnone := fun j => h.free i j (of_decide_eq_true hfound)
  exact h.fewer_setClient (fun j => (hnone j).symm) fun _ => hnone

theorem Linked.preUnregisterUuid (taskId : Nat) : Fewer s (preUnregisterUuid s taskId).2 := by
  unfold Ssa.preUnregisterUuid
  split
  · exact ⟨h, fun _ _ => rfl⟩
  next i _ =>
  split
  · next hno =>
    exact h.fewer_setClient (fun j => (h.noFiles hno j).symm) fun _ => h.noFiles hno
  · exact h.fewer_setClient (fun _ => rfl) fun h0 => (h.free i · h0)

theorem Linked.forceClean (i j : Nat) : Fewer s (forceClean s i j) ∧
    ∀ j', (forceClean s i j).linkAt i j' = if j' = j then none else s.linkAt i j' := by
  unfold Ssa.forceClean
  split
  · next hnone =>
    refine ⟨⟨h, fun _ _ => rfl⟩, fun j' => ?_⟩
    by_cases hj : j' = j
    · rw [if_pos hj, hj]
      exact hnone
    · rw [if_neg hj]
  · next k hk =>
    dsimp only
    rw [h.counted_one hk, if_neg Nat.one_ne_zero, if_pos rfl]
    refine ⟨h.fewer_drop hk rfl, fun j' => ?_⟩
    rw [linkAt_setInstance, linkAt_setLink]
    simp only [true_and]

theorem Linked.forceClean_all (i : Nat) (js : List Nat) :
    Fewer s (js.foldl (fun t j => Ssa.forceClean t i j) s) ∧
      ∀ j, (js.foldl (fun t j => Ssa.forceClean t i j) s).linkAt i j =
        if j ∈ js then none else s.linkAt i j := by
  induction js generalizing s with
  | nil => exact ⟨⟨h, fun _ _ => rfl⟩, fun j => (if_neg not_mem_nil).symm⟩
  | cons j' js ih =>
    obtain ⟨hfewer, hat⟩ := h.forceClean i j'
    obtain ⟨hfewer', hat'⟩ := ih hfewer.linked
    refine ⟨hfewer.trans hfewer', fun j => ?_⟩
    rw [foldl_cons, hat', hat]
    simp only [mem_cons]
    by_cases hj : j ∈ js
    · rw [if_pos hj, if_pos (.inr hj)]
    · rw [if_neg hj]
      simp only [hj, or_false]

theorem Linked.unregisterUuid (sender : Nat) : Fewer s (unregisterUuid s sender) := by
  unfold Ssa.unregisterUuid
  split
  · exact ⟨h, fun _ _ => rfl⟩
  next i _ =>
  have hdead := h.fewer_setClient (c := { s.clients i with dead := true }) (fun _ => rfl)
    fun h0 => (h.free i · h0)
  obtain ⟨hclean, hat⟩ := hdead.linked.forceClean_all i (range maxClientOpenFiles)
  refine (hdead.trans hclean).trans (hclean.linked.fewer_setClient (fun _ => rfl) fun _ j => ?_)
  rw [hat]
  split
  · rfl
  next hj =>
  cases hk : (s.setClient i { s.clients i with dead := true }).linkAt i j with
  | none => rfl
  | some k => exact absurd (mem_range.2 (hdead.linked.row i j k hk)) hj

theorem Linked.closeFileFromClient (sender obj : Nat) :
    Fewer s (closeFileFromClient s sender obj) := by
  unfold Ssa.closeFileFromClient
  split
  · exact ⟨h, fun _ _ => rfl⟩
  next i k hf =>
  have hk := fileLinkOf_some hf
  dsimp only
  rw [h.counted_one hk, if_neg Nat.one_ne_zero, if_pos rfl]
  exact h.fewer_drop hk rfl

theorem Linked.deleteFile (sender obj : Nat) : Fewer s (deleteFile s sender obj) := by
  unfold Ssa.deleteFile
  split
  · exact ⟨h, fun _ _ => rfl⟩
  next i k hf =>
  have hk := fileLinkOf_some hf
  dsimp only
  rw [h.counted_one hk, if_neg (h.sfd _ _ _ hk)]
  exact h.fewer_drop hk rfl

theorem Linked.closeAndDelete (sender obj : Nat) :
    Fewer s (ssaCloseAndDeleteObject s sender obj) := by
  unfold ssaCloseAndDeleteObject
  split
  · exact ⟨h, fun _ _ => rfl⟩
  next i k hf =>
  split
  · next hnone => exact absurd hnone (h.sfd _ _ _ (fileLinkOf_some hf))
  next sfd hsfd =>
  split
  · exact h.closeFileFromClient sender obj
  · exact h.deleteFile sender obj

end

theorem TwoHandles.symm {b : LinkedSfd} (h : TwoHandles s a b) : TwoHandles s b a := by
  obtain ⟨hab, i, j, i', j', hne, ha, hb⟩ := h
  exact ⟨hab.symm, i', j', i, j, hne.symm, hb, ha⟩

/-- Every link in use has a handle of its own, so the rules are about the links. -/
theorem Linked.rules_iff (h : Linked s none) : SharingRules s ↔ LinksShare s := by
  constructor
  · intro hr k k' a b hne ha hb hab
    obtain ⟨i, j, hk⟩ := h.used k ha.1
    obtain ⟨i', j', hk'⟩ := h.used k' hb.1
    have hij : (i, j) ≠ (i', j') := by
      intro heq
      rw [Prod.mk.injEq] at heq
      rw [heq.1, heq.2] at hk
      exact hne (some.inj (hk.symm.trans hk'))
    have htwo : TwoHandles s a b := ⟨hab, i, j, i', j', hij, ⟨k, hk, ha⟩, ⟨k', hk', hb⟩⟩
    refine ⟨forall_access.2 ⟨?_, ?_⟩, hr.writeMeta a b htwo, hr.writeMeta b a htwo.symm⟩
    · rintro (hx | hx)
      · exact hr.read a b htwo hx
      · exact (hr.read b a htwo.symm hx).symm
    · rintro (hx | hx)
      · exact hr.write a b htwo hx
      · exact (hr.write b a htwo.symm hx).symm
  · intro hc
    have hpair : ∀ a b, TwoHandles s a b → Compatible a.flags b.flags := by
      rintro a b ⟨hab, i, j, i', j', hne, ⟨k, hk, ha⟩, ⟨k', hk', hb⟩⟩
      refine hc k k' a b ?_ ha hb hab
      rintro rfl
      exact hne (h.unique _ _ _ _ _ hk hk')
    exact ⟨fun a b htwo hr => (hpair a b htwo).share .read (.inl hr),
      fun a b htwo hw => (hpair a b htwo).share .write (.inl hw),
      fun a b htwo => (hpair a b htwo).writeMeta.1⟩

theorem init_shared : Shared initTables := by
  refine ⟨⟨?_, ?_, ?_, ?_, ?_, ?_⟩, ?_, ?_, ?_⟩
  case refine_8 => exact fun _ _ _ _ _ ha => absurd rfl ha.1
  case refine_9 => exact fun _ _ _ _ ha => absurd rfl ha.1
  all_goals intros
  all_goals first | rfl | contradiction

variable (h : Shared s)
include h

theorem Shared.rules : SharingRules s := h.linked.rules_iff.2 h.fair.links

theorem Shared.fewer (hf : Fewer s t) : Shared t := ⟨hf.linked, h.fair.fewer hf.links⟩

/-- A granted open keeps the rules exactly if it passes what the check leaves out. -/
theorem Shared.admitFile {fileId : String} {lost stored : Bool} (hs : sender ≠ 0) :
    (heeds s sender fileId flags lost stored = true →
      Shared (admitFile s sender fileId flags lost stored)) ∧
    (SharingRules (admitFile s sender fileId flags lost stored) →
      heeds s sender fileId flags lost stored = true) := by
  unfold Ssa.admitFile heeds
  cases hc : getSenderClient s sender with
  | none => exact ⟨fun _ => h, fun _ => rfl⟩
  | some i =>
    dsimp only
    generalize hobj : (⟨(s.clients i).uuid, fileId⟩ : ObjectId) = object
    by_cases hpass : (sharedAccess s object flags lost && stored) = true
    · rw [hpass, if_pos rfl, Bool.true_and]
      have hlinked := h.linked.createFileInstance ⟨object, flags⟩ hs
      have hover := overlooked_iff h.fair (Bool.and_eq_true_iff.1 hpass).1
      rcases createFileInstance_cases s sender ⟨object, flags⟩ with
        heq | ⟨i', j, k, -, hb, hfree, -, -, heq⟩
      · rw [heq]
        exact ⟨fun _ => h, fun _ => rfl⟩
      · rw [heq] at hlinked ⊢
        rw [isSome_some, Bool.not_true, Bool.false_or, hover]
        constructor
        · intro hall
          exact ⟨hlinked, h.fair.give hb hfree hall⟩
        · intro hr k' a ha hao
          exact LinksShare.of_given hfree (hlinked.rules_iff.1 hr) ha hao
    · rw [Bool.eq_false_iff.2 hpass]
      exact ⟨fun _ => h, fun _ => rfl⟩

theorem Shared.step {m : TableMsg} (hm : m.fromTask = true) :
    (m.heeded s = true → Shared (s.step m)) ∧ (SharingRules (s.step m) → m.heeded s = true) := by
  cases m with
  | register taskId uuid =>
    exact ⟨fun _ => h.fewer (h.linked.registerUuid taskId uuid), fun _ => rfl⟩
  | preUnregister taskId =>
    exact ⟨fun _ => h.fewer (h.linked.preUnregisterUuid taskId), fun _ => rfl⟩
  | unregister taskId => exact ⟨fun _ => h.fewer (h.linked.unregisterUuid taskId), fun _ => rfl⟩
  | create sender fileId flags stored | openObject sender fileId flags stored =>
    exact h.admitFile (bne_iff_ne.1 hm)
  | close sender obj =>
    exact ⟨fun _ => h.fewer (h.linked.closeFileFromClient sender obj), fun _ => rfl⟩
  | closeAndDelete sender obj =>
    exact ⟨fun _ => h.fewer (h.linked.closeAndDelete sender obj), fun _ => rfl⟩

end Steps

/-- Over a run the sharing rules hold at every point exactly if every open that the agent grants
also passes what its check leaves out. -/
theorem sharing_rules_iff {ms : List TableMsg} (hms : ∀ m ∈ ms, m.fromTask = true) :
    (∀ n, SharingRules (runs step initTables (ms.take n))) ↔
      Along step (fun s m => m.heeded s = true) initTables ms :=
  forall_take_iff (I := Shared) (fun _ hs => hs.rules) (fun _ _ hs hm => hs.step hm) init_shared hms

def readShared : DataFlags := ⟨true, false, false, true, true, false, false, false⟩

def writeShared : DataFlags := ⟨false, true, false, false, true, false, false, false⟩

def sharedOpens : List TableMsg :=
  [.register 7 1, .create 7 "a" readShared true, .openObject 7 "a" readShared true]

theorem sharing_rules_sample : SharingRules (runs step initTables sharedOpens) :=
  (sharing_rules_iff (show ∀ m ∈ sharedOpens, m.fromTask = true by decide)).2
    (by decide +kernel) 3

/-- A handle that reads and shares both, and then one that writes and shares only writing. -/
theorem sharing_rules_missed :
    ¬ SharingRules (runs step initTables [.register 7 1, .create 7 "a" readShared true,
      .openObject 7 "a" writeShared true]) := by
  intro h
  have hread := h.read ⟨⟨1, "a"⟩, readShared⟩ ⟨⟨1, "a"⟩, writeShared⟩ ⟨rfl, 0, 0, 0, 1, by decide,
    ⟨0, by decide +kernel, by decide +kernel, by decide +kernel⟩,
    ⟨1, by decide +kernel, by decide +kernel, by decide +kernel⟩⟩ rfl
  exact absurd hread.2 (by decide)

end TeeOs.Ssa
