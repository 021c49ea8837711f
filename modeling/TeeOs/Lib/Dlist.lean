import Mathlib

/-!
# Circular doubly linked lists

The nodes of all lists lie in one memory, which gives each node its two pointers. A list
is a circle through its head. The operations write pointers in a fixed order; on a
circle they insert, delete and replace as expected, and they leave every circle alone
that has no node in common with theirs. Replacing the head of an empty list does not
give a list: the new head then points to the old one.
-/

namespace TeeOs.Lib.Dlist

open List

variable {α : Type}

/-- The two pointers of every node. -/
structure Links (α : Type) where
  prev : α → α
  next : α → α

/-- The pointers the other way round. -/
def Links.swap (h : Links α) : Links α := ⟨h.next, h.prev⟩

/-- The nodes between `a` and `b`, linked both ways. -/
def Chain (h : Links α) : α → List α → α → Prop
  | a, [], b => h.next a = b ∧ h.prev b = a
  | a, x :: l, b => h.next a = x ∧ h.prev x = a ∧ Chain h x l b

/-- A list with its head. -/
structure Linked (h : Links α) (head : α) (l : List α) : Prop where
  nodup : (head :: l).Nodup
  chain : Chain h head l head

variable {h h' : Links α} {a b x head node : α} {l m : List α}

theorem chain_append : Chain h a (l ++ x :: m) b ↔ Chain h a l x ∧ Chain h x m b := by
  induction l generalizing a with
  | nil => simp only [nil_append, Chain, and_assoc]
  | cons y l ih => simp only [cons_append, Chain, ih, and_assoc]

theorem Chain.frame (hc : Chain h a l b) (hnext : ∀ y ∈ a :: l, h'.next y = h.next y)
    (hprev : ∀ y ∈ l, h'.prev y = h.prev y) (hb : h'.prev b = h.prev b) : Chain h' a l b := by
  induction l generalizing a with
  | nil => exact ⟨(hnext a mem_cons_self).trans hc.1, hb.trans hc.2⟩
  | cons x l ih =>
    refine ⟨(hnext a mem_cons_self).trans hc.1, (hprev x mem_cons_self).trans hc.2.1, ?_⟩
    exact ih hc.2.2 (fun y hy => hnext y (mem_cons_of_mem a hy))
      (fun y hy => hprev y (mem_cons_of_mem x hy))

/-- The last link of a chain may lead elsewhere. -/
theorem Chain.retarget (hc : Chain h a l x) (hn : (a :: l).Nodup)
    (hnext : ∀ y ∈ a :: l, y ≠ (a :: l).getLast (by simp) → h'.next y = h.next y)
    (hprev : ∀ y ∈ l, h'.prev y = h.prev y)
    (hlast : h'.next ((a :: l).getLast (by simp)) = b)
    (hb : h'.prev b = (a :: l).getLast (by simp)) : Chain h' a l b := by
  induction l generalizing a with
  | nil => exact ⟨hlast, hb⟩
  | cons y l ih =>
    have hne : a ≠ (a :: y :: l).getLast (by simp) := by
      intro heq
      exact (nodup_cons.mp hn).1 (heq ▸ getLast_mem _)
    refine ⟨(hnext a mem_cons_self hne).trans hc.1, (hprev y mem_cons_self).trans hc.2.1, ?_⟩
    exact ih hc.2.2 (nodup_cons.mp hn).2 (fun z hz => hnext z (mem_cons_of_mem a hz))
      (fun z hz => hprev z (mem_cons_of_mem y hz)) hlast hb

theorem Chain.last (hc : Chain h a l b) : h.prev b = (a :: l).getLast (by simp) ∧
    h.next ((a :: l).getLast (by simp)) = b := by
  induction l generalizing a with
  | nil => exact ⟨hc.2, hc.1⟩
  | cons x l ih =>
    exact ih hc.2.2

theorem Chain.next_mem (hc : Chain h a l b) : h.next a = b ∨ h.next a ∈ l := by
  cases l with
  | nil => exact Or.inl hc.1
  | cons x l => exact Or.inr (hc.1 ▸ mem_cons_self)

theorem Chain.swap (hc : Chain h a l b) : Chain h.swap b l.reverse a := by
  induction l generalizing a with
  | nil => exact ⟨hc.2, hc.1⟩
  | cons x l ih =>
    rw [reverse_cons]
    exact chain_append.mpr ⟨ih hc.2.2, hc.2.1, hc.1⟩

/-- A circle is left alone by what writes to none of its nodes. -/
theorem Linked.frame (hl : Linked h head l)
    (hsame : ∀ y ∈ head :: l, h'.next y = h.next y ∧ h'.prev y = h.prev y) : Linked h' head l where
  nodup := hl.nodup
  chain := hl.chain.frame (fun y hy => (hsame y hy).1)
    (fun y hy => (hsame y (mem_cons_of_mem head hy)).2) (hsame head mem_cons_self).2

/-! ## Operations -/

variable [DecidableEq α] {y : α}

namespace Links

variable (h : Links α)

def setPrev (a b : α) : Links α := { h with prev := Function.update h.prev a b }

def setNext (a b : α) : Links α := { h with next := Function.update h.next a b }

def init (head : α) : Links α := (h.setPrev head head).setNext head head

def insert (pos node : α) : Links α :=
  let tmp := h.next pos
  let h := h.setPrev tmp node
  let h := h.setPrev node pos
  let h := h.setNext node (h.next pos)
  h.setNext pos node

def insertTail (node head : α) : Links α := h.insert (h.prev head) node

def delete (node : α) : Links α :=
  let h := h.setNext (h.prev node) (h.next node)
  let h := h.setPrev (h.next node) (h.prev node)
  h.init node

def replace (old new : α) : Links α :=
  let h := h.setPrev new (h.prev old)
  let h := h.setNext new (h.next old)
  let h := h.setNext (h.prev old) new
  h.setPrev (h.next old) new

/-- Follows the pointers from `pos` to the first node that `p` accepts, or to the head.
The answer is `none` if `p` cannot read a node, or after `fuel` rounds. -/
def search (next : α → α) (p : α → Option Bool) (head : α) : Nat → α → Option (Option α)
  | 0, _ => none
  | fuel + 1, pos =>
    if pos = head then some none
    else match p pos with
      | none => none
      | some true => some (some pos)
      | some false => search next p head fuel (next pos)

end Links

open Links Function

theorem next_insert (h : Links α) (pos node : α) : (h.insert pos node).next =
    update (update h.next node (h.next pos)) pos node := rfl

theorem prev_insert (h : Links α) (pos node : α) : (h.insert pos node).prev =
    update (update h.prev (h.next pos) node) node pos := rfl

theorem linked_init (h : Links α) (head : α) : Linked (h.init head) head [] where
  nodup := nodup_singleton head
  chain := ⟨update_self .., update_self ..⟩

theorem init_of_ne (hy : y ≠ head) :
    (h.init head).next y = h.next y ∧ (h.init head).prev y = h.prev y :=
  ⟨update_of_ne hy .., update_of_ne hy ..⟩

theorem Linked.insertTail (hl : Linked h head l) (hnode : node ∉ head :: l) :
    Linked (h.insertTail node head) head (l ++ [node]) := by
  obtain ⟨hprev, hnext⟩ := hl.chain.last
  have hne : ∀ y ∈ head :: l, y ≠ node := fun y hy he => hnode (he ▸ hy)
  have hlast := getLast_mem (cons_ne_nil head l)
  constructor
  · rw [← cons_append, nodup_append]
    refine ⟨hl.nodup, nodup_singleton node, fun y hy z hz => ?_⟩
    rw [mem_singleton.mp hz]
    exact hne y hy
  · rw [Links.insertTail, hprev]
    generalize hp : (head :: l).getLast (cons_ne_nil head l) = p at hprev hnext hlast
    have hmid : Chain (h.insert p node) head l node := by
      refine hl.chain.retarget hl.nodup (fun y hy hyl => ?_) (fun y hy => ?_) ?_ ?_
      · rw [next_insert, update_of_ne (hp ▸ hyl), update_of_ne (hne y hy)]
      · have hyhead : y ≠ head := fun he => (nodup_cons.mp hl.nodup).1 (he ▸ hy)
        rw [prev_insert, update_of_ne (hne y (mem_cons_of_mem head hy)), hnext, update_of_ne hyhead]
      · rw [hp, next_insert, update_self]
      · rw [hp, prev_insert, update_self]
    apply chain_append.mpr
    refine ⟨hmid, ?_, ?_⟩
    · rw [next_insert, update_of_ne (hne p hlast).symm, update_self, hnext]
    · rw [prev_insert, update_of_ne (hne head mem_cons_self), hnext, update_self]

/-- A node that is neither the new one nor of the list keeps its pointers. -/
theorem Linked.insertTail_of_not_mem (hl : Linked h head l) (hy : y ∉ head :: l)
    (hnode : y ≠ node) : (h.insertTail node head).next y = h.next y ∧
      (h.insertTail node head).prev y = h.prev y := by
  obtain ⟨hprev, hnext⟩ := hl.chain.last
  have hlast := getLast_mem (cons_ne_nil head l)
  have hylast : y ≠ (head :: l).getLast (cons_ne_nil head l) := fun he => hy (he ▸ hlast)
  have hyhead : y ≠ head := ne_of_not_mem_cons hy
  rw [Links.insertTail, hprev, next_insert, prev_insert, hnext]
  constructor
  · rw [update_of_ne hylast, update_of_ne hnode]
  · rw [update_of_ne hnode, update_of_ne hyhead]

/-! ### Deletion -/

theorem next_delete (h : Links α) (node : α) : (h.delete node).next =
    update (update h.next (h.prev node) (h.next node)) node node := rfl

theorem prev_delete (hne : h.prev node ≠ node) : (h.delete node).prev =
    update (update h.prev (h.next node) (h.prev node)) node node := by
  show update (update h.prev
    (update h.next (h.prev node) (h.next node) node) (h.prev node)) node node = _
  rw [update_of_ne hne.symm]

section

variable (hl : Linked h head (l ++ x :: m))
include hl

/-- What a deletion of `x` from a circle writes: the pointers between its neighbours. -/
theorem Linked.delete_eq : (h.delete x).next =
        update (update h.next ((head :: l).getLast (by simp)) (h.next x)) x x ∧
      (h.delete x).prev =
        update (update h.prev (h.next x) ((head :: l).getLast (by simp))) x x := by
  obtain ⟨hbefore, -⟩ := chain_append.mp hl.chain
  have hprev := hbefore.last.1
  have hne : h.prev x ≠ x := by
    have hlast := getLast_mem (cons_ne_nil head l)
    have hnodup := hl.nodup
    rw [← cons_append, nodup_append] at hnodup
    rw [hprev]
    exact hnodup.2.2 _ hlast x mem_cons_self
  rw [next_delete, prev_delete hne, hprev]
  exact ⟨rfl, rfl⟩

theorem Linked.delete : Linked (h.delete x) head (l ++ m) := by
  obtain ⟨hbefore, hafter⟩ := chain_append.mp hl.chain
  obtain ⟨hnext, hprev⟩ := hl.delete_eq
  have hnodup := hl.nodup
  rw [← cons_append, nodup_append] at hnodup
  obtain ⟨hleft, hright, hdisj⟩ := hnodup
  have hxm := (nodup_cons.mp hright).1
  have hlx : ∀ y ∈ head :: l, y ≠ x := fun y hy => hdisj y hy x mem_cons_self
  have hlast := getLast_mem (cons_ne_nil head l)
  have hlastx := hlx _ hlast
  have hheadl := (nodup_cons.mp hleft).1
  -- up to `x` only the last link changes
  have hretarget : ∀ b, b ∉ l → b ≠ x → h.next x = b → Chain (h.delete x) head l b := by
    intro b hbl hbx hb
    refine hbefore.retarget hleft (fun y hy hyl => ?_) (fun y hy => ?_) ?_ ?_
    · rw [hnext, update_of_ne (hlx y hy), update_of_ne hyl]
    · rw [hprev, update_of_ne (hlx y (mem_cons_of_mem head hy)), hb,
        update_of_ne fun he : y = b => hbl (he ▸ hy)]
    · rw [hnext, update_of_ne hlastx, update_self, hb]
    · rw [hprev, update_of_ne hbx, hb, update_self]
  constructor
  · rw [← cons_append, nodup_append]
    exact ⟨hleft, (nodup_cons.mp hright).2, fun y hy z hz =>
      hdisj y hy z (mem_cons_of_mem x hz)⟩
  cases m with
  | nil =>
    rw [append_nil]
    exact hretarget head hheadl (hlx head mem_cons_self) hafter.1
  | cons z m =>
    have hzx : z ≠ x := fun he => hxm (he ▸ mem_cons_self)
    have hm : ∀ y ∈ z :: m, y ≠ x := fun y hy he => hxm (he ▸ hy)
    have hleft' : ∀ y ∈ head :: l, ∀ w ∈ z :: m, y ≠ w := fun y hy w hw =>
      hdisj y hy w (mem_cons_of_mem x hw)
    have hzl : z ∉ l := fun hz =>
      hleft' z (mem_cons_of_mem head hz) z mem_cons_self rfl
    have hzm := (nodup_cons.mp (nodup_cons.mp hright).2).1
    refine chain_append.mpr ⟨hretarget z hzl hzx hafter.1, ?_⟩
    refine hafter.2.2.frame (fun y hy => ?_) (fun y hy => ?_) ?_
    · rw [hnext, update_of_ne (hm y hy), update_of_ne (hleft' _ hlast y hy).symm]
    · rw [hprev, update_of_ne (hm y (mem_cons_of_mem z hy)), hafter.1,
        update_of_ne fun he : y = z => hzm (he ▸ hy)]
    · rw [hprev, update_of_ne (hlx head mem_cons_self), hafter.1,
        update_of_ne (hleft' head mem_cons_self z mem_cons_self)]

/-- A node outside the circle keeps its pointers. -/
theorem Linked.delete_of_not_mem (hy : y ∉ head :: (l ++ x :: m)) :
    (h.delete x).next y = h.next y ∧ (h.delete x).prev y = h.prev y := by
  obtain ⟨-, hafter⟩ := chain_append.mp hl.chain
  obtain ⟨hnext, hprev⟩ := hl.delete_eq
  rw [← cons_append, mem_append, not_or] at hy
  have hlast : y ≠ (head :: l).getLast (cons_ne_nil head l) := fun he =>
    hy.1 (he ▸ getLast_mem _)
  have hyx : y ≠ x := fun he => hy.2 (he ▸ mem_cons_self)
  have hynext : y ≠ h.next x := by
    intro he
    rcases hafter.next_mem with hb | hmem
    · exact hy.1 ((he.trans hb) ▸ mem_cons_self)
    · exact hy.2 (he ▸ mem_cons_of_mem x hmem)
  rw [hnext, hprev]
  constructor
  · rw [update_of_ne hyx, update_of_ne hlast]
  · rw [update_of_ne hyx, update_of_ne hynext]

end

/-- After the first node is deleted the list goes on where that node pointed to. -/
theorem Linked.delete_next (hl : Linked h head (x :: l)) : (h.delete x).next head = h.next x := by
  have hne : head ≠ x := ne_of_not_mem_cons (nodup_cons.mp hl.nodup).1
  have hfirst : Linked h head ([] ++ x :: l) := hl
  rw [hfirst.delete_eq.1, update_of_ne hne]
  exact update_self ..

/-! ### Replacement of a head -/

variable {old new : α}

/-- What the replacement of the head of a list with nodes writes. -/
theorem Linked.replace_eq (hl : Linked h old (x :: l)) (hnew : new ∉ old :: x :: l) :
    (h.replace old new).next = update (update h.next new x) ((x :: l).getLast (by simp)) new ∧
      (h.replace old new).prev = update (update h.prev new ((x :: l).getLast (by simp))) x new := by
  have hnext := hl.chain.1
  have hprev := hl.chain.2.2.last.1
  have hold : old ≠ new := fun he => hnew (he ▸ mem_cons_self)
  have hlast : old ≠ (x :: l).getLast (by simp) := fun he =>
    (nodup_cons.mp hl.nodup).1 (he ▸ getLast_mem _)
  have hread : update h.prev new (h.prev old) old = (x :: l).getLast (by simp) := by
    rw [update_of_ne hold, hprev]
  constructor
  · show update (update h.next new (h.next old)) (update h.prev new (h.prev old) old) new = _
    rw [hread, hnext]
  · show update (update h.prev new (h.prev old)) (update (update h.next new (h.next old))
        (update h.prev new (h.prev old) old) new old) new = _
    rw [hread, hprev, update_of_ne hlast, update_of_ne hold, hnext]

theorem Linked.replace (hl : Linked h old (x :: l)) (hnew : new ∉ old :: x :: l) :
    Linked (h.replace old new) new (x :: l) := by
  obtain ⟨hnext, hprev⟩ := hl.replace_eq hnew
  have hnodup := (nodup_cons.mp hl.nodup).2
  have hxl : ∀ y ∈ x :: l, y ≠ new := fun y hy he => hnew (he ▸ mem_cons_of_mem old hy)
  have hlast := getLast_mem (cons_ne_nil x l)
  constructor
  · exact nodup_cons.mpr ⟨fun hmem => hnew (mem_cons_of_mem old hmem), hnodup⟩
  refine ⟨?_, ?_, ?_⟩
  · rw [hnext, update_of_ne (hxl _ hlast).symm, update_self]
  · rw [hprev, update_self]
  · refine hl.chain.2.2.retarget hnodup (fun y hy hyl => ?_) (fun y hy => ?_) ?_ ?_
    · rw [hnext, update_of_ne hyl, update_of_ne (hxl y hy)]
    · have hyx : y ≠ x := fun he => (nodup_cons.mp hnodup).1 (he ▸ hy)
      rw [hprev, update_of_ne hyx, update_of_ne (hxl y (mem_cons_of_mem x hy))]
    · rw [hnext, update_self]
    · rw [hprev, update_of_ne (hxl x mem_cons_self).symm, update_self]

theorem Linked.replace_of_not_mem (hl : Linked h old (x :: l)) (hnew : new ∉ old :: x :: l)
    (hy : y ∉ x :: l) (hyn : y ≠ new) :
    (h.replace old new).next y = h.next y ∧ (h.replace old new).prev y = h.prev y := by
  obtain ⟨hnext, hprev⟩ := hl.replace_eq hnew
  have hlast : y ≠ (x :: l).getLast (by simp) := fun he => hy (he ▸ getLast_mem _)
  have hyx : y ≠ x := ne_of_not_mem_cons hy
  rw [hnext, hprev]
  constructor
  · rw [update_of_ne hlast, update_of_ne hyn]
  · rw [update_of_ne hyx, update_of_ne hyn]

/-! ### Search -/

variable {p : α → Option Bool} {q : α → Bool} {fuel : Nat}

theorem search_chain (hc : Chain h a l head) (hhead : head ∉ l) (hp : ∀ y ∈ l, p y = some (q y))
    (hfuel : l.length < fuel) : search h.next p head fuel (h.next a) = some (l.find? q) := by
  induction l generalizing a fuel with
  | nil =>
    obtain _ | fuel := fuel
    · omega
    rw [hc.1, search, if_pos rfl]
    rfl
  | cons x l ih =>
    rw [length_cons] at hfuel
    obtain _ | fuel := fuel
    · omega
    have hx : x ≠ head := (ne_of_not_mem_cons hhead).symm
    rw [hc.1, search, if_neg hx, hp x mem_cons_self]
    cases hq : q x with
    | true => rw [find?_cons_of_pos hq]
    | false =>
      rw [find?_cons_of_neg (by simp [hq])]
      exact ih hc.2.2 (fun hmem => hhead (mem_cons_of_mem x hmem))
        (fun y hy => hp y (mem_cons_of_mem x hy)) (by omega)

variable (hl : Linked h head l) (hp : ∀ y ∈ l, p y = some (q y)) (hfuel : l.length < fuel)
include hl hp hfuel

theorem Linked.search_next : search h.next p head fuel (h.next head) = some (l.find? q) :=
  search_chain hl.chain (nodup_cons.mp hl.nodup).1 hp hfuel

theorem Linked.search_prev :
    search h.prev p head fuel (h.prev head) = some (l.reverse.find? q) := by
  have hback : Chain h.swap head l.reverse head := hl.chain.swap
  refine search_chain hback ?_ (fun y hy => hp y (mem_reverse.mp hy)) ?_
  · exact fun hmem => (nodup_cons.mp hl.nodup).1 (mem_reverse.mp hmem)
  · rw [length_reverse]
    exact hfuel

end TeeOs.Lib.Dlist
