import TeeOs.Conf.Text

/-!
# The chip type of an item

A parsed configuration is a queue of nodes, each class in front of what it contains.
`check_item_chip_type` looks for the chip type of an item by going on from the item in
the circular list, to the first class or chip type it meets, and does not know where
the item ends.
-/

namespace TeeOs.Conf

open TeeOs.Lib.CText List

/-- `conf_node_t`, with the value cut at its size. -/
structure ConfNode where
  tag : Nat
  type : Nat
  value : Text := []

/-- An element of a configuration: a leaf as the parser lets it through, or a class. -/
inductive Element
  | leaf (node : ConfNode) (parsed : node.type ≠ 0 ∧ node.value.length < maxImageLen)
  | cls (tag : Nat) (children : List Element)

mutual

/-- The nodes the parser pushes. -/
def Element.nodes : Element → List ConfNode
  | .leaf node _ => [node]
  | .cls tag children => ⟨tag, 0, []⟩ :: forest children

def forest : List Element → List ConfNode
  | [] => []
  | e :: es => e.nodes ++ forest es

end

/-- The name of the chip, whether memory is there, and what a node behind the list head
would be. -/
structure ChipEnv where
  chip : Option Text
  memory : Bool
  head : ConfNode

def names (value : Text) : List Text := tokens ',' (cstr value)

def checkTargetType (env : ChipEnv) (value : Text) : Bool :=
  value.length ≤ maxImageLen && env.memory && env.chip.any ((names value).contains ·)

/-- Where the loop stops. -/
def stops (chipTag : Nat) (n : ConfNode) : Bool := n.type = 0 || n.tag = chipTag

/-- `check_item_chip_type` for an item that `before` comes before and `behind` follows. -/
def checkItemChipType (env : ChipEnv) (chipTag : Nat) (before behind : List ConfNode) : Bool :=
  match (behind ++ env.head :: before).find? (stops chipTag) with
  | none => false
  | some n => if n.type = 0 then true else checkTargetType env n.value

variable {env : ChipEnv} {chipTag : Nat} {children : List Element} {before after : List ConfNode}

variable (env : ChipEnv) (chipTag : Nat) (children : List Element)

/-- The chip type of an item among its children. -/
def chipChild : Option ConfNode :=
  children.findSome? fun
    | .leaf n _ => if n.tag = chipTag then some n else none
    | .cls .. => none

/-- The item has no chip type, or this chip is named there. -/
def Allowed : Prop :=
  ∀ n ∈ chipChild chipTag children, ∃ chip ∈ env.chip, chip ∈ names n.value

/-- The item is accepted if it is allowed, the loop stops inside the queue, and where it
stops at a chip type that is the item's own. -/
def Filtered (before after : List ConfNode) : Prop :=
  (checkItemChipType env chipTag before (forest children ++ after) = true ↔
      Allowed env chipTag children) ∧
    ∃ n, (forest children ++ after).find? (stops chipTag) = some n ∧
      (n.type ≠ 0 → chipChild chipTag children = some n)

/-- The first child that stops the loop. -/
def firstStop (chipTag : Nat) : List Element → Option Element
  | [] => none
  | .leaf n h :: es => if n.tag = chipTag then some (.leaf n h) else firstStop chipTag es
  | .cls tag cs :: _ => some (.cls tag cs)

/-- What the filter needs: the item's own chip type comes first and there is memory; or a
class comes first and the chip type behind it does not matter; or a class follows. -/
def Separated (after : List ConfNode) : Prop :=
  match firstStop chipTag children with
  | some (.leaf ..) => env.memory = true ∨ ¬ Allowed env chipTag children
  | some (.cls ..) => Allowed env chipTag children
  | none => ∃ n, after.find? (stops chipTag) = some n ∧ n.type = 0

theorem find?_forest : match firstStop chipTag children with
    | some (.leaf n _) => (forest children).find? (stops chipTag) = some n ∧
        chipChild chipTag children = some n
    | some (.cls tag _) => (forest children).find? (stops chipTag) = some ⟨tag, 0, []⟩
    | none => (forest children).find? (stops chipTag) = none ∧ chipChild chipTag children = none := by
  induction children with
  | nil => exact ⟨rfl, rfl⟩
  | cons e es ih =>
    cases e with
    | cls tag cs => rfl
    | leaf n h =>
      by_cases hn : n.tag = chipTag
      · simp [firstStop, hn, forest, Element.nodes, stops, chipChild]
      · simpa [firstStop, hn, forest, Element.nodes, stops, h.1, chipChild] using ih

/-- The chip type filter works exactly for the separated items. -/
theorem checkItemChipType_filtered_iff (before after : List ConfNode) :
    Filtered env chipTag children before after ↔ Separated env chipTag children after := by
  have hstop := find?_forest chipTag children
  unfold Filtered Separated checkItemChipType
  cases hfirst : firstStop chipTag children with
  | none =>
    -- no child stops the loop, which goes on into what follows the item
    simp only [hfirst] at hstop ⊢
    have hallowed : Allowed env chipTag children := fun n hn => nomatch hstop.2.symm.trans hn
    cases hafter : after.find? (stops chipTag) with
    | none => simp [find?_append, hstop.1, hafter]
    | some n => by_cases hn : n.type = 0 <;> simp [find?_append, hstop, hafter, hn, hallowed]
  | some e =>
    cases e with
    | cls tag cs =>
      simp only [hfirst] at hstop ⊢
      simp [find?_append, hstop]
    | leaf n h =>
      simp only [hfirst] at hstop ⊢
      have htarget : checkTargetType env n.value = true ↔
          env.memory = true ∧ Allowed env chipTag children := by
        cases hchip : env.chip <;> simp [checkTargetType, Allowed, hstop.2, h.2.le, hchip]
      simp only [find?_append, hstop.1, Option.some_or, if_neg h.1, htarget, hstop.2]
      grind

/-- The last item has no chip type: the loop reads the list head as a node. -/
theorem checkItemChipType_past_end :
    checkItemChipType ⟨some ['a'], true, ⟨5, 1, ['b']⟩⟩ 5 [] (forest []) = false ∧
      Allowed ⟨some ['a'], true, ⟨5, 1, ['b']⟩⟩ 5 [] :=
  ⟨by decide, nofun⟩

end TeeOs.Conf
