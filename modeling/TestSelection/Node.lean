import TestSelection.Criterion
import TestSelection.Text.Quoted

/-! A node is one element of a chain: its kind, the node before it, a slot for the node after it, and the
    criterion it holds, if it is one. -/

namespace TestSelection

/-! ### Slots -/

/-- A cell that is assigned at most once. -/
structure Slot (α : Type) where
  value : Option α := none
  deriving DecidableEq

namespace Slot
variable {α : Type}

def isSet (s : Slot α) : Bool := s.value.isSome

/-- Assigns an empty slot; a value for a slot that is taken is handed back. -/
def set (s : Slot α) (a : α) : Except α (Slot α) :=
  match s.value with
  | none => .ok ⟨some a⟩
  | some _ => .error a

/-- A slot as messages show it. -/
def describe (describeValue : α → String) (s : Slot α) : String :=
  match s.value with
  | none => "SetOnce(None)"
  | some a => "SetOnce(Some(" ++ describeValue a ++ "))"

theorem set_eq_ok_iff {s t : Slot α} {a : α} : s.set a = .ok t ↔ s.value = none ∧ t = ⟨some a⟩ := by
  obtain ⟨_ | b⟩ := s <;> simp [set, eq_comm]

end Slot

/-! ### Nodes -/

/-- The place of a node in its chain. -/
abbrev NodeId := Nat

/-- A node as messages refer to it. -/
def NodeId.mark (id : NodeId) : String := "#" ++ toString id

structure Node where
  kind : Kind
  parent : Option NodeId := none
  child : Slot NodeId := {}
  criterion : Option Criterion := none
  deriving DecidableEq

/-! ### Nodes in messages -/

/-- An optional value as messages show it. -/
def describeOption {α : Type} (describeValue : α → String) : Option α → String
  | none => "None"
  | some a => "Some(" ++ describeValue a ++ ")"

/-- The place of a node as messages spell it out. -/
def NodeId.describe (id : NodeId) : String := "NodeId(" ++ toString id ++ ")"

/-- A criterion with all its parts. -/
def Criterion.describe (c : Criterion) : String :=
  "Criterion \x7b kind: " ++ c.kind.title ++ ", name: " ++ Text.quoted c.name ++ ", value: " ++
    describeOption Text.quoted c.value? ++ ", is_regex: " ++ (if c.isRegex then "true" else "false") ++ " \x7d"

/-- A node with all its parts. -/
def Node.describe (n : Node) : String :=
  "Node \x7b kind: " ++ n.kind.title ++ ", parent: " ++ describeOption NodeId.describe n.parent ++ ", child: " ++
    n.child.describe NodeId.describe ++ ", criterion: " ++ describeOption Criterion.describe n.criterion ++ " \x7d"

end TestSelection
