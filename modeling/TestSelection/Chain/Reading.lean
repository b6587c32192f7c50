import TestSelection.Chain
import TestSelection.Clause

/-! Reading a chain: from its last element up to the root, each link is checked and each element goes in
    front of what was read before. What comes out is the filter that the chain spells. -/

namespace TestSelection

/-! ### Reading one element -/

/-- What was read of a chain below some element. -/
structure Passage where
  /-- The term that it starts with, unless it starts with a connector or is empty. -/
  head : Option Term := none
  rest : List (Connector × Term) := []
  deriving DecidableEq

namespace Passage

/-- Puts a connector in front. -/
def connect (p : Passage) (k : Connector) : Except FilterError Passage :=
  match p.head with
  | some t => .ok ⟨none, (k, t) :: p.rest⟩
  | none => .error (.dangling k.kind)

/-- Puts the element at `id` in front. -/
def prepend (p : Passage) (id : NodeId) (node : Node) : Except FilterError Passage :=
  match node.kind with
  | .root => .ok p
  | .and => p.connect .and
  | .or => p.connect .or
  | .not =>
    match p.head with
    | some ⟨criterion, false⟩ => .ok ⟨some ⟨criterion, true⟩, p.rest⟩
    | _ => .error (.bareNegation id)
  | _ =>
    match node.criterion with
    | some criterion => .ok ⟨some ⟨criterion, false⟩, p.rest⟩
    | none => .error (.noPredicate id)

/-- What was read, as a filter. -/
def filter (p : Passage) : Filter :=
  match p.head with
  | none => .everything
  | some t => .clause ⟨t, p.rest⟩

end Passage

/-! ### Walking up -/

namespace Chain

/-- The parent of an element, once the link between the two is checked: the parent has to be there, its
    child link has to lead back, and an element of its kind may come before one of this kind. -/
def parentOf (c : Chain) (id : NodeId) (kind : Kind) (up : NodeId) : Except FilterError Node :=
  match c.get? up with
  | none => .error (.unknownElement up)
  | some parent =>
    match parent.child.value with
    | none => .error (.childMissing up id)
    | some child =>
      if child ≠ id then .error (.childElsewhere up child id)
      else if parent.kind.mayPrecede kind then .ok parent
      else .error (.illegalLink parent kind)

/-- Reads from an element up to the root, in at most so many moves. -/
def ascend (c : Chain) (moves : Nat) (id : NodeId) (node : Node) (below : Passage) :
    Except FilterError Filter := do
  let passage ← below.prepend id node
  match node.parent with
  | none => if node.kind = .root then .ok passage.filter else .error (.orphan node.kind id)
  | some up =>
    let parent ← c.parentOf id node.kind up
    match moves with
    | 0 => .error .cycle
    | moves + 1 => c.ascend moves up parent passage

/-- The filter that a chain spells, read from its last element. -/
def read (c : Chain) (leaf : NodeId) : Except FilterError Filter :=
  match c.get? leaf with
  | none => .error (.unknownElement leaf)
  | some node =>
    if node.child.isSet then .error .notLeaf
    else if node.kind.isConnector ∨ node.kind = .not then .error (.dangling node.kind)
    else c.ascend c.size leaf node {}

/-- What is written between the tags of the filter that a chain spells. -/
def compile (c : Chain) (leaf : NodeId) : Except FilterError String :=
  (c.read leaf).map Filter.body

end Chain

end TestSelection
