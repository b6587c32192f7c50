import TestSelection.FilterError

/-! A chain holds the elements of a filter in the order in which they were attached, the root first. Nodes
    refer to each other by their places. A node that was moved from elsewhere keeps its links, and links can
    be overwritten, so a chain may be any graph; `attach` alone makes one simple chain. -/

namespace TestSelection

/-! ### Making nodes -/

namespace Node

/-- The root of a chain. -/
def root : Node := { kind := .root }

/-- A root, a connector or a negation. -/
def structural (kind : Kind) (parent : Option NodeId) : Except FilterError Node :=
  if kind.isStructural then
    match parent with
    | none => if kind = .root then .ok root else .error .missingParent
    | some id => if kind = .root then .error .rootWithParent else .ok { kind, parent := some id }
  else .error (.notStructuralKind kind)

/-- A node that holds a criterion. -/
def ofCriterion (parent : Option NodeId) (c : Criterion) : Except FilterError Node :=
  match parent with
  | none => .error .missingParent
  | some id => .ok { kind := c.kind, parent := some id, criterion := some c }

end Node

/-! ### Chains -/

structure Chain where
  nodes : Array Node
  deriving DecidableEq

namespace Chain

/-- A chain that holds only its root. -/
def fresh : Chain := ⟨#[Node.root]⟩

/-- The place of the first node. -/
def root : NodeId := 0

def size (c : Chain) : Nat := c.nodes.size

def get? (c : Chain) (id : NodeId) : Option Node := c.nodes[id]?

/-- Where the child link of a node leads, if the node is there and its slot is set. -/
def child? (c : Chain) (id : NodeId) : Option NodeId := (c.get? id).bind (·.child.value)

/-- Whether a node is there and its slot is free. -/
def isLeaf (c : Chain) (id : NodeId) : Bool := (c.get? id).any fun n => !n.child.isSet

/-- Adds a node at the end and makes it the child of its parent. -/
def attach (c : Chain) (node : Node) : Except FilterError (Chain × NodeId) :=
  match node.parent with
  | none => .error .rootAttached
  | some id =>
    match c.get? id with
    | none => .error (.unknownParent id)
    | some parent =>
      match parent.child.set c.size with
      | .error _ => .error (.childAlreadySet parent.kind)
      | .ok child => .ok (⟨(c.nodes.setIfInBounds id { parent with child }).push node⟩, c.size)

/-- Puts a node in the place of another one. -/
def replace (c : Chain) (id : NodeId) (node : Node) : Chain := ⟨c.nodes.setIfInBounds id node⟩

/-- Overwrites the child link of a node. -/
def relink (c : Chain) (id : NodeId) (child : Option NodeId) : Chain :=
  ⟨c.nodes.modify id fun n => { n with child := ⟨child⟩ }⟩

/-! ### Following child links -/

/-- Where child links lead from a node in at most so many moves. -/
def descend (c : Chain) : Nat → NodeId → NodeId
  | 0, id => id
  | moves + 1, id =>
    match c.child? id with
    | none => id
    | some next => c.descend moves next

/-- The end of the child links from the root; links that run in a circle are left after as many moves as
    there are nodes. -/
def leaf (c : Chain) : NodeId := c.descend c.size root

/-- At most so many nodes along the child links from a node, each with its place; a place outside the chain
    ends the list. -/
def trailFrom (c : Chain) : Nat → NodeId → List (NodeId × Option Node)
  | 0, _ => []
  | count + 1, id =>
    (id, c.get? id) ::
      match c.child? id with
      | none => []
      | some next => c.trailFrom count next

/-- The nodes along the child links from the root, one more than there are nodes at the most. -/
def trail (c : Chain) : List (NodeId × Option Node) := c.trailFrom (c.size + 1) root

end Chain

end TestSelection
