import TestSelection.Criterion.Checked
import TestSelection.Document

/-! A bench holds chains that are being put together, and handles stand on their elements. A handle may be
    copied, and it stays when its chain grows; where it stands decides what may follow. Only an element
    without a child takes one, so of several handles that go on from one element the first one wins. -/

namespace TestSelection

/-- Where a handle stands. -/
inductive Place where
  | root | group | negation | criterion
  deriving DecidableEq, Repr

namespace Place

/-- Whether a criterion may follow. -/
def takesCriterion : Place → Bool
  | criterion => false
  | _ => true

/-- Whether a negation may follow. -/
def takesNegation : Place → Bool
  | root | group => true
  | _ => false

/-- Whether a connector may follow. -/
def takesConnector : Place → Bool
  | criterion => true
  | _ => false

end Place

/-- A handle on an element of one of the chains. -/
structure Handle where
  place : Place
  chain : Nat
  node : NodeId
  deriving DecidableEq, Repr

structure Bench where
  chains : Array Chain := #[]
  deriving DecidableEq

namespace Bench

/-- The chain that a handle is on. -/
def chainOf (b : Bench) (h : Handle) : Chain := b.chains.getD h.chain Chain.fresh

/-- Starts a new chain and stands on its root. -/
def begin (b : Bench) : Bench × Handle :=
  (⟨b.chains.push Chain.fresh⟩, ⟨.root, b.chains.size, Chain.root⟩)

/-- Attaches a node to the chain of a handle, and stands on it. -/
def attach (b : Bench) (h : Handle) (node : Node) (place : Place) : Except FilterError (Bench × Handle) :=
  ((b.chainOf h).attach node).map fun (chain, id) =>
    (⟨b.chains.setIfInBounds h.chain chain⟩, ⟨place, h.chain, id⟩)

/-- Goes on with a criterion. -/
def criterion (b : Bench) (h : Handle) (c : Criterion) (_ : h.place.takesCriterion = true) :
    Except FilterError (Bench × Handle) := do
  b.attach h (← Node.ofCriterion (some h.node) c) .criterion

/-- Goes on with a criterion that is made first, so that one that is refused is not attached anywhere. -/
def create (b : Bench) (h : Handle) (r : Criterion.Recipe) (hp : h.place.takesCriterion = true) :
    Except FilterError (Bench × Handle) := do
  b.criterion h (← r.make) hp

/-- Goes on with a negation. -/
def negation (b : Bench) (h : Handle) (_ : h.place.takesNegation = true) :
    Except FilterError (Bench × Handle) := do
  b.attach h (← Node.structural .not (some h.node)) .negation

/-- Goes on with a connector. -/
def connector (b : Bench) (h : Handle) (k : Connector) (_ : h.place.takesConnector = true) :
    Except FilterError (Bench × Handle) := do
  b.attach h (← Node.structural k.kind (some h.node)) .group

/-! ### Looking at a handle -/

def kind? (b : Bench) (h : Handle) : Option Kind := ((b.chainOf h).get? h.node).map (·.kind)

/-- Whether the element of a handle may still take a child. -/
def isLeaf (b : Bench) (h : Handle) : Bool := (b.chainOf h).isLeaf h.node

/-- The criterion that a handle stands on. -/
def criterion? (b : Bench) (h : Handle) : Option Criterion :=
  if h.place = .criterion then ((b.chainOf h).get? h.node).bind (·.criterion) else none

/-- The document of the filter that ends at the element of a handle. -/
def build (b : Bench) (h : Handle) : Except FilterError Document := (b.chainOf h).document h.node

end Bench

end TestSelection
