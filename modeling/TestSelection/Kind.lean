/-! The kinds of elements that a filter is made of. The root, the connectors and the negation give a filter
    its structure; every other kind is a criterion. -/

namespace TestSelection

inductive Kind where
  | root | and | or | not
  | ids | test | category | className | method | namespaceName | property | fullName
  deriving DecidableEq, Repr

/-- What joins two terms. -/
inductive Connector where
  | and | or
  deriving DecidableEq, Repr

/-- What the pattern of a criterion is held against. -/
inductive Subject where
  | test | category | className | method | namespaceName | fullName
  deriving DecidableEq, Repr

namespace Kind

/-- The tag of an element in filter text. -/
def tag : Kind → String
  | root => "filter"
  | and => "and"
  | or => "or"
  | not => "not"
  | ids => "id"
  | test => "test"
  | category => "cat"
  | className => "class"
  | method => "method"
  | namespaceName => "namespace"
  | property => "prop"
  | fullName => "name"

/-- The name of a kind in messages. -/
def title : Kind → String
  | root => "Root"
  | and => "And"
  | or => "Or"
  | not => "Not"
  | ids => "Id"
  | test => "Test"
  | category => "Category"
  | className => "Class"
  | method => "Method"
  | namespaceName => "Namespace"
  | property => "Property"
  | fullName => "Name"

/-- The name of a kind in JSON. -/
def label : Kind → String
  | root => "root"
  | and => "and"
  | or => "or"
  | not => "not"
  | ids => "id"
  | test => "test"
  | category => "category"
  | className => "class"
  | method => "method"
  | namespaceName => "namespace"
  | property => "property"
  | fullName => "name"

/-- Every kind, the structural ones first. -/
def all : List Kind :=
  [root, and, or, not, ids, test, category, className, method, namespaceName, property, fullName]

/-- The kind with a given tag. -/
def ofTag? (tag : String) : Option Kind := all.find? (·.tag == tag)

/-- The kind with a given name in JSON. -/
def ofLabel? (label : String) : Option Kind := all.find? (·.label == label)

def isStructural : Kind → Bool
  | root | and | or | not => true
  | _ => false

def isCriterion (k : Kind) : Bool := !k.isStructural

/-- Whether a kind joins two terms. -/
def isConnector : Kind → Bool
  | and | or => true
  | _ => false

/-- Whether an element may come directly after another one: a connector follows a criterion, a criterion
    follows anything else, and a negation follows the root and the connectors. -/
def mayPrecede : Kind → Kind → Bool
  | root, k | and, k | or, k => k.isCriterion || k == not
  | not, k => k.isCriterion
  | _, k => k.isConnector

theorem ofTag?_tag (k : Kind) : ofTag? k.tag = some k := by cases k <;> rfl

theorem tag_of_ofTag? {tag : String} {k : Kind} (h : ofTag? tag = some k) : k.tag = tag := by
  simpa using List.find?_some h

theorem ofLabel?_label (k : Kind) : ofLabel? k.label = some k := by cases k <;> rfl

end Kind

namespace Connector

def kind : Connector → Kind
  | and => .and
  | or => .or

def tag (k : Connector) : String := k.kind.tag

end Connector

namespace Subject

def kind : Subject → Kind
  | test => .test
  | category => .category
  | className => .className
  | method => .method
  | namespaceName => .namespaceName
  | fullName => .fullName

def tag (s : Subject) : String := s.kind.tag

/-- The subject that a kind of criterion is about; ids and properties have none. -/
def ofKind? : Kind → Option Subject
  | .test => some test
  | .category => some category
  | .className => some className
  | .method => some method
  | .namespaceName => some namespaceName
  | .fullName => some fullName
  | _ => none

theorem ofKind?_eq_some_iff {k : Kind} {s : Subject} : ofKind? k = some s ↔ k = s.kind := by
  cases k <;> cases s <;> simp [ofKind?, kind]

end Subject

end TestSelection
