import TestSelection.Node

/-! What can go wrong while a filter is put together or read off a chain. Each cause belongs to one
    category and has one wording. -/

namespace TestSelection

inductive FilterError where
  /-- A node other than a root stands alone. -/
  | missingParent
  | blankName
  | blankValue
  | noTestIds
  | rootWithParent
  | rootAttached
  /-- The element to read from is followed by another one. -/
  | notLeaf
  /-- A connector or a negation has no criterion after it. -/
  | dangling (kind : Kind)
  | noRoom (free offset needed : Nat)
  /-- A property or an id criterion is asked for by its kind alone. -/
  | dedicatedKind (kind : Kind)
  | notCriterionKind (kind : Kind)
  | notStructuralKind (kind : Kind)
  | illegalLink (parent : Node) (child : Kind)
  | offsetPastEnd (offset length : Nat)
  | childAlreadySet (kind : Kind)
  | unknownParent (id : NodeId)
  | unknownElement (id : NodeId)
  | childMissing (parent child : NodeId)
  | childElsewhere (parent found child : NodeId)
  | cycle
  | orphan (kind : Kind) (id : NodeId)
  | noPredicate (id : NodeId)
  | bareNegation (id : NodeId)
  deriving DecidableEq

namespace FilterError

/-- The categories of causes. -/
inductive Category where
  | nullArgument | validation | outOfRange | childAlreadySet | inconsistent
  deriving DecidableEq, Repr

def category : FilterError → Category
  | missingParent => .nullArgument
  | blankName | blankValue | noTestIds | rootWithParent | rootAttached | notLeaf | dangling _
  | noRoom .. => .validation
  | dedicatedKind _ | notCriterionKind _ | notStructuralKind _ | illegalLink ..
  | offsetPastEnd .. => .outOfRange
  | childAlreadySet _ => .childAlreadySet
  | unknownParent _ | unknownElement _ | childMissing .. | childElsewhere .. | cycle | orphan ..
  | noPredicate _ | bareNegation _ => .inconsistent

/-- The argument at fault. -/
def argument? : FilterError → Option String
  | missingParent | rootWithParent | illegalLink .. => some "parent"
  | blankName => some "name"
  | blankValue => some "value"
  | noTestIds => some "testIds"
  | rootAttached => some "node"
  | notLeaf | dangling _ => some "leaf"
  | noRoom .. => some "dest"
  | dedicatedKind _ | notCriterionKind _ | notStructuralKind _ => some "kind"
  | offsetPastEnd .. => some "offset"
  | childAlreadySet _ | unknownParent _ | unknownElement _ | childMissing .. | childElsewhere .. | cycle
  | orphan .. | noPredicate _ | bareNegation _ => none

/-- What is wrong, in words. -/
def detail : FilterError → String
  | missingParent => ""
  | blankName | blankValue => "must not be empty or blank"
  | noTestIds => "at least one non-blank test id is required"
  | rootWithParent => "a root element cannot have a parent"
  | rootAttached => "a chain has exactly one root and it cannot be attached"
  | notLeaf => "not the true leaf element"
  | dangling kind => "chain ends with a dangling `" ++ kind.tag ++ "`"
  | noRoom free offset needed =>
    toString free ++ " free slots after offset " ++ toString offset ++ ", " ++ toString needed ++ " needed"
  | dedicatedKind kind => kind.title ++ " needs its dedicated constructor"
  | notCriterionKind kind => kind.title ++ " is not a criterion kind"
  | notStructuralKind kind => kind.title ++ " is not a structural kind"
  | illegalLink parent child =>
    parent.kind.title ++ " cannot be followed by " ++ child.title ++ " (parent: " ++ parent.describe ++ ")"
  | offsetPastEnd offset length =>
    toString offset ++ " exceeds destination length " ++ toString length
  | childAlreadySet kind => kind.tag
  | unknownParent id => "parent " ++ id.mark ++ " is not part of this chain"
  | unknownElement id => "element " ++ id.mark ++ " is not part of the chain"
  | childMissing parent child =>
    "broken forward link: parent " ++ parent.mark ++ " of " ++ child.mark ++ " has no child"
  | childElsewhere parent found child =>
    "parent " ++ parent.mark ++ " points to " ++ found.mark ++ " instead of " ++ child.mark
  | cycle => "chain contains a cycle"
  | orphan kind id => "`" ++ kind.tag ++ "` element " ++ id.mark ++ " has no parent"
  | noPredicate id => "criterion " ++ id.mark ++ " has no predicate"
  | bareNegation id => "negation " ++ id.mark ++ " does not wrap a criterion"

/-- The value that is out of range. -/
def value? (e : FilterError) : Option String :=
  if e.category = .outOfRange then some e.detail else none

/-- The message shown to a user. -/
def message (e : FilterError) : String :=
  let argument := e.argument?.getD ""
  match e.category with
  | .nullArgument => "argument `" ++ argument ++ "` must not be empty"
  | .validation => "invalid argument `" ++ argument ++ "`: " ++ e.detail
  | .outOfRange => "argument `" ++ argument ++ "` is out of range: " ++ e.detail
  | .childAlreadySet => "child element is already set on `" ++ e.detail ++ "` element"
  | .inconsistent => "inconsistent filter chain: " ++ e.detail

end FilterError

end TestSelection
