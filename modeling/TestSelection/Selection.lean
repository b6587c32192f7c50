import TestSelection.Json
import TestSelection.Kind

/-! The selection tree that test runners take: what filter text says, with all its text decoded. -/

namespace TestSelection

/-- What one criterion holds tests against. -/
structure Matcher where
  kind : Kind
  /-- A name or a regular expression; of a property, the value. -/
  pattern : String
  isRegex : Bool := false
  /-- The name of the property, if it is one. -/
  property : Option String := none
  deriving DecidableEq

inductive Selection where
  /-- Every test. -/
  | all
  | and (members : List Selection)
  | or (members : List Selection)
  | not (member : Selection)
  | ids (testIds : List String)
  | matching (m : Matcher)

namespace Selection

mutual

/-- How many criteria there are in a tree. -/
def count : Selection → Nat
  | all => 0
  | and members | or members => countAll members
  | not member => member.count
  | ids _ | matching _ => 1

/-- How many criteria there are in some trees. -/
def countAll : List Selection → Nat
  | [] => 0
  | s :: rest => s.count + countAll rest

end

/-! ### JSON -/

/-- A branch of the tree: its type, and what it holds. -/
def branch (type : String) (value : Json) : Json := .object [("type", Json.ofText type), ("value", value)]

/-- The members of a matcher; a property that is missing has none. -/
def matcherJson (m : Matcher) : Json :=
  .object ([("kind", Json.ofText m.kind.label), ("pattern", Json.ofText m.pattern), ("is_regex", .bool m.isRegex)] ++
    (m.property.map fun p => ("property", Json.ofText p)).toList)

mutual

/-- The tree as a JSON value. -/
def json : Selection → Json
  | all => .object [("type", Json.ofText "all")]
  | and members => branch "and" (.array (jsonAll members))
  | or members => branch "or" (.array (jsonAll members))
  | not member => branch "not" member.json
  | ids testIds => branch "ids" (.array (testIds.map Json.ofText))
  | matching m => branch "match" (matcherJson m)

/-- Some trees as JSON values. -/
def jsonAll : List Selection → List Json
  | [] => []
  | s :: rest => s.json :: jsonAll rest

end

end Selection

end TestSelection
