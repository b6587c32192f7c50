import TestSelection.FilterError

/-! Criteria made from plain texts, which may be refused: a pattern, the name of a property and its value
    must not be blank, and of some ids at least one has to be left once blank ones are dropped. -/

namespace TestSelection.Criterion

/-- A criterion of a given kind that holds its subject against a pattern. -/
def ofKind (kind : Kind) (text : String) (isRegex : Bool) : Except FilterError Criterion :=
  match Subject.ofKind? kind with
  | some subject =>
    match Text.Filled.of? text with
    | some text => .ok (pattern subject text isRegex)
    | none => .error .blankName
  | none => .error (if kind.isCriterion then .dedicatedKind kind else .notCriterionKind kind)

/-- A criterion on a property; its name is looked at before its value. -/
def ofProperty (name value : String) (isRegex : Bool) : Except FilterError Criterion :=
  match Text.Filled.of? name, Text.Filled.of? value with
  | some name, some value => .ok (property name value isRegex)
  | none, _ => .error .blankName
  | _, none => .error .blankValue

/-- The ids that are kept of a list: trimmed, not blank, each at its first place. -/
def keptIds (testIds : List String) : List String :=
  ((testIds.map Text.trim).filter (· ≠ "")).eraseDups

/-- A criterion on one of some ids. -/
def ofIds (testIds : List String) : Except FilterError Criterion :=
  match Text.Filled.of? (",".intercalate (keptIds testIds)) with
  | some joined => .ok (ids joined)
  | none => .error .noTestIds

/-- The ways to ask for a criterion. -/
inductive Recipe where
  | ofKind (kind : Kind) (text : String) (isRegex : Bool)
  | ofProperty (name value : String) (isRegex : Bool)
  | ofIds (testIds : List String)
  deriving DecidableEq

/-- The criterion that is asked for. -/
def Recipe.make : Recipe → Except FilterError Criterion
  | ofKind kind text isRegex => Criterion.ofKind kind text isRegex
  | ofProperty name value isRegex => Criterion.ofProperty name value isRegex
  | ofIds testIds => Criterion.ofIds testIds

end TestSelection.Criterion
