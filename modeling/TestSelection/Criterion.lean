import TestSelection.Kind
import TestSelection.Markup.Entity
import TestSelection.Text.Basic

/-! A criterion says which tests it picks: those whose subject matches a pattern, those with a property, or
    those with one of some ids. A term is a criterion or the negation of one. This file holds both and the
    filter text that they are written as. -/

namespace TestSelection

/-- One predicate on tests. The texts that it compares are never blank. -/
inductive Criterion where
  | pattern (subject : Subject) (text : Text.Filled) (isRegex : Bool)
  | property (name value : Text.Filled) (isRegex : Bool)
  /-- The ids are kept as one text, joined by commas. -/
  | ids (joined : Text.Filled)
  deriving DecidableEq

namespace Criterion

def kind : Criterion → Kind
  | pattern subject _ _ => subject.kind
  | property _ _ _ => .property
  | ids _ => .ids

def tag (c : Criterion) : String := c.kind.tag

/-- The name of a property, the ids joined by commas, or the pattern. -/
def name : Criterion → String
  | pattern _ text _ => text.text
  | property name _ _ => name.text
  | ids joined => joined.text

/-- The value that a property has to have. -/
def value? : Criterion → Option String
  | property _ value _ => some value.text
  | _ => none

def isRegex : Criterion → Bool
  | pattern _ _ isRegex => isRegex
  | property _ _ isRegex => isRegex
  | ids _ => false

/-- What is written between the tags. -/
def body (c : Criterion) : String := c.value?.getD c.name

/-- The ids of an id criterion. -/
def testIds : Criterion → List String
  | ids joined => Text.commaPieces joined.text
  | _ => []

/-- The attributes: a mark on regular expressions, then the name of a property. -/
def attributes : Criterion → String
  | pattern _ _ isRegex => if isRegex then " re=\"1\"" else ""
  | property name _ isRegex =>
    (if isRegex then " re=\"1\"" else "") ++ " name=\"" ++ Markup.escape name.text ++ "\""
  | ids _ => ""

/-- The criterion as filter text without its tags. -/
def bare (c : Criterion) : String := Markup.escape c.body

/-- The criterion as filter text. -/
def tagged (c : Criterion) : String :=
  "<" ++ c.tag ++ c.attributes ++ ">" ++ c.bare ++ "</" ++ c.tag ++ ">"

theorem isCriterion_kind (c : Criterion) : c.kind.isCriterion = true := by
  rcases c with ⟨s, _, _⟩ | _ | _
  · cases s <;> rfl
  · rfl
  · rfl

end Criterion

/-- A criterion, or the negation of one. -/
structure Term where
  criterion : Criterion
  negated : Bool := false
  deriving DecidableEq

namespace Term

def tag (t : Term) : String := if t.negated then Kind.not.tag else t.criterion.tag

/-- The term as filter text without its outer tags. -/
def bare (t : Term) : String := if t.negated then t.criterion.tagged else t.criterion.bare

/-- The term as filter text. -/
def tagged (t : Term) : String :=
  if t.negated then "<not>" ++ t.criterion.tagged ++ "</not>" else t.criterion.tagged

end Term

end TestSelection
