import TestSelection.Markup.Element
import TestSelection.Selection

/-! Taking an element for a selection. The root is a `filter` and joins its children by `and`; a group has
    children, a negation one child, and a criterion text. What an element must not have is looked for before
    what it has to have, and text outside criteria may only be white space. -/

namespace TestSelection.Selection
open Markup

/-! ### What elements must not have -/

/-- Refuses an element with a cause, at the place of its opening tag. -/
def refuse {α : Type} (e : Element) (cause : ParseError.Cause) : Except ParseError α :=
  .error ⟨cause, some e.span⟩

def checkNoAttributes (e : Element) : Except ParseError Unit :=
  match e.attributes with
  | [] => .ok ()
  | (attr, _) :: _ => refuse e (.unexpectedAttribute attr e.name)

def checkNoText (e : Element) : Except ParseError Unit :=
  if Text.blank e.text then .ok () else refuse e (.unexpectedText e.name)

def checkNoChildren (e : Element) : Except ParseError Unit :=
  match e.children with
  | [] => .ok ()
  | child :: _ => refuse child (.unexpectedChild child.name e.name)

/-! ### Criteria -/

/-- The trimmed ids of an id criterion. -/
def idsOfElement (e : Element) : Except ParseError Selection := do
  checkNoAttributes e
  checkNoChildren e
  match Text.filledPieces e.text with
  | [] => refuse e .noIds
  | testIds => .ok (ids testIds)

/-- Takes one attribute of a criterion into its matcher: the mark on regular expressions, or the name of a
    property. -/
def addAttribute (e : Element) (m : Matcher) (a : String × String) : Except ParseError Matcher :=
  if a.1 = "re" then
    if a.2 = "1" then .ok { m with isRegex := true } else refuse e (.regexMark a.2)
  else if a.1 = "name" ∧ m.kind = .property then .ok { m with property := some a.2 }
  else refuse e (.unexpectedAttribute a.1 e.name)

/-- The matcher of any other criterion. A property has to have a name that is not blank. -/
def matcherOfElement (kind : Kind) (e : Element) : Except ParseError Selection := do
  checkNoChildren e
  if Text.blank e.text then refuse e (.emptyCriterion e.name)
  let m ← e.attributes.foldlM (addAttribute e) { kind, pattern := e.text }
  if kind = .property ∧ (m.property.all Text.blank) then refuse e .noPropertyName
  .ok (matching m)

/-! ### Trees -/

/-- Looks for what a group and a negation must not have, then at what their children stand for. -/
def membersOf (e : Element) (children : Except ParseError (List Selection)) :
    Except ParseError (List Selection) := do
  checkNoAttributes e
  checkNoText e
  children

/-- The selection below the root that an element stands for, given what its children stand for. -/
def combine (e : Element) (children : Except ParseError (List Selection)) : Except ParseError Selection :=
  match Kind.ofTag? e.name with
  | none => refuse e (.unknownElement e.name)
  | some .root => refuse e .nestedRoot
  | some .and => do
    match ← membersOf e children with
    | [] => refuse e (.emptyGroup e.name)
    | members => .ok (and members)
  | some .or => do
    match ← membersOf e children with
    | [] => refuse e (.emptyGroup e.name)
    | members => .ok (or members)
  | some .not => do
    match ← membersOf e children with
    | [member] => .ok (not member)
    | _ => refuse e .notExactlyOne
  | some .ids => idsOfElement e
  | some kind => matcherOfElement kind e

mutual

/-- The selection below the root that an element stands for. -/
def ofElement : Element → Except ParseError Selection
  | ⟨name, span, attributes, children, text⟩ =>
    combine ⟨name, span, attributes, children, text⟩ (ofElements children)

/-- The selections that some elements stand for; the first one that is refused decides. -/
def ofElements : List Element → Except ParseError (List Selection)
  | [] => .ok []
  | e :: es => do
    let s ← ofElement e
    return s :: (← ofElements es)

end

/-- The selection that a root element stands for. -/
def ofRoot (e : Element) : Except ParseError Selection :=
  if e.name = Kind.root.tag then do
    match ← membersOf e (ofElements e.children) with
    | [] => .ok all
    | [member] => .ok member
    | members => .ok (and members)
  else refuse e (.notFilter e.name)

/-- The selection that some tokens of filter text stand for. -/
def ofTokens (ts : List Token) : Except ParseError Selection := do
  ofRoot (← Element.ofTokens ts)

end TestSelection.Selection
