import TestSelection.Markup.Entity
import TestSelection.Markup.ParseError
import TestSelection.Text.Basic

/-! Elements: a name, attributes, and between the tags text and further elements. They are put together from
    tokens one by one (`Assembly.step`), with the elements still open on a stack. -/

namespace TestSelection.Markup

/-- An element. All of its own text is joined into one, wherever its children stand. -/
structure Element where
  name : String
  /-- The place of its opening tag. -/
  span : Span
  attributes : List (String × String) := []
  children : List Element := []
  text : String := ""

/-! ### Putting elements together -/

/-- An element whose end has not come yet. -/
structure OpenElement where
  name : String
  span : Span
  attributes : List (String × String) := []
  /-- The children so far, the latest first. -/
  earlier : List Element := []
  text : String := ""

/-- The element, once its end has come. -/
def OpenElement.element (e : OpenElement) : Element :=
  ⟨e.name, e.span, e.attributes, e.earlier.reverse, e.text⟩

/-- Whether an element has an attribute of a given name. -/
def OpenElement.hasAttribute (e : OpenElement) (attr : String) : Bool :=
  e.attributes.any fun a => a.1 == attr

/-- What may come next inside an opening tag. -/
inductive TagStage where
  /-- An attribute, or the end of the tag. -/
  | attrOrEnd
  /-- The `=` after the name of an attribute, which stands at `span`. -/
  | equals (attr : String) (span : Span)
  /-- The value of that attribute. -/
  | value (attr : String) (span : Span)

/-- How far elements are put together. The elements around the current one are on a stack, the innermost
    one first. -/
inductive Assembly where
  | beforeRoot
  | inTag (current : OpenElement) (around : List OpenElement) (stage : TagStage)
  | inContent (current : OpenElement) (around : List OpenElement)
  | afterRoot (root : Element)

namespace Assembly

/-- What follows once the current element is complete. -/
def complete (current : OpenElement) : List OpenElement → Assembly
  | [] => afterRoot current.element
  | parent :: around => inContent { parent with earlier := current.element :: parent.earlier } around

/-- Refuses a token with a cause, at the place of the token. -/
def refuse (t : Token) (cause : ParseError.Cause) : Except ParseError Assembly :=
  .error ⟨cause, some t.span⟩

/-- One token inside the opening tag of an element. -/
def stepInTag (current : OpenElement) (around : List OpenElement) (t : Token) :
    TagStage → Except ParseError Assembly
  | .attrOrEnd =>
    match t.lexeme with
    | .attrName attr => .ok (inTag current around (.equals attr t.span))
    | .selfClose => .ok (complete current around)
    | .tagEnd => .ok (inContent current around)
    | found => refuse t (.strayInTag found current.name)
  | .equals attr span =>
    match t.lexeme with
    | .equals => .ok (inTag current around (.value attr span))
    | found => refuse t (.expected .equals found)
  | .value attr span =>
    match t.lexeme with
    | .quotedValue raw =>
      if current.hasAttribute attr then
        .error ⟨.duplicateAttribute attr current.name, some span⟩
      else
        let attributes := current.attributes ++ [(attr, decode raw)]
        .ok (inTag { current with attributes } around .attrOrEnd)
    | found => refuse t (.expected (.quotedValue "") found)

/-- One token between the tags of an element. -/
def stepInContent (current : OpenElement) (around : List OpenElement) (t : Token) :
    Except ParseError Assembly :=
  match t.lexeme with
  | .openTag name =>
    if around.length + 1 < maxNesting then
      .ok (inTag { name, span := t.span } (current :: around) .attrOrEnd)
    else refuse t .tooDeep
  | .text raw => .ok (inContent { current with text := current.text ++ decode raw } around)
  | .closeTag closing =>
    if closing = current.name then .ok (complete current around)
    else refuse t (.mismatchedClose current.name closing)
  | found => refuse t (.strayInContent found current.name)

/-- Takes one more token. -/
def step (a : Assembly) (t : Token) : Except ParseError Assembly :=
  match a with
  | beforeRoot =>
    match t.lexeme with
    | .openTag name => .ok (inTag { name, span := t.span } [] .attrOrEnd)
    | .text raw => if Text.blank raw then .ok a else refuse t (.expected (.openTag "") (.text raw))
    | found => refuse t (.expected (.openTag "") found)
  | inTag current around stage => stepInTag current around t stage
  | inContent current around => stepInContent current around t
  | afterRoot _ =>
    match t.lexeme with
    | .text raw => if Text.blank raw then .ok a else refuse t (.afterRoot (.text raw))
    | found => refuse t (.afterRoot found)

/-- The root element, if it is complete when the tokens end. -/
def finish : Assembly → Except ParseError Element
  | beforeRoot => .error ⟨.endInsteadOf (.openTag ""), none⟩
  | inTag current _ .attrOrEnd => .error ⟨.unterminatedTag current.name, none⟩
  | inTag _ _ (.equals ..) => .error ⟨.endInsteadOf .equals, none⟩
  | inTag _ _ (.value ..) => .error ⟨.endInsteadOf (.quotedValue ""), none⟩
  | inContent current _ => .error ⟨.missingClose current.name, none⟩
  | afterRoot root => .ok root

end Assembly

/-- The root element that some tokens make up. -/
def Element.ofTokens (ts : List Token) : Except ParseError Element := do
  (← ts.foldlM Assembly.step .beforeRoot).finish

end TestSelection.Markup
