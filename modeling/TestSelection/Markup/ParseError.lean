import TestSelection.Markup.Token

/-! What can be wrong with filter text, and where. Some causes are found while tokens are put together to
    elements; the others, while elements are taken for a selection. -/

namespace TestSelection.Markup

/-- How many elements may be open at once, the root included. -/
def maxNesting : Nat := 256

inductive ParseError.Cause where
  /-- Another token has to come here; the wanted one is given with an empty name or value. -/
  | expected (wanted found : Lexeme)
  | endInsteadOf (wanted : Lexeme)
  | tooDeep
  | unterminatedTag (name : String)
  | duplicateAttribute (attr name : String)
  | strayInTag (found : Lexeme) (name : String)
  | missingClose (name : String)
  | mismatchedClose (name closing : String)
  | strayInContent (found : Lexeme) (name : String)
  | afterRoot (found : Lexeme)
  | notFilter (name : String)
  | unexpectedAttribute (attr name : String)
  | unexpectedText (name : String)
  | unexpectedChild (child name : String)
  | unknownElement (name : String)
  | nestedRoot
  | emptyGroup (name : String)
  | notExactlyOne
  | noIds
  | emptyCriterion (name : String)
  /-- The mark on regular expressions has a value other than `1`. -/
  | regexMark (found : String)
  | noPropertyName
  deriving DecidableEq, Repr

structure ParseError where
  cause : ParseError.Cause
  /-- Where it went wrong, unless the text ended too early. -/
  span : Option Span
  deriving DecidableEq, Repr

/-- The message shown to a user. -/
def ParseError.Cause.message : ParseError.Cause → String
  | expected wanted found => "Expected " ++ wanted.describe ++ ", found " ++ found.describe
  | endInsteadOf wanted => "Expected " ++ wanted.describe ++ ", but reached end of input"
  | tooDeep => "Elements are nested deeper than " ++ toString maxNesting ++ " levels"
  | unterminatedTag name => "Unterminated <" ++ name ++ "> tag"
  | duplicateAttribute attr name => "Duplicate attribute '" ++ attr ++ "' on <" ++ name ++ ">"
  | strayInTag found name => "Unexpected " ++ found.describe ++ " inside <" ++ name ++ "> tag"
  | missingClose name => "Missing closing tag </" ++ name ++ ">"
  | mismatchedClose name closing => "Expected </" ++ name ++ ">, found </" ++ closing ++ ">"
  | strayInContent found name => "Unexpected " ++ found.describe ++ " inside <" ++ name ++ ">"
  | afterRoot found => "Unexpected content after the root element: " ++ found.describe
  | notFilter name => "Expected <filter> root element, found <" ++ name ++ ">"
  | unexpectedAttribute attr name => "Unexpected attribute '" ++ attr ++ "' on <" ++ name ++ ">"
  | unexpectedText name => "Unexpected text inside <" ++ name ++ ">"
  | unexpectedChild child name => "Unexpected element <" ++ child ++ "> inside <" ++ name ++ ">"
  | unknownElement name => "Unknown element <" ++ name ++ ">"
  | nestedRoot => "<filter> may only appear as the root element"
  | emptyGroup name => "<" ++ name ++ "> must contain at least one element"
  | notExactlyOne => "<not> must contain exactly one element"
  | noIds => "<id> must list at least one test id"
  | emptyCriterion name => "<" ++ name ++ "> must not be empty"
  | regexMark found => "Expected re=\"1\", found re=\"" ++ found ++ "\""
  | noPropertyName => "<prop> requires a non-empty name attribute"

def ParseError.message (e : ParseError) : String := e.cause.message

end TestSelection.Markup
