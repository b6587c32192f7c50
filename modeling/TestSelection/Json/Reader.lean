import TestSelection.Json
import TestSelection.Json.Token

/-! Reading JSON texts. Values are put together from tokens one by one (`Assembly.step`), with the arrays and
    objects still open on a stack, so values may be nested to any depth. -/

namespace TestSelection.Json

/-- An array or object whose end has not come yet; what it holds so far is in reverse order. -/
inductive OpenValue where
  | array (earlier : List Json)
  | object (earlier : List (String × Json)) (name : String)

/-- How far a value is put together. The arrays and objects around the current place are on a stack, the
    innermost one first. -/
inductive Assembly where
  /-- A value has to come. -/
  | value (around : List OpenValue)
  /-- A value or the end of an array has to come. -/
  | firstItem (around : List OpenValue)
  /-- A name or the end of an object has to come. -/
  | firstName (around : List OpenValue)
  /-- A name has to come. -/
  | name (earlier : List (String × Json)) (around : List OpenValue)
  | colon (earlier : List (String × Json)) (name : String) (around : List OpenValue)
  /-- A value has come. -/
  | after (v : Json) (around : List OpenValue)

namespace Assembly

/-- The start of a value. -/
def stepValue (around : List OpenValue) : Token → Option Assembly
  | .null => some (after Json.null around)
  | .bool b => some (after (Json.bool b) around)
  | .number written => some (after (Json.number written) around)
  | .string written => some (after (Json.string written) around)
  | .openArray => some (firstItem around)
  | .openObject => some (firstName around)
  | _ => none

/-- What comes after a value: a comma, or the end of what it is in. -/
def stepAfter (v : Json) : List OpenValue → Token → Option Assembly
  | .array earlier :: around, .comma => some (value (.array (v :: earlier) :: around))
  | .array earlier :: around, .closeArray => some (after (Json.array (v :: earlier).reverse) around)
  | .object earlier n :: around, .comma => some (name ((n, v) :: earlier) around)
  | .object earlier n :: around, .closeObject =>
    some (after (Json.object ((n, v) :: earlier).reverse) around)
  | _, _ => none

/-- Takes one more token. -/
def step : Assembly → Token → Option Assembly
  | value around, t => stepValue around t
  | firstItem around, .closeArray => some (after (Json.array []) around)
  | firstItem around, t => stepValue (.array [] :: around) t
  | firstName around, .closeObject => some (after (Json.object []) around)
  | firstName around, .string n => some (colon [] n around)
  | name earlier around, .string n => some (colon earlier n around)
  | colon earlier n around, .colon => some (value (.object earlier n :: around))
  | after v around, t => stepAfter v around t
  | _, _ => none

/-- The value, if it is complete when the tokens end. -/
def finish : Assembly → Option Json
  | after v [] => some v
  | _ => none

end Assembly

/-- The value that some tokens make up. -/
def ofTokens? (ts : List Token) : Option Json := (ts.foldlM Assembly.step (.value [])).bind Assembly.finish

/-- The value that a text writes, if it is well formed. -/
def read? (s : String) : Option Json := (tokens? s.toList).bind ofTokens?

end TestSelection.Json
