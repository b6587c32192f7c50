import TestSelection.Json.Written

/-! JSON values and their texts. A value keeps its strings and numbers as they are written, so that every
    well-formed text has a value, also one with a string that names no text. -/

namespace TestSelection

inductive Json where
  | null
  | bool (b : Bool)
  | number (written : String)
  /-- What is written between the quotes. -/
  | string (written : String)
  | array (items : List Json)
  /-- The members in order, each with its name as it is written. -/
  | object (members : List (String × Json))

namespace Json

/-- A text as a JSON string. -/
def ofText (s : String) : Json := string (encode s)

/-- The text of a JSON string, if it is one and names a text. -/
def text? : Json → Option String
  | string written => decode? written
  | _ => none

/-! ### On one line -/

mutual

/-- The text of a value, without any white space. -/
def compact : Json → String
  | null => "null"
  | bool b => if b then "true" else "false"
  | number written => written
  | string written => "\"" ++ written ++ "\""
  | array items => "[" ++ ",".intercalate (compactItems items) ++ "]"
  | object members => "\x7b" ++ ",".intercalate (compactMembers members) ++ "\x7d"

/-- The texts of some values. -/
def compactItems : List Json → List String
  | [] => []
  | v :: vs => v.compact :: compactItems vs

/-- The texts of some members. -/
def compactMembers : List (String × Json) → List String
  | [] => []
  | (name, v) :: rest => ("\"" ++ name ++ "\":" ++ v.compact) :: compactMembers rest

end

/-! ### Over several lines -/

/-- The start of a line at a given depth: two spaces for each level. -/
def margin (depth : Nat) : String := String.ofList (List.replicate (2 * depth) ' ')

/-- Lines between an opening and a closing mark; without any lines the marks stand together. -/
def block (depth : Nat) (opening closing : String) (lines : List String) : String :=
  if lines = [] then opening ++ closing
  else opening ++ "\n" ++ ",\n".intercalate lines ++ "\n" ++ margin depth ++ closing

mutual

/-- The text of a value with each item and each member on lines of its own, at a given depth. -/
def indentedAt (depth : Nat) : Json → String
  | null => "null"
  | bool b => if b then "true" else "false"
  | number written => written
  | string written => "\"" ++ written ++ "\""
  | array items => block depth "[" "]" (indentedItems (depth + 1) items)
  | object members => block depth "\x7b" "\x7d" (indentedMembers (depth + 1) members)

/-- The lines of some values. -/
def indentedItems (depth : Nat) : List Json → List String
  | [] => []
  | v :: vs => (margin depth ++ v.indentedAt depth) :: indentedItems depth vs

/-- The lines of some members. -/
def indentedMembers (depth : Nat) : List (String × Json) → List String
  | [] => []
  | (name, v) :: rest =>
    (margin depth ++ "\"" ++ name ++ "\": " ++ v.indentedAt depth) :: indentedMembers depth rest

end

/-- The text of a value with each item and each member on lines of its own. -/
def indented (v : Json) : String := v.indentedAt 0

end Json

end TestSelection
