import TestSelection.Text.Quoted

/-! The tokens of filter text. Names and texts are kept as they are written, entities included. -/

namespace TestSelection.Markup

/-- A piece of a text, from one byte offset up to another. -/
structure Span where
  start : Nat
  stop : Nat
  deriving DecidableEq, Repr

/-- What a token is. -/
inductive Lexeme where
  /-- `<name` -/
  | openTag (name : String)
  /-- `</name>` -/
  | closeTag (name : String)
  /-- `>` -/
  | tagEnd
  /-- `/>` -/
  | selfClose
  | attrName (name : String)
  /-- `=` -/
  | equals
  /-- A value in quotes, without them. -/
  | quotedValue (raw : String)
  /-- What stands between tags. -/
  | text (raw : String)
  | illegal
  deriving DecidableEq, Repr

structure Token where
  lexeme : Lexeme
  span : Span
  deriving DecidableEq, Repr

/-- A lexeme as messages show it. -/
def Lexeme.describe : Lexeme → String
  | openTag name => "OpenTag(" ++ Text.quoted name ++ ")"
  | closeTag name => "CloseTag(" ++ Text.quoted name ++ ")"
  | tagEnd => "TagEnd"
  | selfClose => "SelfClose"
  | attrName name => "AttrName(" ++ Text.quoted name ++ ")"
  | equals => "Eq"
  | quotedValue raw => "String(" ++ Text.quoted raw ++ ")"
  | text raw => "Text(" ++ Text.quoted raw ++ ")"
  | illegal => "Illegal"

end TestSelection.Markup
