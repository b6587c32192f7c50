import TestSelection.Chain.Reading
import TestSelection.Markup.Scan
import TestSelection.Selection.OfElement

/-! Documents: filters as text, inside one `filter` element. A filter that asks for nothing is written as an
    empty element. -/

namespace TestSelection

/-- The selection that filter text stands for. -/
def Selection.parse (s : String) : Except Markup.ParseError Selection := ofTokens (Markup.scan s)

/-- What lies between two texts at the ends of a text, if they are there and do not overlap. -/
def Text.between? (opening closing s : List Char) : Option (List Char) :=
  if opening.isPrefixOf s && closing.isSuffixOf (s.drop opening.length) then
    some ((s.drop opening.length).take (s.length - opening.length - closing.length))
  else none

structure Document where
  text : String
  deriving DecidableEq

namespace Document

/-- A document with some text inside its `filter` element. -/
def ofBody (body : String) : Document :=
  if body = "" then ⟨"<filter />"⟩ else ⟨"<filter>" ++ body ++ "</filter>"⟩

/-- What is written inside the `filter` element. -/
def inner (d : Document) : String :=
  ((Text.between? "<filter>".toList "</filter>".toList d.text.toList).map String.ofList).getD ""

/-- Whether a document has nothing inside, so that it picks every test. -/
def isEmpty (d : Document) : Bool := d.inner == ""

/-- The selection that a document stands for. -/
def parse (d : Document) : Except Markup.ParseError Selection := Selection.parse d.text

/-- A document as a JSON string. -/
def json (d : Document) : Json := Json.ofText d.text

end Document

/-- The document of a filter. -/
def Filter.document (f : Filter) : Document := Document.ofBody f.body

/-- The document of the filter that a chain spells. -/
def Chain.document (c : Chain) (leaf : NodeId) : Except FilterError Document :=
  (c.read leaf).map Filter.document

end TestSelection
