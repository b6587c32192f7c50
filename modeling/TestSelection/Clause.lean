import TestSelection.Criterion

/-! A clause is what a finished chain says: a term, and then connectors with a term each. It is read from
    left to right, whatever the connectors are. Terms that follow each other with the same connector form a
    run; where the connector changes, the run so far becomes the first member of the next one. -/

namespace TestSelection

/-- A term, then connectors with a term each. -/
structure Clause where
  first : Term
  rest : List (Connector × Term) := []
  deriving DecidableEq

/-- What a filter asks for: nothing at all, or what a clause says. -/
inductive Filter where
  | everything
  | clause (c : Clause)
  deriving DecidableEq

/-! ### The text of a clause

Runs nest to the left only, so their opening tags all stand in front of the first term. The text behind
them is written once, from left to right, and the tags that have to go in front of it are kept apart. -/

/-- Filter text that is being written. -/
structure Layout where
  /-- The runs closed so far, whose opening tags go in front of the text; the outermost comes first. -/
  closed : List Connector := []
  text : String
  /-- The connector of the run being written, once there is one. -/
  run : Option Connector := none
  deriving DecidableEq

namespace Layout

/-- Closes the run being written. -/
def close (l : Layout) : Layout :=
  match l.run with
  | none => l
  | some k => ⟨k :: l.closed, l.text ++ "</" ++ k.tag ++ ">", none⟩

/-- Adds a term with its connector, which first closes a run of the other connector. -/
def join (l : Layout) (k : Connector) (t : Term) : Layout :=
  let l := if l.run = some k then l else l.close
  ⟨l.closed, l.text ++ t.tagged, some k⟩

/-- The text of a term on its own. -/
def start (t : Term) : Layout := { text := t.tagged }

/-- The text with all opening tags in front; a last run of `and` needs no tags. -/
def finish (l : Layout) : String :=
  let l := if l.run = some .and then l else l.close
  String.join (l.closed.map fun k => "<" ++ k.tag ++ ">") ++ l.text

end Layout

/-- What is written between the tags of a filter. -/
def Clause.body (c : Clause) : String :=
  (c.rest.foldl (fun l link => Layout.join l link.1 link.2) (Layout.start c.first)).finish

/-- What is written between the tags of a filter. -/
def Filter.body : Filter → String
  | everything => ""
  | clause c => c.body

end TestSelection
