import TestSelection.FilterError

/-! Sequences of items in insertion order, each under a tag of its own. An item is a term or again items under
    a tag, and two items are equal if they are built alike. -/

namespace TestSelection

inductive Item where
  | term (t : Term)
  | group (tag : String) (members : List Item)

namespace Item

/-! ### Equality -/

mutual

/-- Decides whether two items are equal. -/
def decEq : (a b : Item) → Decidable (a = b)
  | term s, term t => decidable_of_iff (s = t) (by simp)
  | term _, group .. => isFalse (by simp)
  | group .., term _ => isFalse (by simp)
  | group s as, group t bs =>
    have := decEqList as bs
    decidable_of_iff (s = t ∧ as = bs) (by simp)

/-- Decides whether two lists of items are equal. -/
def decEqList : (as bs : List Item) → Decidable (as = bs)
  | [], [] => isTrue rfl
  | [], _ :: _ => isFalse (by simp)
  | _ :: _, [] => isFalse (by simp)
  | a :: as, b :: bs =>
    have := decEq a b
    have := decEqList as bs
    decidable_of_iff (a = b ∧ as = bs) (by simp)

end

instance : DecidableEq Item := decEq

/-! ### Text -/

/-- The start and the end of an element around a text. -/
def wrap (tag text : String) : String := "<" ++ tag ++ ">" ++ text ++ "</" ++ tag ++ ">"

mutual

/-- An item as filter text; items under a tag are left out if there are none. -/
def tagged : Item → String
  | term t => t.tagged
  | group tag members => if members.isEmpty then "" else wrap tag (String.join (taggedAll members))

/-- Some items as filter text, each on its own. -/
def taggedAll : List Item → List String
  | [] => []
  | item :: rest => item.tagged :: taggedAll rest

end

end Item

/-- Members under a tag. -/
structure Sequence (α : Type) where
  tag : String
  members : List α := []

namespace Sequence
variable {α : Type}

def size (s : Sequence α) : Nat := s.members.length

def isEmpty (s : Sequence α) : Bool := s.members.isEmpty

/-- Adds a member at the end. -/
def push (s : Sequence α) (a : α) : Sequence α := { s with members := s.members ++ [a] }

/-- Adds a member at the end, if there is one to add. -/
def add (s : Sequence α) : Option α → Sequence α
  | none => s
  | some a => s.push a

/-- Adds some members at the end. -/
def extend (s : Sequence α) (as : List α) : Sequence α := { s with members := s.members ++ as }

/-- Takes all members out. -/
def clear (s : Sequence α) : Sequence α := { s with members := [] }

def contains [DecidableEq α] (s : Sequence α) (a : α) : Bool := s.members.contains a

/-- Takes the first of the members equal to `a` out, and says whether there was one. -/
def remove [DecidableEq α] (s : Sequence α) (a : α) : Sequence α × Bool :=
  ({ s with members := s.members.erase a }, s.contains a)

/-- Writes the members over part of a destination, from an offset on. They have to fit in. -/
def copyTo (s : Sequence α) (destination : List α) (offset : Nat) : Except FilterError (List α) :=
  if destination.length < offset then .error (.offsetPastEnd offset destination.length)
  else if destination.length - offset < s.size then
    .error (.noRoom (destination.length - offset) offset s.size)
  else .ok (destination.take offset ++ s.members ++ destination.drop (offset + s.size))

/-- A sequence of items as an item. -/
def item (s : Sequence Item) : Item := .group s.tag s.members

/-- A sequence of items as filter text without its own tags. -/
def bare (s : Sequence Item) : String := String.join (Item.taggedAll s.members)

/-- A sequence of items as filter text. -/
def tagged (s : Sequence Item) : String := s.item.tagged

end Sequence

end TestSelection
