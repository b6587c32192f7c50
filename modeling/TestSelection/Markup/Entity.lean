import TestSelection.Text.Basic

/-! Entities: `&name;` and `&#number;` stand for characters that would otherwise end a tag, a quoted value
    or an entity. `escape` writes the four that filter text needs; `decode` reads those, the apostrophe and
    every character number, in one pass from left to right, and keeps what is no entity as it is. -/

namespace TestSelection.Markup

/-- What a character is written as. -/
def escapeChar (c : Char) : List Char :=
  if c = '&' then "&amp;".toList
  else if c = '<' then "&lt;".toList
  else if c = '>' then "&gt;".toList
  else if c = '"' then "&quot;".toList
  else [c]

/-- A text written so that it may stand between tags and between quotes. -/
def escape (s : String) : String := String.ofList (s.toList.flatMap escapeChar)

/-! ### Character numbers -/

/-- A number, which may have a plus sign in front. -/
def number? (radix : Nat) : List Char → Option Nat
  | '+' :: cs => Text.digits? radix cs
  | cs => Text.digits? radix cs

/-- The character with a given number; surrogates and numbers past the last code point have none. -/
def scalar? (n : Nat) : Option Char := if n.isValidChar then some (Char.ofNat n) else none

/-! ### Reading -/

/-- The character that an entity stands for, given what is between its `&` and its `;`. -/
def entity? : List Char → Option Char
  | ['a', 'm', 'p'] => some '&'
  | ['l', 't'] => some '<'
  | ['g', 't'] => some '>'
  | ['q', 'u', 'o', 't'] => some '"'
  | ['a', 'p', 'o', 's'] => some '\''
  | '#' :: 'x' :: cs => number? 16 cs >>= scalar?
  | '#' :: 'X' :: cs => number? 16 cs >>= scalar?
  | '#' :: cs => number? 10 cs >>= scalar?
  | _ => none

/-- The entity that goes on with `cs` after its `&`, up to the next `;`, and what follows it. -/
def reference? (cs : List Char) : Option (Char × List Char) :=
  match cs.dropWhile (· ≠ ';') with
  | [] => none
  | _ :: rest => (entity? (cs.takeWhile (· ≠ ';'))).map (·, rest)

theorem length_reference?_lt {cs rest : List Char} {c : Char} (h : reference? cs = some (c, rest)) :
    rest.length < cs.length := by
  have hlen := (List.dropWhile_sublist (fun c => decide (c ≠ ';')) (l := cs)).length_le
  rw [reference?] at h
  split at h
  · cases h
  · rename_i d r hd
    obtain ⟨e, -, he⟩ := Option.map_eq_some_iff.1 h
    cases he
    rw [hd, List.length_cons] at hlen
    omega

/-- The characters with every entity replaced by what it stands for. -/
def decodeChars : List Char → List Char
  | [] => []
  | c :: cs =>
    if c = '&' then
      match h : reference? cs with
      | some (e, rest) =>
        have := length_reference?_lt h
        e :: decodeChars rest
      | none => c :: decodeChars cs
    else c :: decodeChars cs
  termination_by cs => cs.length

/-- A text with every entity replaced by what it stands for. -/
def decode (s : String) : String := String.ofList (decodeChars s.toList)

end TestSelection.Markup
