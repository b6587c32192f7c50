import TestSelection.Text.Basic

/-! Words of scripts. White space separates words, and a word in quotes may hold white space; quotes also
    separate words. Every word keeps the byte offset at which it starts. -/

namespace TestSelection.Script

structure Word where
  text : String
  offset : Nat
  /-- Whether the word stands for itself and is never a keyword. -/
  quoted : Bool
  deriving DecidableEq, Repr

/-- Whether a character may be part of a word without quotes. -/
def isWordChar (c : Char) : Bool := !Text.isBlank c && c != '"'

theorem length_dropWhile_le (p : Char → Bool) (cs : List Char) : (cs.dropWhile p).length ≤ cs.length :=
  (List.dropWhile_sublist p).length_le

theorem length_lt_of_dropWhile_eq_cons {p : Char → Bool} {cs rest : List Char} {c : Char}
    (h : cs.dropWhile p = c :: rest) : rest.length < cs.length := by
  have := length_dropWhile_le p cs
  rw [h, List.length_cons] at this
  omega

/-- The words of a text that starts at a byte offset, or the offset of a quote that is not closed. -/
def wordsFrom (offset : Nat) (cs : List Char) : Except Nat (List Word) :=
  match cs with
  | [] => .ok []
  | c :: cs =>
    if Text.isBlank c then wordsFrom (offset + c.utf8Size) cs
    else if c = '"' then
      let text := cs.takeWhile (· ≠ '"')
      match h : cs.dropWhile (· ≠ '"') with
      | [] => .error offset
      | _ :: rest =>
        have := length_lt_of_dropWhile_eq_cons h
        (wordsFrom (offset + Text.width text + 2) rest).map (⟨String.ofList text, offset, true⟩ :: ·)
    else
      let text := c :: cs.takeWhile isWordChar
      have := length_dropWhile_le isWordChar cs
      (wordsFrom (offset + Text.width text) (cs.dropWhile isWordChar)).map
        (⟨String.ofList text, offset, false⟩ :: ·)
  termination_by cs.length

/-- The words of a text, or the offset of a quote that is not closed. -/
def words (source : String) : Except Nat (List Word) := wordsFrom 0 source.toList

/-- Arguments as words. One with white space or a quote in it stands for itself; offsets are those in the
    arguments joined by single spaces. -/
def argumentWordsFrom (offset : Nat) : List String → List Word
  | [] => []
  | arg :: args =>
    ⟨arg, offset, arg.toList.any fun c => Text.isBlank c || c == '"'⟩ ::
      argumentWordsFrom (offset + Text.width arg.toList + 1) args

/-- Arguments as words. -/
def argumentWords (args : List String) : List Word := argumentWordsFrom 0 args

end TestSelection.Script
