import TestSelection.Markup.Token
import TestSelection.Text.Basic
import TestSelection.Text.Letters

/-! Cutting filter text into tokens. Between tags, everything up to the next `<` is one text. Inside a tag,
    from `<name` to `>` or `/>`, white space separates tokens and belongs to none. Whatever fits no token
    is an illegal one, so that no character is lost: a piece holds the very characters that it takes from
    the text (`Piece.taken_append_rest_between`, `Piece.taken_append_rest_inTag`), and at least one of them
    (`Piece.taken_ne_nil_between`, `Piece.taken_ne_nil_inTag`). -/

namespace TestSelection.Markup

/-- Whether a character may be part of a name. -/
def isNameChar (c : Char) : Bool :=
  Text.isLetter c || Text.isNumeral c || c == '-' || c == '_' || c == '.'

/-- Whether the scan is inside a tag or between tags. -/
inductive Mode where
  | between | inTag
  deriving DecidableEq, Repr

/-- The token at the start of a text, with what the text goes on with. -/
structure Piece where
  lexeme : Lexeme
  taken : List Char
  rest : List Char
  mode : Mode
  deriving DecidableEq, Repr

/-! ### Between tags -/

/-- A closing tag, read on from `</`. White space may follow its name. -/
def closingPiece (cs : List Char) : Piece :=
  let name := cs.takeWhile isNameChar
  let afterName := cs.dropWhile isNameChar
  let blanks := afterName.takeWhile Text.isBlank
  let taken := '<' :: '/' :: name ++ blanks
  match afterName.dropWhile Text.isBlank with
  | '>' :: rest =>
    if name = [] then ⟨.illegal, taken, '>' :: rest, .between⟩
    else ⟨.closeTag (String.ofList name), taken ++ ['>'], rest, .between⟩
  | rest => ⟨.illegal, taken, rest, .between⟩

/-- The start of an opening tag, read on from `<`. -/
def openingPiece (cs : List Char) : Piece :=
  let name := cs.takeWhile isNameChar
  if name = [] then ⟨.illegal, ['<'], cs, .between⟩
  else ⟨.openTag (String.ofList name), '<' :: name, cs.dropWhile isNameChar, .inTag⟩

/-- A tag, or the text up to the next one. -/
def pieceBetween : List Char → Piece
  | '<' :: '/' :: cs => closingPiece cs
  | '<' :: cs => openingPiece cs
  | cs =>
    let text := cs.takeWhile (· ≠ '<')
    ⟨.text (String.ofList text), text, cs.dropWhile (· ≠ '<'), .between⟩

/-! ### Inside a tag -/

/-- A value, read on from its first quote. -/
def valuePiece (cs : List Char) : Piece :=
  let raw := cs.takeWhile (· ≠ '"')
  match cs.dropWhile (· ≠ '"') with
  | [] => ⟨.illegal, '"' :: raw, [], .inTag⟩
  | _ :: rest => ⟨.quotedValue (String.ofList raw), '"' :: raw ++ ['"'], rest, .inTag⟩

/-- The token that a character starts inside a tag. -/
def pieceInTag (c : Char) (cs : List Char) : Piece :=
  match c, cs with
  | '>', cs => ⟨.tagEnd, ['>'], cs, .between⟩
  | '/', '>' :: cs => ⟨.selfClose, ['/', '>'], cs, .between⟩
  | '=', cs => ⟨.equals, ['='], cs, .inTag⟩
  | '"', cs => valuePiece cs
  | c, cs =>
    if Text.isLetter c then
      let name := c :: cs.takeWhile isNameChar
      ⟨.attrName (String.ofList name), name, cs.dropWhile isNameChar, .inTag⟩
    else ⟨.illegal, [c], cs, .inTag⟩

namespace Piece

theorem taken_append_rest_closing (cs : List Char) :
    (closingPiece cs).taken ++ (closingPiece cs).rest = '<' :: '/' :: cs := by
  have hname := List.takeWhile_append_dropWhile (p := isNameChar) (l := cs)
  have hblank := List.takeWhile_append_dropWhile (p := Text.isBlank) (l := cs.dropWhile isNameChar)
  simp only [closingPiece]
  split
  · rename_i rest hrest
    rw [hrest] at hblank
    split
    · simp [hblank, hname]
    · simp [hblank, hname]
  · simp [hblank, hname]

theorem taken_append_rest_opening (cs : List Char) :
    (openingPiece cs).taken ++ (openingPiece cs).rest = '<' :: cs := by
  simp only [openingPiece]
  split
  · rfl
  · simp [List.takeWhile_append_dropWhile]

theorem taken_append_rest_value (cs : List Char) :
    (valuePiece cs).taken ++ (valuePiece cs).rest = '"' :: cs := by
  have h := List.takeWhile_append_dropWhile (p := (· ≠ '"')) (l := cs)
  simp only [valuePiece]
  split
  · rename_i hrest
    rw [hrest, List.append_nil] at h
    simp only [List.append_nil, h]
  · rename_i c rest hrest
    have hne : cs.dropWhile (· ≠ '"') ≠ [] := by rw [hrest]; exact List.cons_ne_nil _ _
    have hc : c = '"' := by
      have := List.head_dropWhile_not (· ≠ '"') hne
      simpa only [hrest, List.head_cons, decide_eq_false_iff_not, ne_eq, Decidable.not_not] using this
    rw [hrest, hc] at h
    simp only [List.cons_append, List.append_assoc, List.nil_append, h]

theorem taken_append_rest_between (cs : List Char) :
    (pieceBetween cs).taken ++ (pieceBetween cs).rest = cs := by
  unfold pieceBetween
  split
  · exact taken_append_rest_closing _
  · exact taken_append_rest_opening _
  · exact List.takeWhile_append_dropWhile

theorem taken_append_rest_inTag (c : Char) (cs : List Char) :
    (pieceInTag c cs).taken ++ (pieceInTag c cs).rest = c :: cs := by
  unfold pieceInTag
  split
  · rfl
  · rfl
  · rfl
  · exact taken_append_rest_value _
  · split
    · simp [List.takeWhile_append_dropWhile]
    · rfl

theorem taken_ne_nil_between {cs : List Char} (h : cs ≠ []) : (pieceBetween cs).taken ≠ [] := by
  unfold pieceBetween
  split
  · simp only [closingPiece]
    split
    · split <;> simp
    · simp
  · simp only [openingPiece]
    split <;> simp
  · rename_i hopen
    cases cs with
    | nil => exact absurd rfl h
    | cons c cs =>
      have hc : c ≠ '<' := fun hc => hopen cs (by rw [hc])
      simp [hc]

theorem taken_ne_nil_inTag (c : Char) (cs : List Char) : (pieceInTag c cs).taken ≠ [] := by
  unfold pieceInTag
  split
  · simp
  · simp
  · simp
  · simp only [valuePiece]
    split <;> simp
  · split <;> simp

end Piece

/-! ### Whole texts -/

/-- The next token, if there is one, and the white space passed over in front of it. -/
def nextPiece (mode : Mode) (cs : List Char) : Option (List Char × Piece) :=
  match mode with
  | .between => if cs = [] then none else some ([], pieceBetween cs)
  | .inTag =>
    match cs.dropWhile Text.isBlank with
    | [] => none
    | c :: rest => some (cs.takeWhile Text.isBlank, pieceInTag c rest)

/-- The next token and what is around it make up the text. -/
theorem nextPiece_append {mode : Mode} {cs blanks : List Char} {p : Piece}
    (h : nextPiece mode cs = some (blanks, p)) : blanks ++ p.taken ++ p.rest = cs ∧ p.taken ≠ [] := by
  cases mode with
  | between =>
    simp only [nextPiece] at h
    split at h
    · cases h
    · rename_i hne
      cases h
      exact ⟨Piece.taken_append_rest_between cs, Piece.taken_ne_nil_between hne⟩
  | inTag =>
    simp only [nextPiece] at h
    split at h
    · cases h
    · rename_i c rest hrest
      cases h
      refine ⟨?_, Piece.taken_ne_nil_inTag c rest⟩
      rw [List.append_assoc, Piece.taken_append_rest_inTag, ← hrest, List.takeWhile_append_dropWhile]

theorem length_rest_lt {mode : Mode} {cs blanks : List Char} {p : Piece}
    (h : nextPiece mode cs = some (blanks, p)) : p.rest.length < cs.length := by
  obtain ⟨hcs, htaken⟩ := nextPiece_append h
  have := List.length_pos_iff.mpr htaken
  rw [← hcs]
  simp
  omega

/-- The tokens of a text that starts at a byte offset. -/
def scanFrom (offset : Nat) (mode : Mode) (cs : List Char) : List Token :=
  match h : nextPiece mode cs with
  | none => []
  | some (blanks, p) =>
    have := length_rest_lt h
    let start := offset + Text.width blanks
    let stop := start + Text.width p.taken
    ⟨p.lexeme, ⟨start, stop⟩⟩ :: scanFrom stop p.mode p.rest
  termination_by cs.length

/-- The tokens of a text. -/
def scan (s : String) : List Token := scanFrom 0 .between s.toList

end TestSelection.Markup
