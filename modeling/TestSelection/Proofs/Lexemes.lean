import TestSelection.Markup.Scan

/-! What lexemes are written as. A lexeme is found in one mode and leads to the next one, and where it stops depends on
    nothing but the character behind it (`Lexeme.Stops`). Main statement: characters that a lexeme is written as are cut
    off as this lexeme, if what follows lets it stop (`nextPiece_of_written`). -/

namespace TestSelection.Markup
open Text

/-- Whether a text may be the name of an element. -/
structure IsName (name : String) : Prop where
  ne_empty : name ≠ ""
  chars : name.toList.all isNameChar = true

/-- Whether a text may be the name of an attribute, which starts with a letter. -/
structure IsAttrName (attr : String) : Prop where
  letter : ∃ c cs, attr.toList = c :: cs ∧ Text.isLetter c = true ∧ Text.isBlank c = false
  chars : attr.toList.all isNameChar = true

/-- The characters that a lexeme is written as. An illegal one is a character that starts nothing else, a closing tag
    that breaks off, or a value without its second quote. -/
inductive Written : Lexeme → List Char → Prop where
  | openTag {name : String} (h : IsName name) : Written (.openTag name) ('<' :: name.toList)
  | closeTag {name : String} {blanks : List Char} (h : IsName name) (hblanks : blanks.all isBlank = true) :
      Written (.closeTag name) ('<' :: '/' :: (name.toList ++ blanks ++ ['>']))
  | tagEnd : Written .tagEnd ['>']
  | selfClose : Written .selfClose ['/', '>']
  | attrName {name : String} (h : IsAttrName name) : Written (.attrName name) name.toList
  | equals : Written .equals ['=']
  | quotedValue {raw : String} (h : '"' ∉ raw.toList) : Written (.quotedValue raw) ('"' :: (raw.toList ++ ['"']))
  | text {raw : String} (h : '<' ∉ raw.toList) : Written (.text raw) raw.toList
  | illegal {c : Char} (h : isBlank c = false) : Written .illegal [c]
  | illegalCloseTag {name blanks : List Char} (hname : name.all isNameChar = true) (hblanks : blanks.all isBlank = true) :
      Written .illegal ('<' :: '/' :: (name ++ blanks))
  | illegalValue {raw : List Char} (h : '"' ∉ raw) : Written .illegal ('"' :: raw)

/-- The mode in which a lexeme is found; an illegal one is found in both. -/
def Lexeme.place? : Lexeme → Option Mode
  | openTag _ | closeTag _ | text _ => some .between
  | tagEnd | selfClose | attrName _ | equals | quotedValue _ => some .inTag
  | illegal => none

/-- Whether a lexeme is the end of an opening tag. -/
def Lexeme.EndsTag (l : Lexeme) : Prop := l = .tagEnd ∨ l = .selfClose

/-- What follows a lexeme does not go on with it. -/
def Lexeme.Stops : Lexeme → List Char → Prop
  | openTag _, rest | attrName _, rest => ∀ c ∈ rest.head?, isNameChar c = false
  | text _, rest => ∀ c ∈ rest.head?, c = '<'
  | _, _ => True

/-- The mode after a lexeme. -/
def Mode.after (mode : Mode) : Lexeme → Mode
  | .openTag _ => .inTag
  | .tagEnd | .selfClose => .between
  | _ => mode

section
variable {mode : Mode} {l : Lexeme} {name : String} {cs ds rest blanks taken : List Char} {c : Char} {p : Char → Bool}

/-! ### Runs of characters -/

theorem takeWhile_append_of_head? (h : cs.all p = true) (hrest : ∀ c ∈ rest.head?, p c = false) :
    (cs ++ rest).takeWhile p = cs ∧ (cs ++ rest).dropWhile p = rest := by
  rw [List.all_eq_true] at h
  rw [List.takeWhile_append_of_pos h, List.dropWhile_append_of_pos h]
  cases rest with
  | nil => simp
  | cons c rest => simp [hrest c rfl]

theorem dropWhile_eq_nil (h : cs.all p = true) : cs.dropWhile p = [] := by
  have hdrop : (cs ++ []).dropWhile p = [] := (takeWhile_append_of_head? h (by simp)).2
  rwa [List.append_nil] at hdrop

theorem takeWhile_append_cons (h : cs.all p = true) (hc : p c = false) (rest : List Char) :
    (cs ++ c :: rest).takeWhile p = cs ∧ (cs ++ c :: rest).dropWhile p = c :: rest :=
  takeWhile_append_of_head? h (by simpa using hc)

theorem all_ne (h : c ∉ cs) : cs.all (· ≠ c) = true := by
  rw [List.all_eq_true]
  intro d hd
  rw [decide_eq_true_iff]
  rintro rfl
  exact h hd

theorem not_mem_takeWhile_ne (c : Char) (cs : List Char) : c ∉ cs.takeWhile (· ≠ c) := fun hmem => by
  simpa using List.all_eq_true.mp List.all_takeWhile c hmem

theorem head?_dropWhile (p : Char → Bool) (cs : List Char) : ∀ c ∈ (cs.dropWhile p).head?, p c = false := by
  intro c hc
  have := List.head?_dropWhile_not p cs
  rwa [hc] at this

theorem isNameChar_slash : isNameChar '/' = false := by decide +kernel

/-- White space ends names. -/
theorem isNameChar_of_isBlank (h : isBlank c = true) : isNameChar c = false := by
  have hblanks : ∀ n ∈ blankRanges.flatMap fun r => List.range' r.1 (r.2 + 1 - r.1), isNameChar (Char.ofNat n) = false := by
    decide +kernel
  have hincreasing : blankRanges.Increasing := by simp [blankRanges, CodeRanges.Increasing]
  obtain ⟨r, hr, hle, hge⟩ := (CodeRanges.contains_iff hincreasing).mp h
  have := hblanks c.toNat (List.mem_flatMap.mpr ⟨r, hr, by simp; omega⟩)
  rwa [Char.ofNat_toNat] at this

/-- The name of an element starts with a character other than the slash of a closing tag. -/
theorem IsName.exists_cons (h : IsName name) : ∃ d ds, name.toList = d :: ds ∧ d ≠ '/' := by
  obtain ⟨d, ds, hname⟩ := List.exists_cons_of_ne_nil (mt String.toList_eq_nil_iff.mp h.ne_empty)
  refine ⟨d, ds, hname, ?_⟩
  rintro rfl
  have hchars := h.chars
  rw [hname, List.all_cons, isNameChar_slash] at hchars
  cases hchars

/-! ### One lexeme -/

theorem nextPiece_inTag (hblanks : blanks.all isBlank = true) (hc : isBlank c = false) (cs : List Char) :
    nextPiece .inTag (blanks ++ c :: cs) = some (blanks, pieceInTag c cs) := by
  obtain ⟨htake, hdrop⟩ := takeWhile_append_cons hblanks hc cs
  simp only [nextPiece, htake, hdrop]

theorem pieceBetween_openTag (h : IsName name) (hrest : ∀ c ∈ rest.head?, isNameChar c = false) :
    pieceBetween ('<' :: name.toList ++ rest) = ⟨.openTag name, '<' :: name.toList, rest, .inTag⟩ := by
  obtain ⟨d, ds, hname, hd⟩ := h.exists_cons
  obtain ⟨htake, hdrop⟩ := takeWhile_append_of_head? h.chars hrest
  have hpiece : pieceBetween ('<' :: name.toList ++ rest) = openingPiece (name.toList ++ rest) := by
    simp [hname, pieceBetween, hd]
  rw [hpiece]
  simp only [openingPiece, htake, hdrop]
  rw [if_neg (by simp [hname]), String.ofList_toList]

theorem pieceBetween_closeTag (h : IsName name) (hblanks : blanks.all isBlank = true) (rest : List Char) :
    pieceBetween ('<' :: '/' :: (name.toList ++ blanks ++ ['>']) ++ rest) =
      ⟨.closeTag name, '<' :: '/' :: (name.toList ++ blanks ++ ['>']), rest, .between⟩ := by
  have hgt : isNameChar '>' = false ∧ isBlank '>' = false := by decide +kernel
  have hend : ∀ c ∈ (blanks ++ '>' :: rest).head?, isNameChar c = false := by
    intro c hc
    cases blanks with
    | nil =>
      cases hc
      exact hgt.1
    | cons b blanks =>
      cases hc
      rw [List.all_cons, Bool.and_eq_true] at hblanks
      exact isNameChar_of_isBlank hblanks.1
  obtain ⟨htake, hdrop⟩ := takeWhile_append_of_head? h.chars hend
  obtain ⟨hblank, hafter⟩ := takeWhile_append_cons hblanks hgt.2 rest
  have hpiece : pieceBetween ('<' :: '/' :: (name.toList ++ blanks ++ ['>']) ++ rest) =
      closingPiece (name.toList ++ (blanks ++ '>' :: rest)) := by
    simp [pieceBetween]
  rw [hpiece]
  simp only [closingPiece, htake, hdrop, hblank, hafter]
  rw [if_neg (by simpa using h.ne_empty), String.ofList_toList]
  simp

theorem pieceBetween_text {raw : String} (hne : raw ≠ "") (h : '<' ∉ raw.toList) (hrest : ∀ c ∈ rest.head?, c = '<') :
    pieceBetween (raw.toList ++ rest) = ⟨.text raw, raw.toList, rest, .between⟩ := by
  obtain ⟨d, ds, hraw⟩ := List.exists_cons_of_ne_nil (mt String.toList_eq_nil_iff.mp hne)
  have hd : d ≠ '<' := by
    rintro rfl
    exact h (by simp [hraw])
  obtain ⟨htake, hdrop⟩ := takeWhile_append_of_head? (all_ne h) fun c hc => by simpa using hrest c hc
  rw [pieceBetween]
  · simp only [htake, hdrop, String.ofList_toList]
  all_goals simp [hraw, hd]

theorem pieceInTag_attrName {attr : String} {ds : List Char} (h : IsAttrName attr) (hattr : attr.toList = c :: ds)
    (hletter : isLetter c = true) (hrest : ∀ c ∈ rest.head?, isNameChar c = false) :
    pieceInTag c (ds ++ rest) = ⟨.attrName attr, attr.toList, rest, .inTag⟩ := by
  have hds : ds.all isNameChar = true := by
    have hchars := h.chars
    rw [hattr, List.all_cons, Bool.and_eq_true] at hchars
    exact hchars.2
  obtain ⟨htake, hdrop⟩ := takeWhile_append_of_head? hds hrest
  unfold pieceInTag
  split
  case h_5 => simp [hletter, htake, hdrop, ← hattr]
  all_goals exact absurd hletter (by decide +kernel)

theorem pieceInTag_quotedValue {raw : String} (h : '"' ∉ raw.toList) (rest : List Char) :
    pieceInTag '"' (raw.toList ++ '"' :: rest) = ⟨.quotedValue raw, '"' :: (raw.toList ++ ['"']), rest, .inTag⟩ := by
  obtain ⟨htake, hdrop⟩ := takeWhile_append_cons (all_ne h) (c := '"') (by decide) rest
  have hpiece : pieceInTag '"' (raw.toList ++ '"' :: rest) = valuePiece (raw.toList ++ '"' :: rest) := rfl
  simp only [hpiece, valuePiece, htake, hdrop, String.ofList_toList]
  rfl

/-- The characters of a lexeme are cut off as this lexeme, behind white space if it is inside of a tag. -/
theorem nextPiece_of_written (h : Written l taken) (hne : taken ≠ []) (hplace : l.place? = some mode) (hrest : l.Stops rest)
    (hblanks : blanks.all isBlank = true) (hnone : mode = .between → blanks = []) :
    nextPiece mode (blanks ++ taken ++ rest) = some (blanks, ⟨l, taken, rest, mode.after l⟩) := by
  have between : ∀ {cs : List Char}, mode = .between → cs ≠ [] → nextPiece mode (blanks ++ cs) = some (blanks, pieceBetween cs) := by
    rintro cs rfl hcs
    rw [hnone rfl, List.nil_append, nextPiece, if_neg hcs]
  rw [List.append_assoc]
  cases h with
  | openTag h =>
    cases hplace
    rw [between rfl (by simp), pieceBetween_openTag h hrest]
    rfl
  | closeTag h hb =>
    cases hplace
    rw [between rfl (by simp), pieceBetween_closeTag h hb rest]
    rfl
  | @text raw h =>
    cases hplace
    have hraw : raw ≠ "" := by simpa using hne
    rw [between rfl (by simp [hraw]), pieceBetween_text hraw h hrest]
    rfl
  | tagEnd | selfClose | equals =>
    cases hplace
    exact nextPiece_inTag hblanks (by decide) _
  | @attrName attr h =>
    cases hplace
    obtain ⟨c, ds, hattr, hletter, hblank⟩ := h.letter
    have hpiece := pieceInTag_attrName h hattr hletter hrest
    rw [hattr] at hpiece ⊢
    rw [List.cons_append, nextPiece_inTag hblanks hblank, hpiece]
    rfl
  | @quotedValue raw h =>
    cases hplace
    rw [List.cons_append, List.append_assoc, nextPiece_inTag hblanks (by decide)]
    rw [List.singleton_append, pieceInTag_quotedValue h rest]
    rfl
  | illegal | illegalCloseTag | illegalValue => cases hplace

/-! ### Where pieces end -/

theorem stops_closingPiece (cs : List Char) : (closingPiece cs).lexeme.Stops (closingPiece cs).rest := by
  simp only [closingPiece]
  split
  · split <;> trivial
  · trivial

theorem stops_openingPiece (cs : List Char) : (openingPiece cs).lexeme.Stops (openingPiece cs).rest := by
  simp only [openingPiece]
  split
  · trivial
  · exact head?_dropWhile isNameChar cs

theorem stops_pieceBetween (cs : List Char) : (pieceBetween cs).lexeme.Stops (pieceBetween cs).rest := by
  unfold pieceBetween
  split
  · exact stops_closingPiece _
  · exact stops_openingPiece _
  · intro c hc
    simpa using head?_dropWhile (· ≠ '<') cs c hc

theorem stops_pieceInTag (c : Char) (cs : List Char) : (pieceInTag c cs).lexeme.Stops (pieceInTag c cs).rest := by
  unfold pieceInTag
  split
  · trivial
  · trivial
  · trivial
  · simp only [valuePiece]
    split <;> trivial
  · split
    · exact head?_dropWhile isNameChar _
    · trivial

/-- What follows a piece does not go on with it. -/
theorem stops_of_nextPiece {piece : Piece} (h : nextPiece mode cs = some (blanks, piece)) : piece.lexeme.Stops piece.rest := by
  cases mode with
  | between =>
    simp only [nextPiece] at h
    split at h <;> cases h
    exact stops_pieceBetween cs
  | inTag =>
    simp only [nextPiece] at h
    split at h <;> cases h
    exact stops_pieceInTag _ _

end

end TestSelection.Markup
