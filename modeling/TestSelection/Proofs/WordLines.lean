import Mathlib.Algebra.Ring.Parity
import TestSelection.Proofs.Splitting

/-! Lines of words. A line that is written word by word, with white space between the words, is split into just these
    words, each at the offset where it was written (`words_source`). In a text that is split, quotes come in pairs
    (`count_quote_of_splits`), and where the splitting fails, their number is odd and it is the last one that is not closed
    (`unclosed_of_wordsFrom`). Main statement: `words_exact`. -/

namespace TestSelection.Script
open Markup Text

/-- A word to be written: in quotes any text without a quote, outside of them some characters that are neither white
    space nor quotes. -/
structure Entry where
  text : String
  quoted : Bool
  spellable : if quoted then '"' ∉ text.toList else text ≠ "" ∧ ∀ c ∈ text.toList, isBlank c = false ∧ c ≠ '"'

/-- A word without quotes. -/
def Entry.bare (text : String) (hne : text ≠ "") (h : text.toList.all isWordChar = true) : Entry :=
  ⟨text, false, hne, fun c hc => isWordChar_iff.mp (List.all_eq_true.mp h c hc)⟩

/-- A word in quotes. -/
def Entry.inQuotes (text : String) (h : '"' ∉ text.toList) : Entry := ⟨text, true, h⟩

def Entry.written (e : Entry) : List Char := if e.quoted then '"' :: (e.text.toList ++ ['"']) else e.text.toList

/-- Words one after the other, each with the white space behind it. -/
def setOut (rows : List (Entry × List Char)) : List Char := rows.flatMap fun r => r.1.written ++ r.2

/-- Words on a line. There is white space between any two of them, and there may be some at both ends. -/
structure Line where
  lead : List Char
  rows : List (Entry × List Char)
  lead_blank : lead.all isBlank = true
  gaps_blank : ∀ r ∈ rows, r.2.all isBlank = true
  gaps_ne_nil : ∀ r ∈ rows.dropLast, r.2 ≠ []

namespace Line

def source (l : Line) : String := String.ofList (l.lead ++ setOut l.rows)

/-- The words of the line; each one starts behind all that is written before it. -/
def words (l : Line) : List Word :=
  l.rows.mapIdx fun i r => ⟨r.1.text, width (l.lead ++ setOut (l.rows.take i)), r.1.quoted⟩

end Line

section
variable {offset : Nat} {blanks cs rest : List Char} {ws : List Word} {e : Entry} {rows : List (Entry × List Char)}

/-! ### Words that are written -/

theorem Splits.blanks_append (hblanks : blanks.all isBlank = true) (h : Splits (offset + width blanks) cs ws) :
    Splits offset (blanks ++ cs) ws := by
  induction blanks generalizing offset with
  | nil => exact h
  | cons c blanks ih =>
    rw [List.all_cons, Bool.and_eq_true] at hblanks
    refine .blank hblanks.1 (ih hblanks.2 ?_)
    rwa [Nat.add_assoc]

theorem width_quoted (text : List Char) : width ('"' :: (text ++ ['"'])) = width text + 2 := by
  have : '"'.utf8Size = 1 := by decide
  simp only [width_cons, width_append, width_nil, this]
  omega

/-- A word is split off the front of what it cannot go on with. -/
theorem Splits.entry (e : Entry) (hrest : ∀ c ∈ rest.head?, isWordChar c = false)
    (h : Splits (offset + width e.written) rest ws) : Splits offset (e.written ++ rest) (⟨e.text, offset, e.quoted⟩ :: ws) := by
  obtain ⟨text, _ | _, hspell⟩ := e
  · obtain ⟨hne, hchars⟩ := hspell
    have hword : text.toList.all isWordChar = true :=
      List.all_eq_true.mpr fun c hc => isWordChar_iff.mpr (hchars c hc)
    have := Splits.bare (by simpa using hne) hword hrest h
    rwa [String.ofList_toList] at this
  · have hquote : '"' ∉ text.toList := hspell
    have hsplit : Splits (offset + width text.toList + 2) rest ws := by
      have hwritten : Splits (offset + width ('"' :: (text.toList ++ ['"']))) rest ws := h
      rwa [width_quoted, ← Nat.add_assoc] at hwritten
    have := Splits.quoted hquote hsplit
    rw [String.ofList_toList] at this
    simpa [Entry.written] using this

theorem splits_setOut (hblank : ∀ r ∈ rows, r.2.all isBlank = true) (hne : ∀ r ∈ rows.dropLast, r.2 ≠ [])
    (offset : Nat) : Splits offset (setOut rows)
      (rows.mapIdx fun i r => ⟨r.1.text, offset + width (setOut (rows.take i)), r.1.quoted⟩) := by
  induction rows generalizing offset with
  | nil => exact .nil
  | cons r rows ih =>
    obtain ⟨e, gap⟩ := r
    obtain ⟨hgap, hblank⟩ := List.forall_mem_cons.mp hblank
    have hne' : ∀ r ∈ rows.dropLast, r.2 ≠ [] := fun r hr => hne r (by
      cases rows with
      | nil => cases hr
      | cons => exact List.mem_cons_of_mem _ hr)
    -- The word ends at white space, or at the end of the line.
    have hend : ∀ c ∈ (gap ++ setOut rows).head?, isWordChar c = false := by
      intro c hc
      cases gap with
      | nil =>
        cases rows with
        | nil => cases hc
        | cons => exact absurd rfl (hne (e, []) List.mem_cons_self)
      | cons d gap =>
        cases hc
        rw [List.all_cons, Bool.and_eq_true] at hgap
        simp [isWordChar, hgap.1]
    have hrest := (ih hblank hne' (offset + width e.written + width gap)).blanks_append hgap
    have := Splits.entry e hend hrest
    simpa [List.mapIdx_cons, setOut, Nat.add_assoc] using this

/-- A line is split into its words. -/
theorem words_source (l : Line) : words l.source = .ok l.words := by
  have hrows := splits_setOut l.gaps_blank l.gaps_ne_nil (0 + width l.lead)
  have hline := hrows.blanks_append l.lead_blank
  rw [words, Line.source, String.toList_ofList, wordsFrom_eq_ok_iff.mpr hline]
  simp [Line.words]

/-! ### Quotes -/

theorem count_quote_of_isWordChar (h : cs.all isWordChar = true) : cs.count '"' = 0 := by
  rw [List.count_eq_zero]
  intro hmem
  exact (isWordChar_iff.mp (List.all_eq_true.mp h _ hmem)).2 rfl

theorem count_quote_of_splits (h : Splits offset cs ws) : Even (cs.count '"') := by
  induction h with
  | nil => exact ⟨0, rfl⟩
  | @blank _ c _ _ hc _ ih =>
    have hne : c ≠ '"' := by
      rintro rfl
      rw [isBlank_quote] at hc
      cases hc
    rwa [List.count_cons_of_ne hne]
  | quoted htext _ ih =>
    rw [List.count_cons_self, List.count_append, List.count_cons_self, List.count_eq_zero.mpr htext, Nat.zero_add]
    exact ih.add_one.add_one
  | bare _ htext _ _ ih => rwa [List.count_append, count_quote_of_isWordChar htext, Nat.zero_add]

/-- The byte offset of the last quote of a text. -/
def LastQuote (cs : List Char) (place : Nat) : Prop :=
  ∃ before after, cs = before ++ '"' :: after ∧ '"' ∉ after ∧ place = width before

/-- A quote is not closed: the number of quotes is odd, and it is the last one. -/
structure Unclosed (cs : List Char) (place : Nat) : Prop where
  odd : Odd (cs.count '"')
  last : LastQuote cs place

/-- What is passed over in front has quotes in pairs only. -/
theorem Unclosed.append {place : Nat} (h : Unclosed rest place) (heven : Even (cs.count '"')) :
    Unclosed (cs ++ rest) (width cs + place) := by
  obtain ⟨hodd, before, after, rfl, hafter, rfl⟩ := h
  refine ⟨?_, cs ++ before, after, by simp, hafter, by simp⟩
  rw [List.count_append]
  exact heven.add_odd hodd

theorem unclosed_of_wordsFrom {place : Nat} (h : wordsFrom offset cs = .error place) :
    ∃ p, Unclosed cs p ∧ place = offset + p := by
  fun_induction wordsFrom offset cs with
  | case1 => cases h
  | case2 offset c cs hc ih =>
    obtain ⟨p, hp, rfl⟩ := ih h
    have hone : Splits offset [c] [] := .blank hc .nil
    exact ⟨_, hp.append (count_quote_of_splits hone), by simp [Nat.add_assoc]⟩
  | case3 offset cs hdrop _ =>
    cases h
    have hnone : '"' ∉ cs := by
      have := List.takeWhile_append_dropWhile (p := (· ≠ '"')) (l := cs)
      rw [hdrop, List.append_nil] at this
      exact this ▸ not_mem_takeWhile_ne '"' cs
    refine ⟨0, ⟨?_, [], cs, rfl, hnone, rfl⟩, rfl⟩
    rw [List.count_cons_self, List.count_eq_zero.mpr hnone]
    exact odd_one
  | case4 offset cs text d rest hdrop _ _ =>
    rename_i ih
    obtain ⟨p, hp, rfl⟩ := ih (map_eq_error_iff.mp h)
    obtain rfl : d = '"' := by simpa using head?_dropWhile (· ≠ '"') cs d (by rw [hdrop]; rfl)
    have hone : Splits offset ('"' :: (text ++ '"' :: [])) [_] := .quoted (not_mem_takeWhile_ne '"' cs) .nil
    have hcs : '"' :: cs = '"' :: (text ++ '"' :: []) ++ rest := by
      rw [← List.takeWhile_append_dropWhile (p := (· ≠ '"')) (l := cs), hdrop]
      simp [text]
    rw [hcs]
    exact ⟨_, hp.append (count_quote_of_splits hone), by simp only [width_quoted, Nat.add_assoc]⟩
  | case5 offset c cs hblank hquote text _ =>
    rename_i ih
    obtain ⟨p, hp, rfl⟩ := ih (map_eq_error_iff.mp h)
    have htext : text.all isWordChar = true := by
      rw [List.all_cons, isWordChar_iff.mpr ⟨by simpa using hblank, hquote⟩, List.all_takeWhile, Bool.and_self]
    have hone : Splits offset (text ++ []) [_] := .bare (List.cons_ne_nil _ _) htext (by simp) .nil
    have hcs : c :: cs = text ++ [] ++ cs.dropWhile isWordChar := by
      simp [text]
    rw [hcs]
    exact ⟨_, hp.append (count_quote_of_splits hone), by simp [Nat.add_assoc]⟩

/-- A line is split into its words, with their offsets. Any text at all is split, unless its number of quotes is odd, and
    then the last one is said to be open. -/
theorem words_exact :
    (∀ l : Line, words l.source = .ok l.words) ∧
    ∀ source, ((∃ place, words source = .error place) ↔ Odd (source.toList.count '"')) ∧
      ∀ place, words source = .error place → LastQuote source.toList place := by
  refine ⟨words_source, fun source => ?_⟩
  have hopen : ∀ {place}, words source = .error place → Unclosed source.toList place := by
    intro place h
    obtain ⟨p, hp, rfl⟩ := unclosed_of_wordsFrom h
    rwa [Nat.zero_add]
  refine ⟨⟨fun ⟨place, h⟩ => (hopen h).odd, fun hodd => ?_⟩, fun place h => (hopen h).last⟩
  cases h : words source with
  | error place => exact ⟨place, rfl⟩
  | ok ws => exact absurd (count_quote_of_splits (wordsFrom_eq_ok_iff.mp h)) (Nat.not_even_iff_odd.mpr hodd)

/-- A line that starts with white space, with words of both sorts; one of those in quotes is empty. -/
def indented : Line where
  lead := ['\u3000']
  rows := [(.bare "né" (by decide) (by decide), [' ', '\t']), (.inQuotes "a  b" (by decide), ['\n']),
    (.inQuotes "" (by decide), [' ']), (.bare "c" (by decide) (by decide), [])]
  lead_blank := by decide
  gaps_blank := by decide
  gaps_ne_nil := by decide

/-- Offsets are in bytes, of which the space in front has three and the accent two. Without a fourth quote, the third one
    is open. -/
theorem words_exact_indented : indented.source = "\u3000né \t\"a  b\"\n\"\" c" ∧
    words indented.source = .ok [⟨"né", 3, false⟩, ⟨"a  b", 8, true⟩, ⟨"", 15, true⟩, ⟨"c", 18, false⟩] ∧
    ∃ place, words "né \"a  b\" \"c" = .error place ∧ LastQuote "né \"a  b\" \"c".toList place := by
  have hwords : indented.words = [⟨"né", 3, false⟩, ⟨"a  b", 8, true⟩, ⟨"", 15, true⟩, ⟨"c", 18, false⟩] := by decide
  have hodd : Odd ("né \"a  b\" \"c".toList.count '"') := ⟨1, by decide⟩
  obtain ⟨hline, hany⟩ := words_exact
  obtain ⟨hopen, hlast⟩ := hany "né \"a  b\" \"c"
  obtain ⟨place, hplace⟩ := hopen.mpr hodd
  exact ⟨by decide, hwords ▸ hline indented, place, hplace, hlast place hplace⟩

-- Words may touch a quote on either side, and an empty word has only its quotes.
example : words "é\"a b\"c \"\"" = .ok [⟨"é", 0, false⟩, ⟨"a b", 2, true⟩, ⟨"c", 7, false⟩, ⟨"", 9, true⟩] := by
  cbv

end

end TestSelection.Script
