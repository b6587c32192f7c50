import Mathlib.Data.List.Induction
import TestSelection.Proofs.Scanning

/-! Scanning loses nothing. Every text is cut into tokens, whatever it holds: each token has a span that cuts out the
    characters that it is written as (`Written`), spans come one after the other, and what lies outside of them is
    white space inside tags. Main statement: `lossless_scan`.

    All of it follows from what one piece is like (`Step`), by going through the text piece by piece. Whether the scan
    is inside a tag can be told from the tokens so far (`insideTag_iff`). -/

namespace TestSelection.Markup
open Text

/-- Behind the tokens, the last opening tag has not ended yet. -/
def InsideTag (ts : List Token) : Prop :=
  ∃ us name span vs, ts = us ++ ⟨.openTag name, span⟩ :: vs ∧ ∀ v ∈ vs, ¬v.lexeme.EndsTag

section
variable {mode : Mode} {l : Lexeme} {t : Token} {ts us vs : List Token} {cs blanks : List Char} {c : Char} {p : Piece}
  {offset : Nat}

/-! ### Inside and outside of tags -/

theorem insideTag_concat : InsideTag (ts ++ [t]) ↔
    (∃ name, t.lexeme = .openTag name) ∨ (InsideTag ts ∧ ¬t.lexeme.EndsTag) := by
  constructor
  · rintro ⟨us, name, span, vs, h, hvs⟩
    induction vs using List.reverseRecOn with
    | nil =>
      obtain ⟨rfl, ht⟩ := List.append_inj' h rfl
      cases ht
      exact Or.inl ⟨name, rfl⟩
    | append_singleton vs v _ =>
      rw [← List.cons_append, ← List.append_assoc] at h
      obtain ⟨rfl, ht⟩ := List.append_inj' h rfl
      cases ht
      obtain ⟨hvs, hv⟩ := List.forall_mem_append.mp hvs
      exact Or.inr ⟨⟨us, name, span, vs, rfl, hvs⟩, hv t (List.mem_singleton_self t)⟩
  · rintro (⟨name, ht⟩ | ⟨⟨us, name, span, vs, rfl, hvs⟩, ht⟩)
    · obtain ⟨lexeme, span⟩ := t
      subst ht
      exact ⟨ts, name, span, [], rfl, by simp⟩
    · exact ⟨us, name, span, vs ++ [t], by simp, List.forall_mem_append.mpr ⟨hvs, by simpa using ht⟩⟩

theorem Mode.after_eq_inTag_iff : mode.after l = .inTag ↔ (∃ name, l = .openTag name) ∨ (mode = .inTag ∧ ¬l.EndsTag) := by
  cases l <;> simp [after, Lexeme.EndsTag]

/-- The mode that a scan is in behind some tokens. -/
def Mode.behind (mode : Mode) (ts : List Token) : Mode := ts.foldl (fun m t => m.after t.lexeme) mode

theorem Mode.behind_cons : mode.behind (t :: ts) = (mode.after t.lexeme).behind ts := rfl

theorem Mode.behind_concat : mode.behind (ts ++ [t]) = (mode.behind ts).after t.lexeme := by
  rw [behind, behind, List.foldl_append]
  rfl

theorem insideTag_iff : InsideTag ts ↔ Mode.between.behind ts = .inTag := by
  induction ts using List.reverseRecOn with
  | nil => simp [InsideTag, Mode.behind]
  | append_singleton ts t ih =>
    rw [insideTag_concat, ih, Mode.behind_concat, Mode.after_eq_inTag_iff]

/-! ### One piece -/

/-- A piece is written as its lexeme, which belongs in the mode and leads to the next one; a text goes on as far as it
    can. -/
structure Piece.Fits (mode : Mode) (p : Piece) : Prop where
  written : Written p.lexeme p.taken
  place : ∀ m ∈ p.lexeme.place?, m = mode
  mode_eq : p.mode = mode.after p.lexeme
  maximal : ∀ raw, p.lexeme = .text raw → ∀ c ∈ p.rest.head?, c = '<'

theorem isName_takeWhile (h : cs.takeWhile isNameChar ≠ []) : IsName (String.ofList (cs.takeWhile isNameChar)) where
  ne_empty := by simpa using h
  chars := by rw [String.toList_ofList, List.all_takeWhile]

theorem fits_illegal {taken : List Char} (rest : List Char) (h : Written .illegal taken) :
    Piece.Fits mode ⟨.illegal, taken, rest, mode⟩ where
  written := h
  place := by simp [Lexeme.place?]
  mode_eq := rfl
  maximal := by simp

theorem fits_of_written {taken : List Char} (rest : List Char) (hplace : l.place? = some mode)
    (htext : ∀ raw, l ≠ .text raw) (h : Written l taken) : Piece.Fits mode ⟨l, taken, rest, mode.after l⟩ where
  written := h
  place := by simp [hplace]
  mode_eq := rfl
  maximal raw hl := absurd hl (htext raw)

theorem fits_closing (cs : List Char) : (closingPiece cs).Fits .between := by
  have hillegal : Written .illegal
      ('<' :: '/' :: (cs.takeWhile isNameChar ++ (cs.dropWhile isNameChar).takeWhile isBlank)) :=
    .illegalCloseTag List.all_takeWhile List.all_takeWhile
  simp only [closingPiece]
  split
  · split
    · exact fits_illegal _ hillegal
    · rename_i hne
      have hwritten : Written _ ('<' :: '/' :: (_ ++ (cs.dropWhile isNameChar).takeWhile isBlank ++ ['>'])) :=
        .closeTag (isName_takeWhile hne) List.all_takeWhile
      refine fits_of_written _ rfl (by simp) ?_
      simpa using hwritten
  · exact fits_illegal _ hillegal

theorem fits_opening (cs : List Char) : (openingPiece cs).Fits .between := by
  simp only [openingPiece]
  split
  · exact fits_illegal _ (.illegal (by decide))
  · rename_i hne
    have hwritten := Written.openTag (isName_takeWhile hne)
    rw [String.toList_ofList] at hwritten
    exact fits_of_written _ rfl (by simp) hwritten

theorem fits_text (cs : List Char) : Piece.Fits .between
    ⟨.text (String.ofList (cs.takeWhile (· ≠ '<'))), cs.takeWhile (· ≠ '<'), cs.dropWhile (· ≠ '<'), .between⟩ where
  written := by
    have htext : '<' ∉ (String.ofList (cs.takeWhile (· ≠ '<'))).toList := by
      rw [String.toList_ofList]
      exact not_mem_takeWhile_ne '<' cs
    have hwritten := Written.text htext
    rwa [String.toList_ofList] at hwritten
  place := by simp [Lexeme.place?]
  mode_eq := rfl
  maximal _ _ c hc := by simpa using head?_dropWhile (· ≠ '<') cs c hc

theorem fits_between (cs : List Char) : (pieceBetween cs).Fits .between := by
  unfold pieceBetween
  split
  · exact fits_closing _
  · exact fits_opening _
  · exact fits_text cs

theorem fits_value (cs : List Char) : (valuePiece cs).Fits .inTag := by
  simp only [valuePiece]
  split
  · exact fits_illegal _ (.illegalValue (not_mem_takeWhile_ne '"' cs))
  · have hraw : '"' ∉ (String.ofList (cs.takeWhile (· ≠ '"'))).toList := by
      rw [String.toList_ofList]
      exact not_mem_takeWhile_ne '"' cs
    have hwritten := Written.quotedValue hraw
    rw [String.toList_ofList] at hwritten
    exact fits_of_written _ rfl (by simp) hwritten

theorem isAttrName_cons_takeWhile (hletter : isLetter c = true) (hblank : isBlank c = false) (cs : List Char) :
    IsAttrName (String.ofList (c :: cs.takeWhile isNameChar)) where
  letter := ⟨c, cs.takeWhile isNameChar, String.toList_ofList, hletter, hblank⟩
  chars := by
    have hc : isNameChar c = true := by simp [isNameChar, hletter]
    rw [String.toList_ofList, List.all_cons, hc, List.all_takeWhile, Bool.and_self]

theorem fits_inTag (hblank : isBlank c = false) (cs : List Char) : (pieceInTag c cs).Fits .inTag := by
  unfold pieceInTag
  split
  · exact fits_of_written _ rfl (by simp) .tagEnd
  · exact fits_of_written _ rfl (by simp) .selfClose
  · exact fits_of_written _ rfl (by simp) .equals
  · exact fits_value _
  · split
    · rename_i hletter
      have hwritten := Written.attrName (isAttrName_cons_takeWhile hletter hblank cs)
      rw [String.toList_ofList] at hwritten
      exact fits_of_written _ rfl (by simp) hwritten
    · exact fits_illegal _ (.illegal hblank)

/-- What a step of the scan does: it passes over white space, but only inside of a tag, and cuts a piece. -/
structure Step (mode : Mode) (cs blanks : List Char) (p : Piece) : Prop where
  cs_eq : cs = blanks ++ p.taken ++ p.rest
  taken_ne_nil : p.taken ≠ []
  blank : blanks.all isBlank = true
  no_blanks : mode = .between → blanks = []
  fits : p.Fits mode

theorem step_of_nextPiece (h : nextPiece mode cs = some (blanks, p)) : Step mode cs blanks p := by
  obtain ⟨hcs, hne⟩ := nextPiece_append h
  cases mode with
  | between =>
    simp only [nextPiece] at h
    split at h
    · cases h
    · cases h
      exact ⟨hcs.symm, hne, rfl, fun _ => rfl, fits_between cs⟩
  | inTag =>
    simp only [nextPiece] at h
    split at h
    · cases h
    · rename_i c rest hrest
      cases h
      have hblank : isBlank c = false := head?_dropWhile isBlank cs c (by rw [hrest]; rfl)
      exact ⟨hcs.symm, hne, List.all_takeWhile, by simp, fits_inTag hblank rest⟩

/-- The scan ends where nothing is left, or nothing but white space inside of a tag. -/
theorem of_nextPiece_eq_none (h : nextPiece mode cs = none) : cs.all isBlank = true ∧ (mode = .between → cs = []) := by
  cases mode with
  | between =>
    have hcs : cs = [] := by simpa [nextPiece] using h
    exact ⟨hcs ▸ rfl, fun _ => hcs⟩
  | inTag =>
    simp only [nextPiece] at h
    split at h
    · rename_i hnil
      refine ⟨?_, by simp⟩
      rw [← List.takeWhile_append_dropWhile (p := isBlank) (l := cs), hnil, List.append_nil]
      exact List.all_takeWhile
    · cases h

/-! ### All pieces -/

/-- A text that starts at a byte offset, and its tokens, cut off step by step. -/
inductive Scanned : Nat → Mode → List Char → List Token → Prop where
  | done {offset : Nat} {mode : Mode} {cs : List Char} (hblank : cs.all isBlank = true)
      (hnil : mode = .between → cs = []) : Scanned offset mode cs []
  | step {offset : Nat} {mode : Mode} {cs blanks : List Char} {p : Piece} {ts : List Token} (h : Step mode cs blanks p)
      (hts : Scanned (offset + width (blanks ++ p.taken)) p.mode p.rest ts) :
      Scanned offset mode cs (⟨p.lexeme, ⟨offset + width blanks, offset + width (blanks ++ p.taken)⟩⟩ :: ts)

theorem scanned_scanFrom (offset : Nat) (mode : Mode) (cs : List Char) :
    Scanned offset mode cs (scanFrom offset mode cs) := by
  fun_induction scanFrom offset mode cs with
  | case1 offset mode cs h =>
    obtain ⟨hblank, hnil⟩ := of_nextPiece_eq_none h
    exact .done hblank hnil
  | case2 offset mode cs blanks p h _ start stop ih =>
    have hstop : stop = offset + width (blanks ++ p.taken) := by rw [width_append, ← Nat.add_assoc]
    rw [hstop] at ih ⊢
    exact .step (step_of_nextPiece h) ih

namespace Scanned

theorem length_le (h : Scanned offset mode cs ts) : ts.length ≤ cs.length := by
  induction h with
  | done => exact Nat.zero_le _
  | step h _ ih =>
    have htaken := List.length_pos_iff.mpr h.taken_ne_nil
    rw [h.cs_eq, List.length_append, List.length_append, List.length_cons]
    omega

/-- Each token cuts out the characters that it is written as. -/
theorem exists_slice (h : Scanned offset mode cs ts) : ∀ t ∈ ts, ∃ before slice after, cs = before ++ slice ++ after ∧
    slice ≠ [] ∧ t.span = ⟨offset + width before, offset + width (before ++ slice)⟩ ∧ Written t.lexeme slice := by
  induction h with
  | done => simp
  | @step offset _ cs blanks p ts h _ ih =>
    refine List.forall_mem_cons.mpr
      ⟨⟨blanks, p.taken, p.rest, h.cs_eq, h.taken_ne_nil, rfl, h.fits.written⟩, fun t ht => ?_⟩
    obtain ⟨before, slice, after, hrest, hne, hspan, hwritten⟩ := ih t ht
    refine ⟨blanks ++ p.taken ++ before, slice, after, ?_, hne, ?_, hwritten⟩
    · rw [h.cs_eq, hrest]
      simp
    · rw [hspan]
      simp [Nat.add_assoc]

theorem le_start (h : Scanned offset mode cs ts) (ht : t ∈ ts) : offset ≤ t.span.start := by
  obtain ⟨before, slice, after, -, -, hspan, -⟩ := h.exists_slice t ht
  rw [hspan]
  exact Nat.le_add_right _ _

theorem ordered (h : Scanned offset mode cs ts) : ts.Pairwise (·.span.stop ≤ ·.span.start) := by
  induction h with
  | done => exact .nil
  | step _ hts ih => exact .cons (fun u hu => hts.le_start hu) ih

/-- Each token belongs in the mode behind the tokens before it. -/
theorem place (h : Scanned offset mode cs ts) (hts : ts = us ++ t :: vs) : ∀ m ∈ t.lexeme.place?, m = mode.behind us := by
  induction h generalizing us with
  | done => simp at hts
  | step h _ ih =>
    cases us with
    | nil =>
      cases hts
      exact h.fits.place
    | cons u us =>
      cases hts
      rw [Mode.behind_cons, ← h.fits.mode_eq]
      exact ih rfl

theorem not_text_of_lt (h : Scanned offset .between cs (t :: ts)) (hcs : ∀ c ∈ cs.head?, c = '<') (raw : String) :
    t.lexeme ≠ .text raw := by
  intro htext
  cases h with
  | @step _ _ _ blanks p _ h _ =>
    have htext : p.lexeme = .text raw := htext
    obtain ⟨c, taken, htaken⟩ := List.exists_cons_of_ne_nil h.taken_ne_nil
    have hc : c = '<' := hcs c (by rw [h.cs_eq, h.no_blanks rfl, htaken]; rfl)
    have hwritten := h.fits.written
    rw [htext, htaken, hc] at hwritten
    generalize htaken : '<' :: taken = slice at hwritten
    cases hwritten with
    | text hlt => exact hlt (htaken ▸ List.mem_cons_self)

/-- A text goes on up to the next tag, so no other one follows it. -/
theorem not_text_after_text (h : Scanned offset mode cs ts) {v : Token} {raw raw' : String}
    (hts : ts = us ++ t :: v :: vs) (ht : t.lexeme = .text raw) : v.lexeme ≠ .text raw' := by
  induction h generalizing us with
  | done => simp at hts
  | @step offset mode _ _ p _ h hrest ih =>
    cases us with
    | cons u us =>
      cases hts
      exact ih rfl
    | nil =>
      cases hts
      have ht : p.lexeme = .text raw := ht
      have hmode : .between = mode := h.fits.place .between (by rw [ht]; rfl)
      have hnext : p.mode = .between := by rw [h.fits.mode_eq, ht, ← hmode]; rfl
      rw [hnext] at hrest
      exact hrest.not_text_of_lt (h.fits.maximal raw ht) raw'

theorem eq_inTag_of_ne_nil {as : List Char} (h : mode = .between → as = []) (hne : as ≠ []) : mode = .inTag := by
  cases mode with
  | between => exact absurd (h rfl) hne
  | inTag => rfl

theorem append_eq_append_cons {as bs before after : List Char} (h : as ++ bs = before ++ c :: after) :
    (∃ ds, as = before ++ c :: ds) ∨ ∃ ds, before = as ++ ds ∧ bs = ds ++ c :: after := by
  rcases List.append_eq_append_iff.mp h with h | ⟨ds, has, hds⟩
  · exact Or.inr h
  · cases ds with
    | nil => exact Or.inr ⟨[], by simpa using has.symm, hds.symm⟩
    | cons d ds =>
      cases hds
      exact Or.inl ⟨ds, has⟩

/-- A character is in a token, or it is white space inside of a tag, and then it lies between two tokens. -/
theorem covers_or_blank (h : Scanned offset mode cs ts) {before after : List Char} (hcs : cs = before ++ c :: after) :
    (∃ t ∈ ts, t.span.start ≤ offset + width before ∧ offset + width before < t.span.stop) ∨
    (isBlank c = true ∧ ∃ us vs, ts = us ++ vs ∧ mode.behind us = .inTag ∧
      (∀ u ∈ us, u.span.stop ≤ offset + width before) ∧
      ∀ v ∈ vs, offset + width (before ++ [c]) ≤ v.span.start) := by
  induction h generalizing before with
  | @done offset mode cs hblank hnil =>
    have hmode := eq_inTag_of_ne_nil hnil (by simp [hcs])
    exact Or.inr ⟨List.all_eq_true.mp hblank c (by simp [hcs]), [], [], rfl, hmode, by simp, by simp⟩
  | @step offset mode cs blanks p ts h hts ih =>
    have hcs := h.cs_eq.symm.trans hcs
    rw [List.append_assoc] at hcs
    rcases append_eq_append_cons hcs with ⟨ds, hblanks⟩ | ⟨ds, rfl, htaken⟩
    · -- The character is among those that are passed over in front of the token.
      have hmode := eq_inTag_of_ne_nil h.no_blanks (by simp [hblanks])
      refine Or.inr ⟨List.all_eq_true.mp h.blank c (by simp [hblanks]), [], _, rfl, hmode, by simp, ?_⟩
      refine List.forall_mem_cons.mpr ⟨?_, fun v hv => ?_⟩
      · simp [hblanks]
      · have := hts.le_start hv
        simp only [hblanks, width_append, width_cons, width_nil] at this ⊢
        omega
    · rcases append_eq_append_cons htaken with ⟨ds', htaken⟩ | ⟨ds', rfl, hrest⟩
      · refine Or.inl ⟨_, List.mem_cons_self, ?_⟩
        have := c.utf8Size_pos
        simp only [htaken, width_append, width_cons]
        omega
      · have hoffset : offset + width (blanks ++ (p.taken ++ ds')) = offset + width (blanks ++ p.taken) + width ds' := by
          simp [Nat.add_assoc]
        rw [hoffset]
        rcases ih hrest with ⟨t, ht, hcover⟩ | ⟨hblank, us, vs, rfl, hmode, hus, hvs⟩
        · exact Or.inl ⟨t, List.mem_cons_of_mem _ ht, hcover⟩
        · refine Or.inr ⟨hblank, _ :: us, vs, rfl, ?_, ?_, ?_⟩
          · rw [Mode.behind_cons, ← h.fits.mode_eq]
            exact hmode
          · exact List.forall_mem_cons.mpr ⟨Nat.le_add_right _ _, hus⟩
          · intro v hv
            have := hvs v hv
            simp only [width_append] at this ⊢
            omega

end Scanned

/-! ### Whole texts -/

/-- What tokens of a text have to be like for nothing to be lost. Offsets count bytes, and those of spans fall between
    characters. -/
structure Lossless (cs : List Char) (ts : List Token) : Prop where
  length_le : ts.length ≤ cs.length
  slices : ∀ t ∈ ts, ∃ before slice after, cs = before ++ slice ++ after ∧ slice ≠ [] ∧
    t.span = ⟨width before, width (before ++ slice)⟩ ∧ Written t.lexeme slice
  ordered : ts.Pairwise (·.span.stop ≤ ·.span.start)
  inside : ∀ us t vs, ts = us ++ t :: vs → t.lexeme.place? = some .inTag → InsideTag us
  outside : ∀ us t vs, ts = us ++ t :: vs → t.lexeme.place? = some .between → ¬InsideTag us
  texts_apart : ∀ us t v vs raw raw', ts = us ++ t :: v :: vs → t.lexeme = .text raw → v.lexeme ≠ .text raw'
  /-- A character in no token is white space after the start of an opening tag and before its end. -/
  gaps : ∀ before c after, cs = before ++ c :: after →
    (∃ t ∈ ts, t.span.start ≤ width before ∧ width before < t.span.stop) ∨
    (isBlank c = true ∧ ∃ us vs, ts = us ++ vs ∧ InsideTag us ∧ (∀ u ∈ us, u.span.stop ≤ width before) ∧
      ∀ v ∈ vs, width (before ++ [c]) ≤ v.span.start)

/-- Every text is scanned to tokens without a loss. -/
theorem lossless_scan (s : String) : Lossless s.toList (scan s) := by
  have h : Scanned 0 .between s.toList (scan s) := scanned_scanFrom 0 .between s.toList
  refine ⟨h.length_le, ?_, h.ordered, ?_, ?_, ?_, ?_⟩
  · simpa using h.exists_slice
  · intro us t vs hts hplace
    exact insideTag_iff.mpr (h.place hts .inTag hplace).symm
  · intro us t vs hts hplace hinside
    have hbetween := h.place hts .between hplace
    rw [insideTag_iff.mp hinside] at hbetween
    cases hbetween
  · intro us t v vs raw raw' hts ht
    exact h.not_text_after_text hts ht
  · intro before c after hcs
    rcases h.covers_or_blank hcs with ⟨t, ht, hcover⟩ | ⟨hblank, us, vs, hts, hmode, hus, hvs⟩
    · exact Or.inl ⟨t, ht, by simpa using hcover⟩
    · exact Or.inr ⟨hblank, us, vs, hts, insideTag_iff.mpr hmode, by simpa using hus, by simpa using hvs⟩

end

end TestSelection.Markup
