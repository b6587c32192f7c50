import TestSelection.Proofs.Lossless

/-! White space set into a text between two of its tokens. Inside of a tag the lexemes stay the same; between tags there is
    a text more, or one with more white space (`SpacedOut`). Main statement: `spacedOut_of_scanFrom`, by going through the
    tokens in front of the place. -/

namespace TestSelection.Markup
open Text

/-- The lexemes of a text into which white space is set, behind some lexemes and in front of others. Inside of a tag they
    stay the same; outside there is one text more, or one of the texts has more white space. -/
inductive SpacedOut (ws : String) : Mode → List Lexeme → List Lexeme → List Lexeme → Prop where
  | inTag (as bs : List Lexeme) : SpacedOut ws .inTag as bs (as ++ bs)
  | apart (as bs : List Lexeme) : SpacedOut ws .between as bs (as ++ .text ws :: bs)
  | behind (as bs : List Lexeme) (raw : String) : SpacedOut ws .between (as ++ [.text raw]) bs (as ++ .text (raw ++ ws) :: bs)
  | before (as bs : List Lexeme) (raw : String) : SpacedOut ws .between as (.text raw :: bs) (as ++ .text (ws ++ raw) :: bs)

section
variable {mode : Mode} {l : Lexeme} {t u : Token} {ts us vs : List Token} {cs blanks front back : List Char} {c : Char} {p : Piece}
  {offset : Nat} {ws : String} {as bs ls : List Lexeme}

theorem SpacedOut.cons (h : SpacedOut ws mode as bs ls) (l : Lexeme) : SpacedOut ws mode (l :: as) bs (l :: ls) := by
  cases h with
  | inTag as bs => exact .inTag (l :: as) bs
  | apart as bs => exact .apart (l :: as) bs
  | behind as bs raw => exact .behind (l :: as) bs raw
  | before as bs raw => exact .before (l :: as) bs raw

/-! ### Lexemes of texts -/

theorem scanFrom_of_none (h : nextPiece mode cs = none) (offset : Nat) : scanFrom offset mode cs = [] := by
  rw [scanFrom]
  split
  · rfl
  · rename_i heq
    rw [h] at heq
    cases heq

theorem map_lexeme_scanFrom (offset offset' : Nat) (mode : Mode) (cs : List Char) :
    (scanFrom offset mode cs).map Token.lexeme = (scanFrom offset' mode cs).map Token.lexeme := by
  fun_induction scanFrom offset mode cs generalizing offset' with
  | case1 offset mode cs h => rw [scanFrom_of_none h]
  | case2 offset mode cs blanks p h _ start stop ih =>
    obtain ⟨span, hspan⟩ := scanFrom_of_nextPiece h offset'
    rw [hspan, List.map_cons, List.map_cons, ih]

/-- The lexemes of a text, which are the same wherever the text starts. -/
def lexemes (mode : Mode) (cs : List Char) : List Lexeme := (scanFrom 0 mode cs).map Token.lexeme

theorem map_lexeme_eq (offset : Nat) (mode : Mode) (cs : List Char) :
    (scanFrom offset mode cs).map Token.lexeme = lexemes mode cs :=
  map_lexeme_scanFrom offset 0 mode cs

theorem lexemes_of_none (h : nextPiece mode cs = none) : lexemes mode cs = [] := by
  rw [lexemes, scanFrom_of_none h, List.map_nil]

theorem lexemes_of_nextPiece (h : nextPiece mode cs = some (blanks, p)) : lexemes mode cs = p.lexeme :: lexemes p.mode p.rest := by
  obtain ⟨span, hspan⟩ := scanFrom_of_nextPiece h 0
  rw [lexemes, hspan, List.map_cons, map_lexeme_eq]

theorem lexemes_of_written {taken rest : List Char} (blanks : List Char) (h : Written l taken) (hne : taken ≠ []) (hplace : l.place? = some mode)
    (hrest : l.Stops rest) (hblanks : blanks.all isBlank = true) (hnone : mode = .between → blanks = []) :
    lexemes mode (blanks ++ taken ++ rest) = l :: lexemes (mode.after l) rest :=
  lexemes_of_nextPiece (nextPiece_of_written h hne hplace hrest hblanks hnone)

/-- Between tags, what is no text starts with the bracket of a tag. -/
theorem head?_of_written {taken : List Char} (h : Written l taken) (hplace : l.place? = some .between)
    (htext : ∀ raw, l ≠ .text raw) : taken.head? = some '<' := by
  cases h with
  | openTag | closeTag => rfl
  | text => exact absurd rfl (htext _)
  | tagEnd | selfClose | attrName | equals | quotedValue | illegal | illegalCloseTag | illegalValue => cases hplace

theorem append_eq_append_of_width_le {as bs cs ds : List Char} (h : as ++ bs = cs ++ ds) (hle : width as ≤ width cs) :
    ∃ es, cs = as ++ es ∧ bs = es ++ ds := by
  rcases List.append_eq_append_iff.mp h with ⟨es, rfl, rfl⟩ | ⟨es, rfl, rfl⟩
  · exact ⟨es, rfl, rfl⟩
  · rw [width_append] at hle
    obtain rfl : es = [] := by
      by_contra hne
      have := width_pos hne
      omega
    exact ⟨[], by simp, rfl⟩

/-! ### Setting white space in -/

theorem place_of_legal (h : Step mode cs blanks p) (hlegal : p.lexeme ≠ .illegal) : p.lexeme.place? = some mode := by
  have hplace := h.fits.place
  cases hl : p.lexeme <;> simp_all [Lexeme.place?]

theorem lt_not_mem_of_blank (h : cs.all isBlank = true) : '<' ∉ cs := fun hmem =>
  absurd (List.all_eq_true.mp h _ hmem) (by decide)

/-- Inside of a tag, white space in front of a text is passed over. -/
theorem lexemes_inTag_append (h : blanks.all isBlank = true) (cs : List Char) :
    lexemes .inTag (blanks ++ cs) = lexemes .inTag cs := by
  have hdrop : (blanks ++ cs).dropWhile isBlank = cs.dropWhile isBlank :=
    List.dropWhile_append_of_pos (List.all_eq_true.mp h)
  cases hcs : cs.dropWhile isBlank with
  | nil =>
    rw [hcs] at hdrop
    rw [lexemes_of_none (by simp only [nextPiece, hdrop]), lexemes_of_none (by simp only [nextPiece, hcs])]
  | cons c rest =>
    rw [hcs] at hdrop
    have hboth : nextPiece .inTag (blanks ++ cs) = some ((blanks ++ cs).takeWhile isBlank, pieceInTag c rest) := by
      simp only [nextPiece, hdrop]
    have hone : nextPiece .inTag cs = some (cs.takeWhile isBlank, pieceInTag c rest) := by simp only [nextPiece, hcs]
    rw [lexemes_of_nextPiece hboth, lexemes_of_nextPiece hone]

theorem lexemes_text {raw : String} (hne : raw ≠ "") (hlt : '<' ∉ raw.toList) (hcs : ∀ c ∈ cs.head?, c = '<') :
    lexemes .between (raw.toList ++ cs) = .text raw :: lexemes .between cs :=
  lexemes_of_written [] (.text hlt) (mt String.toList_eq_nil_iff.mp hne) rfl hcs rfl fun _ => rfl

/-- Between tags, white space in front makes a text, alone or with the text that is already there. -/
theorem spacedOut_between (hws : ws.toList.all isBlank = true) (hne : ws ≠ "") (hlegal : ∀ l ∈ lexemes .between cs, l ≠ .illegal) :
    SpacedOut ws .between [] (lexemes .between cs) (lexemes .between (ws.toList ++ cs)) := by
  have hlt := lt_not_mem_of_blank hws
  cases hnext : nextPiece .between cs with
  | none =>
    obtain rfl := (of_nextPiece_eq_none hnext).2 rfl
    rw [lexemes_text hne hlt (by simp)]
    exact .apart [] _
  | some q =>
    obtain ⟨blanks, p⟩ := q
    have hstep := step_of_nextPiece hnext
    have hlexemes := lexemes_of_nextPiece hnext
    rw [hlexemes] at hlegal
    have hplace := place_of_legal hstep (hlegal _ List.mem_cons_self)
    have hwritten := hstep.fits.written
    have hcs := hstep.cs_eq
    rw [hstep.no_blanks rfl, List.nil_append] at hcs
    by_cases htext : ∃ raw, p.lexeme = .text raw
    · obtain ⟨raw, hraw⟩ := htext
      have hrest := hstep.fits.maximal raw hraw
      have hmode : p.mode = .between := by rw [hstep.fits.mode_eq, hraw]; rfl
      rw [hlexemes, hraw, hmode, hcs]
      rw [hraw] at hwritten
      generalize p.taken = taken at hwritten
      cases hwritten with
      | text hraw =>
        have hboth : '<' ∉ (ws ++ raw).toList := by simp [hlt, hraw]
        rw [← List.append_assoc, ← String.toList_append, lexemes_text (by simp [hne]) hboth hrest]
        exact .before [] _ raw
    · have hhead := head?_of_written hwritten hplace fun raw hraw => htext ⟨raw, hraw⟩
      have hcs : ∀ c ∈ cs.head?, c = '<' := by simp [hcs, hhead]
      rw [lexemes_text hne hlt hcs]
      exact .apart [] _

/-- What lies in front of all tokens is white space inside of a tag, and nothing between tags. -/
theorem blank_of_le_start (hvs : ∀ v ∈ scanFrom offset mode (front ++ back), offset + width front ≤ v.span.start) :
    front.all isBlank = true ∧ (mode = .between → front = []) := by
  cases hnext : nextPiece mode (front ++ back) with
  | none =>
    obtain ⟨hblank, hnil⟩ := of_nextPiece_eq_none hnext
    rw [List.all_append, Bool.and_eq_true] at hblank
    exact ⟨hblank.1, fun hmode => (List.append_eq_nil_iff.mp (hnil hmode)).1⟩
  | some q =>
    obtain ⟨blanks, p⟩ := q
    have hstep := step_of_nextPiece hnext
    have hcs := hstep.cs_eq
    rw [scanFrom_eq_cons hnext] at hvs
    rw [List.append_assoc] at hcs
    obtain ⟨hle, -⟩ := List.forall_mem_cons.mp hvs
    obtain ⟨more, hblanks, -⟩ := append_eq_append_of_width_le hcs (Nat.le_of_add_le_add_left hle)
    have hblank := hstep.blank
    rw [hblanks, List.all_append, Bool.and_eq_true] at hblank
    refine ⟨hblank.1, fun hmode => ?_⟩
    exact (List.append_eq_nil_iff.mp (hblanks.symm.trans (hstep.no_blanks hmode))).1

/-- White space in front of all tokens. -/
theorem spacedOut_front (hws : ws.toList.all isBlank = true) (hne : ws ≠ "")
    (hlegal : ∀ l ∈ lexemes mode (front ++ back), l ≠ .illegal)
    (hvs : ∀ v ∈ scanFrom offset mode (front ++ back), offset + width front ≤ v.span.start) :
    SpacedOut ws mode [] (lexemes mode (front ++ back)) (lexemes mode (front ++ ws.toList ++ back)) := by
  obtain ⟨hfront, hnil⟩ := blank_of_le_start hvs
  cases mode with
  | between =>
    obtain rfl := hnil rfl
    exact spacedOut_between hws hne hlegal
  | inTag =>
    have hboth : (front ++ ws.toList).all isBlank = true := by simp [hfront, hws]
    rw [lexemes_inTag_append hfront, lexemes_inTag_append hboth]
    exact .inTag [] _

/-- White space behind a text makes it longer. -/
theorem spacedOut_behind {raw : String} (hws : ws.toList.all isBlank = true) (hne : ws ≠ "") (hraw : '<' ∉ raw.toList)
    (hback : ∀ c ∈ back.head?, c = '<') :
    SpacedOut ws .between [.text raw] (lexemes .between back) (lexemes .between (raw.toList ++ ws.toList ++ back)) := by
  have hboth : '<' ∉ (raw ++ ws).toList := by simp [lt_not_mem_of_blank hws, hraw]
  rw [← String.toList_append, lexemes_text (by simp [hne]) hboth hback]
  exact .behind [] _ raw

theorem lt_stop_of_mem (hu : u ∈ scanFrom offset mode cs) : offset < u.span.stop := by
  obtain ⟨before, slice, after, -, hne, hspan, -⟩ := (scanned_scanFrom offset mode cs).exists_slice u hu
  rw [hspan]
  change offset < offset + width (before ++ slice)
  have := width_pos hne
  rw [width_append]
  omega

/-- White space behind a first lexeme that is a text. -/
theorem spacedOut_behind_piece {raw : String} (hws : ws.toList.all isBlank = true) (hne : ws ≠ "") (hstep : Step mode cs blanks p)
    (hraw : p.lexeme = .text raw) (hstops : p.lexeme.Stops p.rest) :
    SpacedOut ws p.mode [p.lexeme] (lexemes p.mode p.rest) (lexemes mode (blanks ++ p.taken ++ ws.toList ++ p.rest)) := by
  have hplace := place_of_legal hstep (by rw [hraw]; nofun)
  have hwritten := hstep.fits.written
  rw [hraw] at hplace hwritten hstops
  obtain rfl : .between = mode := Option.some.inj hplace
  have hmode : p.mode = .between := by rw [hstep.fits.mode_eq, hraw]; rfl
  rw [hstep.no_blanks rfl, List.nil_append, hmode, hraw]
  generalize p.taken = taken at hwritten
  cases hwritten with
  | text hlt => exact spacedOut_behind hws hne hlt hstops

/-- White space ends a lexeme, unless it is a text that has come to its end. -/
theorem stops_append_blank {more : List Char} (h : l.Stops (more ++ back)) (hws : ws.toList.all isBlank = true) (hne : ws ≠ "")
    (hmore : more = [] → ∀ raw, l ≠ .text raw) : l.Stops (more ++ (ws.toList ++ back)) := by
  cases more with
  | cons d more => cases l <;> exact h
  | nil =>
    obtain ⟨b, blanks, hb⟩ := List.exists_cons_of_ne_nil (mt String.toList_eq_nil_iff.mp hne)
    rw [hb, List.all_cons, Bool.and_eq_true] at hws
    have hname : ∀ c ∈ (ws.toList ++ back).head?, isNameChar c = false := by
      intro c hc
      rw [hb] at hc
      cases hc
      exact isNameChar_of_isBlank hws.1
    cases l with
    | openTag | attrName => exact hname
    | text raw => exact absurd rfl (hmore rfl raw)
    | closeTag | tagEnd | selfClose | equals | quotedValue | illegal => trivial

/-- White space between two tokens, or around all of them. -/
theorem spacedOut_of_scanFrom (hws : ws.toList.all isBlank = true) (hne : ws ≠ "") :
    ∀ {us : List Token} {offset : Nat} {mode : Mode} {front : List Char}, scanFrom offset mode (front ++ back) = us ++ vs →
      (∀ t ∈ us ++ vs, t.lexeme ≠ .illegal) → (∀ u ∈ us, u.span.stop ≤ offset + width front) →
      (∀ v ∈ vs, offset + width front ≤ v.span.start) →
      SpacedOut ws (mode.behind us) (us.map Token.lexeme) (vs.map Token.lexeme) (lexemes mode (front ++ ws.toList ++ back)) := by
  intro us
  induction us with
  | nil =>
    intro offset mode front hts hlegal _ hvs
    rw [List.nil_append] at hts hlegal
    subst hts
    rw [map_lexeme_eq]
    refine spacedOut_front hws hne (fun l hl => ?_) hvs
    rw [← map_lexeme_eq offset] at hl
    obtain ⟨t, ht, rfl⟩ := List.mem_map.mp hl
    exact hlegal t ht
  | cons u us ih =>
    intro offset mode front hts hlegal hus hvs
    cases hnext : nextPiece mode (front ++ back) with
    | none =>
      rw [scanFrom_of_none hnext] at hts
      cases hts
    | some q =>
      obtain ⟨blanks, p⟩ := q
      have hstep := step_of_nextPiece hnext
      have hstops := stops_of_nextPiece hnext
      rw [scanFrom_eq_cons hnext, List.cons_append] at hts
      rw [List.cons_append] at hlegal
      obtain ⟨rfl, hrest⟩ := List.cons_eq_cons.mp hts
      obtain ⟨hp, hlegal⟩ := List.forall_mem_cons.mp hlegal
      obtain ⟨hle, hus⟩ := List.forall_mem_cons.mp hus
      have hplace := place_of_legal hstep hp
      -- What is in front of the place goes on behind the first token.
      obtain ⟨more, rfl, hmore⟩ := append_eq_append_of_width_le hstep.cs_eq.symm (Nat.le_of_add_le_add_left hle)
      have hoffset : offset + width (blanks ++ p.taken ++ more) = offset + width (blanks ++ p.taken) + width more := by
        rw [width_append, Nat.add_assoc]
      rw [hoffset] at hus hvs
      rw [hmore] at hrest hstops
      rw [Mode.behind_cons, List.map_cons, ← hstep.fits.mode_eq]
      by_cases htext : more = [] ∧ ∃ raw, p.lexeme = .text raw
      · -- The place is right behind a text, so no other token is in front of it.
        obtain ⟨rfl, raw, hraw⟩ := htext
        obtain rfl : us = [] := by
          refine List.eq_nil_iff_forall_not_mem.mpr fun u hu => absurd (hus u hu) (Nat.not_le.mpr ?_)
          exact lt_stop_of_mem (hrest ▸ List.mem_append_left vs hu)
        simp only [List.nil_append] at hrest hmore
        rw [← hrest, map_lexeme_eq, ← hmore, List.append_nil]
        exact spacedOut_behind_piece hws hne hstep hraw (by rwa [hmore])
      · have hspaced := stops_append_blank hstops hws hne fun hnil raw hraw => htext ⟨hnil, raw, hraw⟩
        have hnew := lexemes_of_written blanks hstep.fits.written hstep.taken_ne_nil hplace hspaced hstep.blank hstep.no_blanks
        have hchars : blanks ++ p.taken ++ more ++ ws.toList ++ back = blanks ++ p.taken ++ (more ++ (ws.toList ++ back)) := by
          simp
        have hrec := ih hrest hlegal hus hvs
        rw [List.append_assoc] at hrec
        rw [hchars, hnew, ← hstep.fits.mode_eq]
        exact hrec.cons p.lexeme

end

end TestSelection.Markup
