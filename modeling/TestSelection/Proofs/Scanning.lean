import TestSelection.Proofs.Entity
import TestSelection.Proofs.Grammar
import TestSelection.Proofs.Lexemes

/-! How filter text is scanned that is written with care: names are names, and texts and values are escaped.
    Each piece of such a text is scanned to its tokens wherever it stands (`Scans`), and an opening tag,
    content and the closing tag make up an element (`scans_element`). -/

namespace TestSelection.Markup

def attributeText (a : String × String) : String := " " ++ a.1 ++ "=\"" ++ escape a.2 ++ "\""

/-- In front of `rest`, and wherever it stands, the text is scanned to tokens of a certain kind. -/
def Scans (mode : Mode) (s : String) (next : Mode) (rest : List Char) (P : List Token → Prop) : Prop :=
  ∀ offset, ∃ ts offset', scanFrom offset mode (s.toList ++ rest) = ts ++ scanFrom offset' next rest ∧ P ts

/-- There is one token, which is a given lexeme. -/
def IsToken (lexeme : Lexeme) (ts : List Token) : Prop := ∃ span, ts = [⟨lexeme, span⟩]

section
variable {mode m n : Mode} {s t name attr value raw : String} {cs rest blanks : List Char} {c : Char} {p : Piece}
  {lexeme : Lexeme} {P Q : List Token → Prop} {ts us : List Token} {as bs : List (String × String)}

/-! ### One token -/

theorem scanFrom_eq_cons (h : nextPiece mode cs = some (blanks, p)) (offset : Nat) : scanFrom offset mode cs =
    ⟨p.lexeme, ⟨offset + Text.width blanks, offset + Text.width (blanks ++ p.taken)⟩⟩ ::
      scanFrom (offset + Text.width (blanks ++ p.taken)) p.mode p.rest := by
  rw [scanFrom]
  split
  · rename_i hnone
    rw [h] at hnone
    cases hnone
  · rename_i heq
    rw [h] at heq
    cases heq
    simp only [Text.width_append, Nat.add_assoc]

theorem scanFrom_of_nextPiece (h : nextPiece mode cs = some (blanks, p)) (offset : Nat) :
    ∃ span : Span, scanFrom offset mode cs = ⟨p.lexeme, span⟩ :: scanFrom span.stop p.mode p.rest :=
  ⟨_, scanFrom_eq_cons h offset⟩

theorem scanFrom_nil (offset : Nat) : scanFrom offset mode [] = [] := by
  rw [scanFrom]
  cases mode <;> rfl

theorem Scans.of_nextPiece (blanks taken : List Char) 
    (h : nextPiece mode (s.toList ++ rest) = some (blanks, ⟨lexeme, taken, rest, n⟩)) :
    Scans mode s n rest (IsToken lexeme) := fun offset =>
  have ⟨span, hspan⟩ := scanFrom_of_nextPiece h offset
  ⟨[⟨lexeme, span⟩], span.stop, hspan, span, rfl⟩

theorem Scans.append (hs : Scans mode s m (t.toList ++ rest) P) (ht : Scans m t n rest Q) :
    Scans mode (s ++ t) n rest fun ts => ∃ us vs, ts = us ++ vs ∧ P us ∧ Q vs := by
  intro offset
  obtain ⟨us, o, hus, hP⟩ := hs offset
  obtain ⟨vs, o', hvs, hQ⟩ := ht o
  refine ⟨us ++ vs, o', ?_, us, vs, rfl, hP, hQ⟩
  rw [String.toList_append, List.append_assoc, hus, hvs, List.append_assoc]

theorem Scans.mono (hs : Scans mode s n rest P) (h : ∀ ts, P ts → Q ts) : Scans mode s n rest Q := fun offset =>
  have ⟨ts, o, hts, hP⟩ := hs offset
  ⟨ts, o, hts, h ts hP⟩

/-! ### Tags and texts -/

theorem Scans.of_written {taken : List Char} (blanks : List Char) (h : Written lexeme taken) (hs : s.toList = blanks ++ taken) (hne : taken ≠ [])
    (hplace : lexeme.place? = some mode) (hrest : lexeme.Stops rest) (hblanks : blanks.all Text.isBlank = true)
    (hnone : mode = .between → blanks = []) : Scans mode s (mode.after lexeme) rest (IsToken lexeme) := by
  refine .of_nextPiece blanks taken ?_
  rw [hs]
  exact nextPiece_of_written h hne hplace hrest hblanks hnone

theorem scans_openTag (h : IsName name) (hc : isNameChar c = false) :
    Scans .between ("<" ++ name) .inTag (c :: rest) (IsToken (.openTag name)) :=
  .of_written [] (.openTag h) (by simp) (by simp) rfl (by simpa [Lexeme.Stops] using hc) rfl fun _ => rfl

theorem scans_tagEnd : Scans .inTag ">" .between rest (IsToken .tagEnd) :=
  .of_written [] .tagEnd rfl (by simp) rfl trivial rfl nofun

theorem scans_selfClose : Scans .inTag " />" .between rest (IsToken .selfClose) :=
  .of_written [' '] .selfClose rfl (by simp) rfl trivial (by decide) nofun

theorem scans_closeTag (h : IsName name) : Scans .between ("</" ++ name ++ ">") .between rest (IsToken (.closeTag name)) := by
  have hwritten : Written (.closeTag name) ('<' :: '/' :: (name.toList ++ [] ++ ['>'])) := .closeTag h rfl
  exact .of_written [] hwritten (by simp) (by simp) rfl trivial rfl fun _ => rfl

theorem scans_text (hne : s ≠ "") (h : '<' ∉ s.toList) : Scans .between s .between ('<' :: rest) (IsToken (.text s)) :=
  .of_written [] (.text h) rfl (by simpa using hne) rfl (by simp [Lexeme.Stops]) rfl fun _ => rfl

/-! ### Attributes -/

theorem scans_attrName (h : IsAttrName attr) (hc : isNameChar c = false) :
    Scans .inTag (" " ++ attr) .inTag (c :: rest) (IsToken (.attrName attr)) := by
  obtain ⟨d, ds, hattr, -⟩ := h.letter
  exact .of_written [' '] (.attrName h) (by simp) (by simp [hattr]) rfl (by simpa [Lexeme.Stops] using hc)
    (by decide) nofun

theorem scans_equals : Scans .inTag "=" .inTag rest (IsToken .equals) :=
  .of_written [] .equals rfl (by simp) rfl trivial rfl nofun

theorem scans_value (h : '"' ∉ raw.toList) :
    Scans .inTag ("\"" ++ raw ++ "\"") .inTag rest (IsToken (.quotedValue raw)) :=
  .of_written [] (.quotedValue h) (by simp) (by simp) rfl trivial rfl nofun

theorem scans_attribute {a : String × String} (h : IsAttrName a.1) : Scans .inTag (attributeText a) .inTag rest
    fun ts => ∃ s₁ s₂ s₃, ts = [⟨.attrName a.1, s₁⟩, ⟨.equals, s₂⟩, ⟨.quotedValue (escape a.2), s₃⟩] := by
  have hquote : '"' ∉ (escape a.2).toList := fun hmem => (mem_escape hmem).2.2 rfl
  have htext : attributeText a = (" " ++ a.1) ++ ("=" ++ ("\"" ++ escape a.2 ++ "\"")) := by
    simp [attributeText, ← String.toList_inj]
  have hname : Scans .inTag (" " ++ a.1) .inTag ('=' :: (("\"" ++ escape a.2 ++ "\"").toList ++ rest)) _ :=
    scans_attrName h (by decide +kernel)
  have hequals : '=' :: (("\"" ++ escape a.2 ++ "\"").toList ++ rest) =
      ("=" ++ ("\"" ++ escape a.2 ++ "\"")).toList ++ rest := by simp
  rw [hequals] at hname
  rw [htext]
  refine (hname.append (scans_equals.append (scans_value hquote))).mono ?_
  rintro _ ⟨_, _, rfl, ⟨s₁, rfl⟩, _, _, rfl, ⟨s₂, rfl⟩, s₃, rfl⟩
  exact ⟨s₁, s₂, s₃, rfl⟩

theorem Scans.nil : Scans mode "" mode rest (· = []) := fun offset => ⟨[], offset, rfl, rfl⟩

/-- Attributes that are written one after the other are scanned to tokens that make them. -/
theorem scans_attributes (h : ∀ a ∈ as, IsAttrName a.1) :
    Scans .inTag (String.join (as.map attributeText)) .inTag rest (MakeAttributes · as) := by
  induction as with
  | nil => exact Scans.nil.mono fun _ hts => hts ▸ .nil
  | cons a as ih =>
    obtain ⟨ha, has⟩ := List.forall_mem_cons.mp h
    rw [List.map_cons, String.join_cons]
    refine ((scans_attribute ha).append (ih has)).mono ?_
    rintro _ ⟨_, ts, rfl, ⟨s₁, s₂, s₃, rfl⟩, hts⟩
    have hcons : MakeAttributes ([⟨.attrName a.1, s₁⟩, ⟨.equals, s₂⟩, ⟨.quotedValue (escape a.2), s₃⟩] ++ ts) _ := .cons hts
    rwa [decode_escape] at hcons

/-! ### Elements -/

theorem exists_cons_of_attributes (as : List (String × String)) (s : String) :
    ∃ c cs, (String.join (as.map attributeText) ++ (">" ++ s)).toList = c :: cs ∧ isNameChar c = false := by
  cases as with
  | nil => exact ⟨'>', s.toList, by simp, by decide +kernel⟩
  | cons a as => exact ⟨' ', _, by simp [attributeText]; rfl, by decide +kernel⟩

/-- An escaped text between tags is scanned to content that has just the text. -/
theorem scans_escape (hne : s ≠ "") : Scans .between (escape s) .between ('<' :: rest) (MakeContent · [] s) := by
  have hlt : '<' ∉ (escape s).toList := fun hmem => (mem_escape hmem).1 rfl
  refine (scans_text (mt escape_eq_empty_iff.mp hne) hlt).mono ?_
  rintro _ ⟨span, rfl⟩
  have htext : MakeContent [⟨.text (escape s), span⟩] [] _ := .text .nil
  rwa [decode_escape, String.append_empty] at htext

/-- An opening tag, content and the closing tag are scanned to tokens that make an element. -/
theorem scans_element {content : String} {R : List Element → String → Prop} (hname : IsName name)
    (hattr : ∀ a ∈ as, IsAttrName a.1) (hdistinct : (as.map (·.1)).Nodup)
    (hcontent : Scans .between content .between (("</" ++ name ++ ">").toList ++ rest)
      fun ts => ∃ children text, MakeContent ts children text ∧ R children text) :
    Scans .between ("<" ++ name ++ String.join (as.map attributeText) ++ ">" ++ content ++ "</" ++ name ++ ">") .between
      rest fun ts => ∃ span children text, MakeElement ts ⟨name, span, as, children, text⟩ ∧ R children text := by
  have htext : "<" ++ name ++ String.join (as.map attributeText) ++ ">" ++ content ++ "</" ++ name ++ ">" =
      ("<" ++ name) ++ (String.join (as.map attributeText) ++ (">" ++ (content ++ ("</" ++ name ++ ">")))) := by
    simp only [String.append_assoc]
  obtain ⟨c, cs, hcs, hc⟩ := exists_cons_of_attributes as (content ++ ("</" ++ name ++ ">"))
  have hopen : Scans .between ("<" ++ name) .inTag (c :: (cs ++ rest)) _ := scans_openTag hname hc
  rw [← List.cons_append, ← hcs] at hopen
  rw [htext]
  refine (hopen.append ((scans_attributes hattr).append (scans_tagEnd.append (hcontent.append (scans_closeTag hname))))).mono ?_
  rintro _ ⟨_, _, rfl, ⟨s₁, rfl⟩, _, _, rfl, has, _, _, rfl, ⟨s₂, rfl⟩, _, _, rfl, ⟨children, text, hts, hR⟩, s₃, rfl⟩
  exact ⟨s₁, children, text, .enclosing has hdistinct hts, hR⟩

end

end TestSelection.Markup
