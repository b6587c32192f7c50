import TestSelection.Proofs.Decoding
import TestSelection.Proofs.Scanning

/-! Escaped texts among other texts. A text is settled if no entity is left open at its end; what stands behind it then
    makes no difference to what it is decoded to (`decodeChars_append_of_settled`). An escaped text is settled
    (`settled_escape`) and has none of the characters that end a text between tags or a value in quotes, so it is scanned
    and decoded to itself among any other texts. Main statement: `escape_in_any_context`. -/

namespace TestSelection.Markup

/-- Every `&` has a `;` somewhere behind it. -/
def Settled (cs : List Char) : Prop := ∀ rest, '&' :: rest <:+ cs → ';' ∈ rest

section
variable {c : Char} {cs ds : List Char}

/-! ### Settled texts -/

theorem settled_nil : Settled [] := by
  intro rest h
  cases List.suffix_nil.mp h

theorem settled_cons_iff : Settled (c :: cs) ↔ (c = '&' → ';' ∈ cs) ∧ Settled cs := by
  constructor
  · intro h
    refine ⟨fun hc => h cs (hc ▸ List.suffix_rfl), fun rest hrest => h rest (hrest.trans (List.suffix_cons c cs))⟩
  · rintro ⟨hc, hcs⟩ rest hrest
    rcases List.suffix_cons_iff.mp hrest with heq | hrest
    · cases heq
      exact hc rfl
    · exact hcs rest hrest

theorem Settled.of_append (h : Settled (cs ++ ds)) : Settled ds :=
  fun rest hrest => h rest (hrest.trans (List.suffix_append cs ds))

theorem Settled.append_left (h : Settled ds) (hamp : '&' ∉ cs) : Settled (cs ++ ds) := by
  induction cs with
  | nil => exact h
  | cons c cs ih =>
    rw [List.mem_cons, not_or] at hamp
    exact settled_cons_iff.mpr ⟨fun hc => absurd hc.symm hamp.1, ih hamp.2⟩

theorem Settled.escapeChar_append (h : Settled cs) (c : Char) : Settled (escapeChar c ++ cs) := by
  rcases escapeChar_cases c with ⟨hc, hamp, -⟩ | ⟨name, hc, -, halpha⟩ <;> rw [hc]
  · exact settled_cons_iff.mpr ⟨fun h => absurd h hamp, h⟩
  · have hname : '&' ∉ name := fun hmem => absurd (List.all_eq_true.mp halpha _ hmem) (by decide)
    have hend : Settled (';' :: cs) := settled_cons_iff.mpr ⟨fun h => absurd h (by decide), h⟩
    rw [List.cons_append, List.append_assoc]
    exact settled_cons_iff.mpr ⟨fun _ => by simp, hend.append_left hname⟩

theorem settled_escape (s : String) : Settled (escape s).toList := by
  rw [escape, String.toList_ofList]
  induction s.toList with
  | nil => exact settled_nil
  | cons c cs ih =>
    rw [List.flatMap_cons]
    exact ih.escapeChar_append c

/-! ### Decoding in front of other texts -/

theorem decodeChars_append_of_settled (h : Settled cs) (rest : List Char) :
    decodeChars (cs ++ rest) = decodeChars cs ++ decodeChars rest := by
  fun_induction decodeChars cs with
  | case1 => rfl
  | case2 cs e after href _ ih =>
    obtain ⟨hend, hcs⟩ := settled_cons_iff.mp h
    have hrest : reference? (cs ++ rest) = some (e, after ++ rest) := by
      rw [reference?_append_of_mem (hend rfl), href]
      rfl
    -- What follows the entity is the end of a settled text, so it is settled as well.
    obtain ⟨name, rfl, -, -⟩ := reference?_eq_some_iff.mp href
    have hafter : Settled after := (settled_cons_iff.mp hcs.of_append).2
    rw [List.cons_append, decodeChars_cons_of_reference hrest, ih hafter, List.cons_append]
  | case3 cs href ih =>
    obtain ⟨hend, hcs⟩ := settled_cons_iff.mp h
    have hnone : reference? (cs ++ rest) = none := by
      rw [reference?_append_of_mem (hend rfl), href]
      rfl
    rw [List.cons_append, decodeChars_cons_of_no_reference hnone, ih hcs, List.cons_append]
  | case4 c cs hc ih => rw [List.cons_append, decodeChars_cons_of_ne hc, ih (settled_cons_iff.mp h).2, List.cons_append]

theorem decode_append_of_settled {front : String} (h : Settled front.toList) (s : String) :
    decode (front ++ s) = decode front ++ decode s := by
  rw [decode, String.toList_append, decodeChars_append_of_settled h, String.ofList_append]
  rfl

/-- An escaped text has no angle brackets and no quotes, and it is decoded to the text that was escaped, whatever follows
    and whatever settled text comes before. Every `&` in it has its `;` in it too. Between tags it is part of one text up to
    the next tag, and between quotes it is one value up to the quote behind it. -/
theorem escape_in_any_context (s t : String) :
    (∀ c ∈ (escape s).toList, c ≠ '<' ∧ c ≠ '>' ∧ c ≠ '"') ∧
    decode (escape s ++ t) = s ++ decode t ∧ decode (escape s) = s ∧
    (∀ front : String, Settled front.toList → decode (front ++ escape s ++ t) = decode front ++ s ++ decode t) ∧
    Settled (escape s).toList ∧
    (s ≠ "" → ∀ rest, Scans .between (escape s) .between ('<' :: rest) (IsToken (.text (escape s)))) ∧
    ∀ rest, Scans .inTag ("\"" ++ escape s ++ "\"") .inTag rest (IsToken (.quotedValue (escape s))) := by
  have hopen : '<' ∉ (escape s).toList := fun hmem => (mem_escape hmem).1 rfl
  have hquote : '"' ∉ (escape s).toList := fun hmem => (mem_escape hmem).2.2 rfl
  refine ⟨fun c => mem_escape, decode_escape_append s t, decode_escape s, fun front hfront => ?_, settled_escape s,
    fun hne rest => scans_text (mt escape_eq_empty_iff.mp hne) hopen, fun rest => scans_value hquote⟩
  rw [String.append_assoc, decode_append_of_settled hfront, decode_escape_append, String.append_assoc]

/-- A text that looks like an entity and its tag, between an entity and the end of another one. -/
theorem escape_lookalike : Settled "&lt;".toList ∧ "&amp;<b x=\"" ≠ "" ∧
    (∀ c ∈ "&amp;amp;&lt;b x=&quot;".toList, c ≠ '<' ∧ c ≠ '>' ∧ c ≠ '"') ∧
    decode "&lt;&amp;amp;&lt;b x=&quot;gt;" = "<&amp;<b x=\"gt;" := by
  have hescape : escape "&amp;<b x=\"" = "&amp;amp;&lt;b x=&quot;" := by decide +kernel
  have hfront : Settled "&lt;".toList := by
    have hlt : "&lt;" = escape "<" := by decide +kernel
    exact hlt ▸ settled_escape "<"
  obtain ⟨hmem, -, -, hcontext, -⟩ := escape_in_any_context "&amp;<b x=\"" "gt;"
  rw [hescape] at hmem
  have hdecode := hcontext "&lt;" hfront
  rw [hescape] at hdecode
  refine ⟨hfront, by decide, hmem, hdecode.trans ?_⟩
  have hlt : decode "&lt;" = "<" := decode_escape "<"
  have hgt : decode "gt;" = "gt;" := by decide +kernel
  rw [hlt, hgt]
  rfl

end

end TestSelection.Markup
