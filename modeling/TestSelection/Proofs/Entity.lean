import TestSelection.Markup.Entity
import TestSelection.Proofs.Lexemes

/-! Escaping and decoding. What a character is escaped to is decoded to the character again, whatever
    follows, so an escaped text is decoded to itself in front of any other text (`decode_escape_append`). It
    has none of the characters that end a text between tags or a value in quotes (`mem_escape`). -/

namespace TestSelection.Markup

section
variable {c d : Char} {cs rest : List Char} {s t : String}

theorem decodeChars_cons_of_ne (h : c ≠ '&') : decodeChars (c :: cs) = c :: decodeChars cs := by
  rw [decodeChars, if_neg h]

theorem decodeChars_cons_of_reference (h : reference? cs = some (c, rest)) :
    decodeChars ('&' :: cs) = c :: decodeChars rest := by
  rw [decodeChars, if_pos rfl]
  split
  · rename_i heq
    rw [h] at heq
    cases heq
    rfl
  · rename_i heq
    rw [h] at heq
    cases heq

theorem decodeChars_cons_of_no_reference (h : reference? cs = none) : decodeChars ('&' :: cs) = '&' :: decodeChars cs := by
  rw [decodeChars, if_pos rfl]
  split
  · rename_i heq
    rw [h] at heq
    cases heq
  · rfl

theorem reference?_append (h : ';' ∉ cs) : reference? (cs ++ ';' :: rest) = (entity? cs).map (·, rest) := by
  obtain ⟨htake, hdrop⟩ := takeWhile_append_cons (all_ne h) (c := ';') (by decide) rest
  rw [reference?, htake, hdrop]

/-- A character is kept, or written as the entity that stands for it. -/
theorem escapeChar_cases (c : Char) :
    (escapeChar c = [c] ∧ c ≠ '&' ∧ c ≠ '<' ∧ c ≠ '>' ∧ c ≠ '"') ∨
      ∃ name, escapeChar c = '&' :: (name ++ [';']) ∧ entity? name = some c ∧ name.all Char.isAlpha = true := by
  by_cases hamp : c = '&'
  · exact Or.inr ⟨"amp".toList, by simp [escapeChar, hamp], hamp ▸ rfl, by decide⟩
  by_cases hlt : c = '<'
  · exact Or.inr ⟨"lt".toList, by simp [escapeChar, hlt], hlt ▸ rfl, by decide⟩
  by_cases hgt : c = '>'
  · exact Or.inr ⟨"gt".toList, by simp [escapeChar, hgt], hgt ▸ rfl, by decide⟩
  by_cases hquot : c = '"'
  · exact Or.inr ⟨"quot".toList, by simp [escapeChar, hquot], hquot ▸ rfl, by decide⟩
  · exact Or.inl ⟨by simp [escapeChar, hamp, hlt, hgt, hquot], hamp, hlt, hgt, hquot⟩

theorem decodeChars_escapeChar_append (c : Char) (rest : List Char) :
    decodeChars (escapeChar c ++ rest) = c :: decodeChars rest := by
  rcases escapeChar_cases c with ⟨h, hamp, -⟩ | ⟨name, h, hc, halpha⟩ <;> rw [h]
  · exact decodeChars_cons_of_ne hamp
  · have hname : ';' ∉ name := fun hmem => absurd (List.all_eq_true.mp halpha _ hmem) (by decide)
    rw [List.cons_append, List.append_assoc, List.singleton_append]
    exact decodeChars_cons_of_reference (by rw [reference?_append hname, hc]; rfl)

theorem decodeChars_flatMap_append (cs rest : List Char) :
    decodeChars (cs.flatMap escapeChar ++ rest) = cs ++ decodeChars rest := by
  induction cs with
  | nil => rfl
  | cons c cs ih => rw [List.flatMap_cons, List.append_assoc, decodeChars_escapeChar_append, ih, List.cons_append]

/-- An escaped text is decoded to itself, and what follows is decoded on its own. -/
theorem decode_escape_append (s t : String) : decode (escape s ++ t) = s ++ decode t := by
  simp [decode, escape, decodeChars_flatMap_append, String.ofList_append]

theorem decode_empty : decode "" = "" := by
  simp [decode, decodeChars]

@[simp] theorem decode_escape (s : String) : decode (escape s) = s := by
  have := decode_escape_append s ""
  simpa [decode_empty] using this

theorem mem_escapeChar (h : d ∈ escapeChar c) : d ≠ '<' ∧ d ≠ '>' ∧ d ≠ '"' := by
  rcases escapeChar_cases c with ⟨hc, -, hkept⟩ | ⟨name, hc, -, halpha⟩ <;> rw [hc] at h
  · exact List.mem_singleton.mp h ▸ hkept
  · rw [List.mem_cons, List.mem_append, List.mem_singleton] at h
    rcases h with rfl | h | rfl
    · decide
    · refine ⟨?_, ?_, ?_⟩ <;> rintro rfl <;> exact absurd (List.all_eq_true.mp halpha _ h) (by decide)
    · decide

/-- An escaped text has no angle brackets and no quotes. -/
theorem mem_escape (h : d ∈ (escape s).toList) : d ≠ '<' ∧ d ≠ '>' ∧ d ≠ '"' := by
  rw [escape, String.toList_ofList, List.mem_flatMap] at h
  obtain ⟨c, -, hd⟩ := h
  exact mem_escapeChar hd

theorem escape_eq_empty_iff : escape s = "" ↔ s = "" := by
  constructor
  · intro h
    rw [← decode_escape s, h, decode_empty]
  · rintro rfl
    rfl

/-! ### Texts around entities -/

theorem decodeChars_append_left (h : '&' ∉ cs) (rest : List Char) : decodeChars (cs ++ rest) = cs ++ decodeChars rest := by
  induction cs with
  | nil => rfl
  | cons c cs ih =>
    rw [List.mem_cons, not_or] at h
    obtain ⟨hc, hcs⟩ := h
    rw [List.cons_append, decodeChars_cons_of_ne (Ne.symm hc), ih hcs, List.cons_append]

theorem reference?_eq_none (h : ';' ∉ cs) : reference? cs = none := by
  rw [reference?, dropWhile_eq_nil (all_ne h)]

theorem reference?_append_of_mem (h : ';' ∈ cs) (rest : List Char) :
    reference? (cs ++ rest) = (reference? cs).map fun p => (p.1, p.2 ++ rest) := by
  obtain ⟨name, after, rfl, hname⟩ := List.eq_append_cons_of_mem h
  rw [List.append_assoc, List.cons_append, reference?_append hname, reference?_append hname, Option.map_map]
  rfl

theorem reference?_append_right (h : ';' ∉ rest) :
    reference? (cs ++ rest) = (reference? cs).map fun p => (p.1, p.2 ++ rest) := by
  by_cases hcs : ';' ∈ cs
  · exact reference?_append_of_mem hcs rest
  · have hnone : ';' ∉ cs ++ rest := by simp [hcs, h]
    rw [reference?_eq_none hcs, reference?_eq_none hnone]
    rfl

/-- A text that neither starts nor ends an entity is decoded to itself behind any other text. -/
theorem decodeChars_append_right (hamp : '&' ∉ rest) (hend : ';' ∉ rest) (cs : List Char) :
    decodeChars (cs ++ rest) = decodeChars cs ++ rest := by
  fun_induction decodeChars cs with
  | case1 =>
    have := decodeChars_append_left hamp []
    simpa [decodeChars] using this
  | case2 cs e after h _ ih =>
    have hafter : reference? (cs ++ rest) = some (e, after ++ rest) := by
      rw [reference?_append_right hend, h]
      rfl
    rw [List.cons_append, decodeChars_cons_of_reference hafter, ih, List.cons_append]
  | case3 cs h ih =>
    have hnone : reference? (cs ++ rest) = none := by
      rw [reference?_append_right hend, h]
      rfl
    rw [List.cons_append, decodeChars_cons_of_no_reference hnone, ih, List.cons_append]
  | case4 c cs hc ih => rw [List.cons_append, decodeChars_cons_of_ne hc, ih, List.cons_append]

/-- White space around a text makes no difference to whether it is blank, decoded or not. -/
theorem blank_decode_append (h : Text.blank s = true) (t : String) :
    Text.blank (decode (s ++ t)) = Text.blank (decode t) ∧ Text.blank (decode (t ++ s)) = Text.blank (decode t) := by
  have hnot : ∀ c ∈ s.toList, c ≠ '&' ∧ c ≠ ';' := by
    intro c hc
    have hblank := List.all_eq_true.mp h c hc
    refine ⟨?_, ?_⟩ <;> rintro rfl <;> exact absurd hblank (by decide)
  have hamp : '&' ∉ s.toList := fun hmem => (hnot _ hmem).1 rfl
  have hend : ';' ∉ s.toList := fun hmem => (hnot _ hmem).2 rfl
  have hs : s.toList.all Text.isBlank = true := h
  refine ⟨?_, ?_⟩
  · simp [Text.blank, decode, decodeChars_append_left hamp, hs]
  · simp [Text.blank, decode, decodeChars_append_right hamp hend, hs]

end

end TestSelection.Markup
