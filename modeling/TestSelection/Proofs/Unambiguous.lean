import TestSelection.Proofs.Grammar

/-! The grammar is unambiguous: of some tokens, at most one element can be read off the front, whatever stands
    behind it and however deep the nesting is (`MakeElement.unique`). -/

namespace TestSelection.Markup

section
variable {us vs rest rest' : List Token} {t t' : Token} {as bs : List (String × String)} {e : Element}

/-- Attributes end where no further name comes. -/
theorem MakeAttributes.unique (hu : MakeAttributes us as) (hv : MakeAttributes vs bs)
    (ht : ∀ attr, t.lexeme ≠ .attrName attr) (ht' : ∀ attr, t'.lexeme ≠ .attrName attr)
    (h : us ++ t :: rest = vs ++ t' :: rest') : as = bs ∧ t = t' ∧ rest = rest' := by
  induction hu generalizing vs bs with
  | nil =>
    cases hv with
    | nil =>
      cases h
      exact ⟨rfl, rfl, rfl⟩
    | cons =>
      cases h
      exact absurd rfl (ht _)
  | cons _ ih =>
    cases hv with
    | nil =>
      cases h
      exact absurd rfl (ht' _)
    | cons hv =>
      simp only [List.cons_append, List.cons.injEq, Token.mk.injEq, Lexeme.attrName.injEq, Lexeme.quotedValue.injEq] at h
      obtain ⟨⟨rfl, -⟩, -, ⟨rfl, -⟩, h⟩ := h
      obtain ⟨rfl, rfl, rfl⟩ := ih hv h
      exact ⟨rfl, rfl, rfl⟩

theorem MakeElement.exists_cons (h : MakeElement us e) : ∃ ts, us = ⟨.openTag e.name, e.span⟩ :: ts := by
  obtain ⟨ts, hts, -⟩ := Assembly.leads_element h
  exact ⟨ts, hts⟩

end

mutual

theorem MakeElement.unique {us vs rest rest' : List Token} {e f : Element} (hu : MakeElement us e) (hv : MakeElement vs f)
    (h : us ++ rest = vs ++ rest') : e = f ∧ rest = rest' := by
  match hu, hv with
  | .selfClosed has _, .selfClosed hbs _ =>
    simp only [List.cons_append, List.append_assoc, List.cons.injEq, Token.mk.injEq, Lexeme.openTag.injEq] at h
    obtain ⟨⟨rfl, rfl⟩, h⟩ := h
    obtain ⟨rfl, -, rfl⟩ := has.unique hbs (by simp) (by simp) h
    exact ⟨rfl, rfl⟩
  -- What follows the attributes tells an empty tag from an opening one.
  | .selfClosed has _, .enclosing hbs _ _ =>
    simp only [List.cons_append, List.append_assoc, List.cons.injEq] at h
    obtain ⟨-, heq, -⟩ := has.unique hbs (by simp) (by simp) h.2
    cases heq
  | .enclosing has _ _, .selfClosed hbs _ =>
    simp only [List.cons_append, List.append_assoc, List.cons.injEq] at h
    obtain ⟨-, heq, -⟩ := has.unique hbs (by simp) (by simp) h.2
    cases heq
  | .enclosing has _ hts, .enclosing hbs _ hts' =>
    simp only [List.cons_append, List.append_assoc, List.cons.injEq, Token.mk.injEq, Lexeme.openTag.injEq] at h
    obtain ⟨⟨rfl, rfl⟩, h⟩ := h
    obtain ⟨rfl, -, h⟩ := has.unique hbs (by simp) (by simp) h
    obtain ⟨rfl, rfl, -, rfl⟩ := MakeContent.unique hts hts' rfl rfl h
    exact ⟨rfl, rfl⟩

/-- Content ends where a closing tag comes. -/
theorem MakeContent.unique {us vs rest rest' : List Token} {t t' : Token} {closing closing' : String}
    {children children' : List Element} {text text' : String} (hu : MakeContent us children text)
    (hv : MakeContent vs children' text') (ht : t.lexeme = .closeTag closing) (ht' : t'.lexeme = .closeTag closing')
    (h : us ++ t :: rest = vs ++ t' :: rest') : children = children' ∧ text = text' ∧ t = t' ∧ rest = rest' := by
  match hu, hv with
  | .nil, .nil =>
    cases h
    exact ⟨rfl, rfl, rfl, rfl⟩
  | .nil, .text _ =>
    cases h
    cases ht
  | .nil, .child hvs _ =>
    obtain ⟨ts, rfl⟩ := hvs.exists_cons
    cases h
    cases ht
  | .text _, .nil =>
    cases h
    cases ht'
  | .text hts, .text hts' =>
    simp only [List.cons_append, List.cons.injEq, Token.mk.injEq, Lexeme.text.injEq] at h
    obtain ⟨⟨rfl, -⟩, h⟩ := h
    obtain ⟨rfl, rfl, rfl, rfl⟩ := MakeContent.unique hts hts' ht ht' h
    exact ⟨rfl, rfl, rfl, rfl⟩
  | .text _, .child hvs _ =>
    obtain ⟨ts, rfl⟩ := hvs.exists_cons
    simp at h
  | .child hus _, .nil =>
    obtain ⟨ts, rfl⟩ := hus.exists_cons
    cases h
    cases ht'
  | .child hus _, .text _ =>
    obtain ⟨ts, rfl⟩ := hus.exists_cons
    simp at h
  | .child hus hts, .child hvs hts' =>
    rw [List.append_assoc, List.append_assoc] at h
    obtain ⟨rfl, h⟩ := MakeElement.unique hus hvs h
    obtain ⟨rfl, rfl, rfl, rfl⟩ := MakeContent.unique hts hts' ht ht' h
    exact ⟨rfl, rfl, rfl, rfl⟩

end

end TestSelection.Markup
