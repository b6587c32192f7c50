import TestSelection.Proofs.Depth

/-! How deep documents are nested, counted on their tokens: each opening tag opens an element, and each closing tag and
    each end of an empty tag closes one. What counts is how many elements are open at most. Main statement: of the
    document of a filter, this is the depth of the filter (`Filter.nesting_document`). -/

namespace TestSelection
open Markup

namespace Markup

/-! ### Counting on tokens -/

/-- How many elements are open behind a lexeme, if `n` are open in front of it. -/
def Lexeme.levelFrom (n : Nat) : Lexeme → Nat
  | openTag _ => n + 1
  | closeTag _ | selfClose => n - 1
  | _ => n

/-- How many elements are open at most, if `n` are open in front of the tokens. -/
def nestingFrom (n : Nat) : List Token → Nat
  | [] => n
  | t :: ts => max n (nestingFrom (t.lexeme.levelFrom n) ts)

section
variable {ts us : List Token} {t : Token} {n : Nat}

theorem le_nestingFrom (n : Nat) (ts : List Token) : n ≤ nestingFrom n ts := by
  cases ts with
  | nil => exact Nat.le_refl n
  | cons t ts => exact Nat.le_max_left _ _

theorem nestingFrom_cons_of_level (h : t.lexeme.levelFrom n = n) : nestingFrom n (t :: ts) = nestingFrom n ts := by
  rw [nestingFrom, h]
  exact Nat.max_eq_right (le_nestingFrom n ts)

theorem nestingFrom_attributes {attributes : List (String × String)} (h : MakeAttributes us attributes) (n : Nat)
    (ts : List Token) : nestingFrom n (us ++ ts) = nestingFrom n ts := by
  induction h with
  | nil => rfl
  | cons _ ih =>
    simp only [List.cons_append]
    rw [nestingFrom_cons_of_level rfl, nestingFrom_cons_of_level rfl, nestingFrom_cons_of_level rfl, ih]

mutual

/-- An element adds its height, and behind it as many elements are open as in front. -/
theorem nestingFrom_element {us : List Token} {e : Element} (h : MakeElement us e) (n : Nat) (rest : List Token) :
    nestingFrom n (us ++ rest) = max (n + e.height) (nestingFrom n rest) := by
  match h with
  | @MakeElement.selfClosed as attributes name span stop has _ =>
    have hrest := le_nestingFrom n rest
    rw [List.cons_append, List.append_assoc, nestingFrom, Lexeme.levelFrom, nestingFrom_attributes has]
    simp only [List.singleton_append, nestingFrom, Lexeme.levelFrom, Nat.add_sub_cancel, Element.height, Element.heightAll]
    omega
  | @MakeElement.enclosing as ts attributes children name text span tagEnd stop has _ hts =>
    have hrest := le_nestingFrom n rest
    have hcontent := nestingFrom_content hts (n + 1) (⟨.closeTag name, stop⟩ :: rest)
    rw [List.cons_append, List.append_assoc, nestingFrom, Lexeme.levelFrom, nestingFrom_attributes has, List.cons_append,
      nestingFrom_cons_of_level rfl, List.append_assoc, List.singleton_append, hcontent]
    simp only [nestingFrom, Lexeme.levelFrom, Nat.add_sub_cancel, Element.height]
    omega

theorem nestingFrom_content {us : List Token} {children : List Element} {text : String} (h : MakeContent us children text)
    (n : Nat) (rest : List Token) :
    nestingFrom n (us ++ rest) = max (n + Element.heightAll children) (nestingFrom n rest) := by
  match h with
  | .nil =>
    have hrest := le_nestingFrom n rest
    simp only [List.nil_append, Element.heightAll]
    omega
  | .text hts =>
    rw [List.cons_append, nestingFrom_cons_of_level rfl, nestingFrom_content hts]
  | .child hus hts =>
    rw [List.append_assoc, nestingFrom_element hus, nestingFrom_content hts, Element.heightAll]
    omega

end

end

end Markup

/-! ### Documents -/

/-- How deep the elements of a document are nested, the root included. -/
def Document.nesting (d : Document) : Nat := nestingFrom 0 (scan d.text)

/-- The document of a filter is nested as deep as the filter says. -/
theorem Filter.nesting_document (f : Filter) : f.document.nesting = f.depth := by
  obtain ⟨span, children, hmake, hchildren⟩ := Document.exists_makeElement f.grouped_items
  have hheight : Element.height ⟨Kind.root.tag, span, [], children, ""⟩ = f.depth := by
    rw [Element.height, Item.heightAll_of_forall₂, f.depth_eq]
    exact Item.forall₂_of_shown (fun m hm => (f.grouped_items m hm).height_eq) hchildren
  have hnesting := nestingFrom_element hmake 0 []
  rw [List.append_nil, hheight] at hnesting
  rw [document, f.body_eq_nestedText, f.nestedText_eq, Document.nesting, hnesting]
  simp [nestingFrom]

end TestSelection
