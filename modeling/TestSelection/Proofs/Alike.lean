import TestSelection.Proofs.Meaning

/-! Filter text that means the same. Two elements are alike if they differ in nothing but their places and the white space
    in their texts; the text of a criterion without children is the same in both. Tokens with the same lexemes, wherever
    they stand, take alike assemblies to alike ones (`Alike.run`), and so does a text with more white space outside
    criteria (`Alike.text`). Main statement: alike elements stand for the same selection (`RootMeans.of_alike`). -/

namespace TestSelection.Markup

/-- The name of an element is that of a criterion. -/
def IsCriterionName (name : String) : Prop := ∃ k : Kind, k.isCriterion = true ∧ name = k.tag

/-- The texts of two elements of one name, as far as it matters what they are. -/
structure TextAlike (name : String) (childless : Prop) (text text' : String) : Prop where
  blank : Text.blank text' = Text.blank text
  eq_of_criterion : IsCriterionName name → childless → text' = text

inductive Element.Alike : Element → Element → Prop where
  | mk {e e' : Element} (name : e'.name = e.name) (attributes : e'.attributes = e.attributes)
      (children : List.Forall₂ Alike e.children e'.children) (text : TextAlike e.name (e.children = []) e.text e'.text) :
      Alike e e'

structure OpenElement.Alike (c c' : OpenElement) : Prop where
  name : c'.name = c.name
  attributes : c'.attributes = c.attributes
  earlier : List.Forall₂ Element.Alike c.earlier c'.earlier
  text : TextAlike c.name (c.earlier = []) c.text c'.text

inductive TagStage.Alike : TagStage → TagStage → Prop where
  | attrOrEnd : Alike .attrOrEnd .attrOrEnd
  | equals (attr : String) (span span' : Span) : Alike (.equals attr span) (.equals attr span')
  | value (attr : String) (span span' : Span) : Alike (.value attr span) (.value attr span')

namespace Assembly

inductive Alike : Assembly → Assembly → Prop where
  | beforeRoot : Alike beforeRoot beforeRoot
  | inTag {c c' : OpenElement} {around around' : List OpenElement} {stage stage' : TagStage} (hc : c.Alike c')
      (haround : List.Forall₂ OpenElement.Alike around around') (hstage : stage.Alike stage') :
      Alike (inTag c around stage) (inTag c' around' stage')
  | inContent {c c' : OpenElement} {around around' : List OpenElement} (hc : c.Alike c')
      (haround : List.Forall₂ OpenElement.Alike around around') : Alike (inContent c around) (inContent c' around')
  | afterRoot {e e' : Element} (he : e.Alike e') : Alike (afterRoot e) (afterRoot e')

end Assembly

section
variable {a a' b : Assembly} {c c' : OpenElement} {around around' : List OpenElement} {e e' : Element} {t t' : Token}
  {ts ts' : List Token} {name raw raw' more more' attr : String} {span span' : Span}

/-! ### Elements -/

theorem TextAlike.refl {childless : Prop} {s : String} : TextAlike name childless s s := ⟨rfl, fun _ _ => rfl⟩

theorem TextAlike.congr {childless childless' : Prop} {s s' : String} (h : TextAlike name childless s s') (hchildless : childless' → childless) :
    TextAlike name childless' s s' :=
  ⟨h.blank, fun hname hnone => h.eq_of_criterion hname (hchildless hnone)⟩

theorem OpenElement.Alike.opened : OpenElement.Alike { name, span } { name, span := span' } :=
  ⟨rfl, rfl, .nil, .refl⟩

theorem OpenElement.Alike.element (h : c.Alike c') : c.element.Alike c'.element :=
  .mk h.name h.attributes (List.forall₂_reverse_iff.mpr h.earlier) (h.text.congr List.reverse_eq_nil_iff.mp)

theorem OpenElement.Alike.hasAttribute (h : c.Alike c') : c'.hasAttribute attr = c.hasAttribute attr := by
  rw [OpenElement.hasAttribute, h.attributes]
  rfl

theorem OpenElement.Alike.addAttribute (h : c.Alike c') (attr : String × String) :
    OpenElement.Alike { c with attributes := c.attributes ++ [attr] } { c' with attributes := c'.attributes ++ [attr] } where
  name := h.name
  attributes := by rw [h.attributes]
  earlier := h.earlier
  text := h.text

theorem OpenElement.Alike.addText (h : c.Alike c') (hblank : Text.blank more' = Text.blank more)
    (heq : IsCriterionName c.name → c.earlier = [] → more' = more) :
    OpenElement.Alike { c with text := c.text ++ more } { c' with text := c'.text ++ more' } where
  name := h.name
  attributes := h.attributes
  earlier := h.earlier
  text := {
    blank := by rw [Text.blank_append, Text.blank_append, h.text.blank, hblank]
    eq_of_criterion := fun hname hnone => by rw [h.text.eq_of_criterion hname hnone, heq hname hnone] }

/-! ### Steps -/

namespace Assembly

theorem Alike.placed (he : e.Alike e') (haround : List.Forall₂ OpenElement.Alike around around') :
    (placed e around).Alike (placed e' around') := by
  cases haround with
  | nil => exact .afterRoot he
  | cons hparent haround =>
    refine .inContent ⟨hparent.name, hparent.attributes, .cons he hparent.earlier, hparent.text.blank, ?_⟩ haround
    intro _ hnone
    cases hnone

/-- A token takes alike assemblies to alike ones, wherever it stands. -/
theorem Alike.step (h : a.Alike a') (ht : t'.lexeme = t.lexeme) (hs : step a t = .ok b) :
    ∃ b', step a' t' = .ok b' ∧ b.Alike b' := by
  cases h with
  | beforeRoot =>
    rcases step_beforeRoot_inv hs with ⟨name, hname, rfl⟩ | ⟨raw, hraw, hblank, rfl⟩
    · exact ⟨Assembly.inTag { name, span := t'.span } [] .attrOrEnd, by simp [Assembly.step, ht, hname],
        .inTag .opened .nil .attrOrEnd⟩
    · exact ⟨_, by simp [Assembly.step, ht, hraw, hblank], .beforeRoot⟩
  | @inTag c c' around around' stage stage' hc haround hstage =>
    cases hstage with
    | attrOrEnd =>
      rcases step_attrOrEnd_inv hs with ⟨attr, hattr, rfl⟩ | ⟨hclose, rfl⟩ | ⟨hend, rfl⟩
      · exact ⟨Assembly.inTag c' around' (.equals attr t'.span), by simp [Assembly.step, stepInTag, ht, hattr],
          .inTag hc haround (.equals attr _ _)⟩
      · refine ⟨Assembly.placed c'.element around', ?_, .placed hc.element haround⟩
        simp [Assembly.step, stepInTag, ht, hclose, complete_eq_placed]
      · exact ⟨_, by simp [Assembly.step, stepInTag, ht, hend], .inContent hc haround⟩
    | equals attr span span' =>
      obtain ⟨heq, rfl⟩ := step_equals_inv hs
      exact ⟨Assembly.inTag c' around' (.value attr span'), by simp [Assembly.step, stepInTag, ht, heq],
        .inTag hc haround (.value attr _ _)⟩
    | value attr span span' =>
      obtain ⟨raw, hraw, hnew, rfl⟩ := step_value_inv hs
      rw [← hc.hasAttribute] at hnew
      refine ⟨Assembly.inTag { c' with attributes := c'.attributes ++ [(attr, decode raw)] } around' .attrOrEnd, ?_,
        .inTag (hc.addAttribute _) haround .attrOrEnd⟩
      simp [Assembly.step, stepInTag, ht, hraw, hnew]
  | @inContent c c' around around' hc haround =>
    rcases step_inContent_inv hs with ⟨name, hname, hroom, rfl⟩ | ⟨raw, hraw, rfl⟩ | ⟨hclose, rfl⟩
    · rw [haround.length_eq] at hroom
      exact ⟨Assembly.inTag { name, span := t'.span } (c' :: around') .attrOrEnd,
        by simp [Assembly.step, stepInContent, ht, hname, hroom], .inTag .opened (.cons hc haround) .attrOrEnd⟩
    · exact ⟨_, by simp [Assembly.step, stepInContent, ht, hraw], .inContent (hc.addText rfl fun _ _ => rfl) haround⟩
    · refine ⟨Assembly.placed c'.element around', ?_, .placed hc.element haround⟩
      simp [Assembly.step, stepInContent, ht, hclose, hc.name, complete_eq_placed]
  | afterRoot he =>
    obtain ⟨raw, hraw, hblank, rfl⟩ := step_afterRoot_inv hs
    exact ⟨_, by simp [Assembly.step, ht, hraw, hblank], .afterRoot he⟩

/-- Tokens with the same lexemes take alike assemblies to alike ones. -/
theorem Alike.run (h : a.Alike a') (hts : ts'.map Token.lexeme = ts.map Token.lexeme) (hr : run a ts = .ok b) :
    ∃ b', run a' ts' = .ok b' ∧ b.Alike b' := by
  induction ts generalizing a a' ts' with
  | nil =>
    cases hr
    obtain rfl := List.map_eq_nil_iff.mp hts
    exact ⟨a', rfl, h⟩
  | cons t ts ih =>
    obtain ⟨t', ts', rfl, ht, hts⟩ := List.map_eq_cons_iff.mp hts
    obtain ⟨m, hstep, hrun⟩ := run_cons_eq_ok_iff.mp hr
    obtain ⟨m', hstep', hm⟩ := h.step ht hstep
    obtain ⟨b', hrun', hb⟩ := ih hm hts hrun
    exact ⟨b', run_cons_eq_ok_iff.mpr ⟨m', hstep', hrun'⟩, hb⟩

/-- The assembly is in the content of a criterion that has no children so far. -/
def ReadsCriterion (a : Assembly) : Prop :=
  ∃ c around, a = inContent c around ∧ IsCriterionName c.name ∧ c.earlier = []

/-- Outside criteria, a text may have more white space. -/
theorem Alike.text (h : a.Alike a') (ha : ¬a.ReadsCriterion) (ht : t.lexeme = .text raw) (ht' : t'.lexeme = .text raw')
    (hraw : Text.blank raw' = Text.blank raw) (hdecode : Text.blank (decode raw') = Text.blank (decode raw))
    (hs : Assembly.step a t = .ok b) : ∃ b', Assembly.step a' t' = .ok b' ∧ b.Alike b' := by
  cases h with
  | beforeRoot =>
    rcases step_beforeRoot_inv hs with ⟨name, hname, -⟩ | ⟨_, heq, hblank, rfl⟩
    · rw [ht] at hname
      cases hname
    · obtain rfl := Lexeme.text.inj (ht.symm.trans heq)
      exact ⟨_, by simp [Assembly.step, ht', hraw, hblank], .beforeRoot⟩
  | @inTag c c' around around' stage stage' hc haround hstage =>
    cases hstage <;> simp [Assembly.step, stepInTag, ht, refuse] at hs
  | @inContent c c' around around' hc haround =>
    rcases step_inContent_inv hs with ⟨name, hname, -⟩ | ⟨_, heq, rfl⟩ | ⟨hclose, -⟩
    · rw [ht] at hname
      cases hname
    · obtain rfl := Lexeme.text.inj (ht.symm.trans heq)
      refine ⟨_, by simp [Assembly.step, stepInContent, ht'], .inContent (hc.addText hdecode ?_) haround⟩
      exact fun hname hnone => absurd ⟨c, around, rfl, hname, hnone⟩ ha
    · rw [ht] at hclose
      cases hclose
  | afterRoot he =>
    obtain ⟨_, heq, hblank, rfl⟩ := step_afterRoot_inv hs
    obtain rfl := Lexeme.text.inj (ht.symm.trans heq)
    exact ⟨_, by simp [Assembly.step, ht', hraw, hblank], .afterRoot he⟩

end Assembly

end

end TestSelection.Markup

namespace TestSelection.Selection
open Markup

/-! ### Selections -/

section
variable {e e' : Element} {s : Selection} {m : Matcher}

theorem Plain.of_alike (h : Plain e) (he : e.Alike e') : Plain e' := by
  obtain ⟨-, hattributes, -, htext⟩ := he
  exact ⟨hattributes.trans h.attributes, htext.blank.trans h.text⟩

/-- A criterion without children is alike only to one with the same text. -/
theorem same_of_alike (he : e.Alike e') (hname : IsCriterionName e.name) (hnone : e.children = []) :
    e'.children = [] ∧ e'.text = e.text := by
  obtain ⟨-, -, hchildren, htext⟩ := he
  rw [hnone] at hchildren
  exact ⟨List.forall₂_nil_left_iff.mp hchildren, htext.eq_of_criterion hname hnone⟩

theorem Matches.of_alike (h : Matches e m) (hkind : m.kind.isCriterion = true) (he : e.Alike e') : Matches e' m := by
  obtain ⟨hchildren, htext⟩ := same_of_alike he ⟨m.kind, hkind, h.name⟩ h.children
  obtain ⟨hname, hattributes, -, -⟩ := he
  exact ⟨hname.trans h.name, hchildren, htext ▸ h.text, hattributes ▸ h.attributes, h.pattern.trans htext.symm⟩

mutual

/-- Alike elements stand for the same. The recursion is on the children. -/
theorem Means.of_alike : ∀ (e : Element) {e' : Element} {s : Selection}, Means e s → e.Alike e' → Means e' s
  | ⟨name, span, attributes, children, text⟩, e', s, h, he => by
    have ⟨hname', _, hchildren, _⟩ := he
    have hmembers' : ∀ {ss}, List.Forall₂ Means children ss → List.Forall₂ Means e'.children ss := fun hss =>
      means_of_alike children hss hchildren
    cases h with
    | group hname hplain hmembers hne => exact .group (hname'.trans hname) (hplain.of_alike he) (hmembers' hmembers) hne
    | not hname hplain hmembers => exact .not (hname'.trans hname) (hplain.of_alike he) (hmembers' hmembers)
    | ids hname hattributes hnone hne =>
      obtain ⟨hchildren', htext⟩ := same_of_alike he ⟨.ids, rfl, hname⟩ hnone
      obtain ⟨-, hattributes', -, -⟩ := he
      rw [← htext] at hne ⊢
      exact .ids (hname'.trans hname) (hattributes'.trans hattributes) hchildren' hne
    | @pattern _ m subject hkind hm hproperty =>
      have hcriterion : m.kind.isCriterion = true := by rw [hkind]; cases subject <;> rfl
      exact .pattern hkind (hm.of_alike hcriterion he) hproperty
    | @property _ m name hkind hm hproperty hblank =>
      have hcriterion : m.kind.isCriterion = true := by rw [hkind]; rfl
      exact .property hkind (hm.of_alike hcriterion he) hproperty hblank

theorem means_of_alike : ∀ (es : List Element) {es' : List Element} {ss : List Selection}, List.Forall₂ Means es ss →
    List.Forall₂ Element.Alike es es' → List.Forall₂ Means es' ss
  | [], _, _, .nil, .nil => .nil
  | e :: es, _, _, .cons h hs, .cons he hes => .cons (Means.of_alike e h he) (means_of_alike es hs hes)

end

theorem RootMeans.of_alike (h : RootMeans e s) (he : e.Alike e') : RootMeans e' s := by
  obtain ⟨members, hmembers, rfl⟩ := h.members
  have ⟨hname, _, hchildren, _⟩ := he
  exact ⟨hname.trans h.name, h.plain.of_alike he, members, means_of_alike e.children hmembers hchildren, rfl⟩

end

end TestSelection.Selection
