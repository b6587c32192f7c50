import TestSelection.Document
import TestSelection.Proofs.Grammar
import TestSelection.Proofs.Lossless

/-! Where filter text is refused. Whatever is refused has a place: a token, or an element, which keeps the span of its
    opening tag (`Element.SpansIn`). Only at the end of the tokens there is none. So an error is at the span of a token,
    unless the tokens end before their root does; and then it would be at a further token, if that is illegal
    (`Selection.error_place`). -/

namespace TestSelection.Markup

/-- Nothing fails but at places of a certain kind. -/
def FailsAt (P : Span → Prop) {α : Type} (r : Except ParseError α) : Prop :=
  ∀ e, r = .error e → ∃ span, e.span = some span ∧ P span

/-- The element and all elements inside of it have spans of a certain kind. -/
inductive Element.SpansIn (P : Span → Prop) : Element → Prop where
  | mk {e : Element} (hspan : P e.span) (hchildren : ∀ c ∈ e.children, SpansIn P c) : SpansIn P e

structure OpenElement.SpansIn (P : Span → Prop) (e : OpenElement) : Prop where
  span : P e.span
  earlier : ∀ c ∈ e.earlier, c.SpansIn P

def TagStage.SpansIn (P : Span → Prop) : TagStage → Prop
  | attrOrEnd => True
  | equals _ span | value _ span => P span

def Assembly.SpansIn (P : Span → Prop) : Assembly → Prop
  | beforeRoot => True
  | inTag current around stage => current.SpansIn P ∧ (∀ e ∈ around, e.SpansIn P) ∧ stage.SpansIn P
  | inContent current around => current.SpansIn P ∧ ∀ e ∈ around, e.SpansIn P
  | afterRoot root => root.SpansIn P

/-- All of the tokens are taken, and the root is not complete then. -/
def EndsEarly (ts : List Token) : Prop := ∃ a, Assembly.run .beforeRoot ts = .ok a ∧ ∀ root, a ≠ .afterRoot root

section
variable {P : Span → Prop} {α β : Type} {r : Except ParseError α} {f : α → Except ParseError β} {place : Span}
  {cause : ParseError.Cause} {e : Element} {current : OpenElement} {around : List OpenElement} {stage : TagStage}
  {a b : Assembly} {t : Token} {ts : List Token}

theorem FailsAt.ok (a : α) : FailsAt P (.ok a : Except ParseError α) := nofun

theorem FailsAt.error (h : P place) : FailsAt P (.error ⟨cause, some place⟩ : Except ParseError α) := by
  rintro e ⟨⟩
  exact ⟨place, rfl, h⟩

theorem FailsAt.bind (hr : FailsAt P r) (hf : ∀ a, r = .ok a → FailsAt P (f a)) : FailsAt P (r >>= f) := by
  cases r with
  | error e =>
    rintro e' ⟨⟩
    exact hr e rfl
  | ok a => exact hf a rfl

theorem Element.SpansIn.span (h : e.SpansIn P) : P e.span := by
  obtain ⟨hspan, -⟩ := h
  exact hspan

theorem Element.SpansIn.children (h : e.SpansIn P) : ∀ c ∈ e.children, c.SpansIn P := by
  obtain ⟨-, hchildren⟩ := h
  exact hchildren

/-! ### Putting elements together -/

theorem OpenElement.SpansIn.element (h : current.SpansIn P) : current.element.SpansIn P :=
  .mk h.span fun c hc => h.earlier c (List.mem_reverse.mp hc)

theorem OpenElement.SpansIn.opened (h : P place) (name : String) : OpenElement.SpansIn P { name, span := place } := ⟨h, nofun⟩

namespace Assembly

theorem SpansIn.placed (he : e.SpansIn P) (haround : ∀ e ∈ around, e.SpansIn P) : (placed e around).SpansIn P := by
  cases around with
  | nil => exact he
  | cons parent around =>
    obtain ⟨hparent, haround⟩ := List.forall_mem_cons.mp haround
    exact ⟨⟨hparent.span, List.forall_mem_cons.mpr ⟨he, hparent.earlier⟩⟩, haround⟩

theorem SpansIn.step (ha : a.SpansIn P) (ht : P t.span) (h : step a t = .ok b) : b.SpansIn P := by
  cases a with
  | beforeRoot =>
    rcases step_beforeRoot_inv h with ⟨name, -, rfl⟩ | ⟨_, -, -, rfl⟩
    · exact ⟨.opened ht name, nofun, trivial⟩
    · trivial
  | inTag current around stage =>
    obtain ⟨hcurrent, haround, hstage⟩ := ha
    cases stage with
    | attrOrEnd =>
      rcases step_attrOrEnd_inv h with ⟨_, -, rfl⟩ | ⟨-, rfl⟩ | ⟨-, rfl⟩
      · exact ⟨hcurrent, haround, ht⟩
      · exact .placed hcurrent.element haround
      · exact ⟨hcurrent, haround⟩
    | equals attr span =>
      obtain ⟨-, rfl⟩ := step_equals_inv h
      exact ⟨hcurrent, haround, hstage⟩
    | value attr span =>
      obtain ⟨_, -, -, rfl⟩ := step_value_inv h
      exact ⟨⟨hcurrent.span, hcurrent.earlier⟩, haround, trivial⟩
  | inContent current around =>
    obtain ⟨hcurrent, haround⟩ := ha
    rcases step_inContent_inv h with ⟨name, -, -, rfl⟩ | ⟨_, -, rfl⟩ | ⟨-, rfl⟩
    · exact ⟨.opened ht name, List.forall_mem_cons.mpr ⟨hcurrent, haround⟩, trivial⟩
    · exact ⟨⟨hcurrent.span, hcurrent.earlier⟩, haround⟩
    · exact .placed hcurrent.element haround
  | afterRoot root =>
    obtain ⟨_, -, -, rfl⟩ := step_afterRoot_inv h
    exact ha

theorem SpansIn.failsAt_step (ha : a.SpansIn P) (ht : P t.span) : FailsAt P (Assembly.step a t) := by
  cases a with
  | beforeRoot =>
    simp only [Assembly.step]
    split
    · exact .ok _
    · split
      · exact .ok _
      · exact .error ht
    · exact .error ht
  | inTag current around stage =>
    cases stage with
    | attrOrEnd =>
      simp only [Assembly.step, stepInTag]
      split
      · exact .ok _
      · exact .ok _
      · exact .ok _
      · exact .error ht
    | equals attr span =>
      simp only [Assembly.step, stepInTag]
      split
      · exact .ok _
      · exact .error ht
    | value attr span =>
      simp only [Assembly.step, stepInTag]
      split
      · split
        -- A second attribute of the same name is refused where its own name stands.
        · exact .error ha.2.2
        · exact .ok _
      · exact .error ht
  | inContent current around =>
    simp only [Assembly.step, stepInContent]
    split
    · split
      · exact .ok _
      · exact .error ht
    · exact .ok _
    · split
      · exact .ok _
      · exact .error ht
    · exact .error ht
  | afterRoot root =>
    simp only [Assembly.step]
    split
    · split
      · exact .ok _
      · exact .error ht
    · exact .error ht

theorem SpansIn.run (ha : a.SpansIn P) (hts : ∀ t ∈ ts, P t.span) (h : run a ts = .ok b) : b.SpansIn P := by
  induction ts generalizing a with
  | nil =>
    cases h
    exact ha
  | cons t ts ih =>
    obtain ⟨ht, hts⟩ := List.forall_mem_cons.mp hts
    obtain ⟨m, hstep, hrun⟩ := run_cons_eq_ok_iff.mp h
    exact ih (ha.step ht hstep) hts hrun

theorem SpansIn.failsAt_run (ha : a.SpansIn P) (hts : ∀ t ∈ ts, P t.span) : FailsAt P (Assembly.run a ts) := by
  induction ts generalizing a with
  | nil => exact .ok a
  | cons t ts ih =>
    obtain ⟨ht, hts⟩ := List.forall_mem_cons.mp hts
    exact (ha.failsAt_step ht).bind fun m hstep => ih (ha.step ht hstep) hts

/-- An illegal token is refused at its own place, whatever came before it. -/
theorem step_illegal (a : Assembly) (span : Span) : ∃ cause, step a ⟨.illegal, span⟩ = .error ⟨cause, some span⟩ := by
  rcases a with _ | ⟨_, _, _ | _ | _⟩ | _ | _ <;> exact ⟨_, rfl⟩

theorem finish_eq_error (h : ∀ root, a ≠ afterRoot root) : ∃ cause, finish a = .error ⟨cause, none⟩ := by
  rcases a with _ | ⟨_, _, _ | _ | _⟩ | _ | root
  · exact ⟨_, rfl⟩
  · exact ⟨_, rfl⟩
  · exact ⟨_, rfl⟩
  · exact ⟨_, rfl⟩
  · exact ⟨_, rfl⟩
  · exact absurd rfl (h root)

end Assembly

end

end TestSelection.Markup

namespace TestSelection.Selection
open Markup

section
variable {P : Span → Prop} {α : Type} {e : Element} {kind : Kind} {m : Matcher} {a : String × String}
  {as : List (String × String)} {children : Except ParseError (List Selection)} {cause : ParseError.Cause}

/-! ### Taking elements for selections -/

theorem failsAt_refuse (he : P e.span) : FailsAt P (refuse e cause : Except ParseError α) := .error he

theorem failsAt_checkNoAttributes (he : P e.span) : FailsAt P (checkNoAttributes e) := by
  unfold checkNoAttributes
  split
  · exact .ok ()
  · exact failsAt_refuse he

theorem failsAt_checkNoText (he : P e.span) : FailsAt P (checkNoText e) := by
  unfold checkNoText
  split
  · exact .ok ()
  · exact failsAt_refuse he

/-- Where there must not be any children, the first one is refused. -/
theorem failsAt_checkNoChildren (he : e.SpansIn P) : FailsAt P (checkNoChildren e) := by
  unfold checkNoChildren
  split
  · exact .ok ()
  · rename_i child _ hcons
    have hchild := he.children child (by rw [hcons]; exact List.mem_cons_self)
    exact failsAt_refuse hchild.span

theorem failsAt_idsOfElement (he : e.SpansIn P) : FailsAt P (idsOfElement e) := by
  refine (failsAt_checkNoAttributes he.span).bind fun _ _ => (failsAt_checkNoChildren he).bind fun _ _ => ?_
  split
  · exact failsAt_refuse he.span
  · exact .ok _

theorem failsAt_addAttribute (he : P e.span) : FailsAt P (addAttribute e m a) := by
  unfold addAttribute
  split
  · split
    · exact .ok _
    · exact failsAt_refuse he
  · split
    · exact .ok _
    · exact failsAt_refuse he

theorem failsAt_foldlM_addAttribute (he : P e.span) : FailsAt P (as.foldlM (addAttribute e) m) := by
  induction as generalizing m with
  | nil => exact .ok m
  | cons a as ih => exact (failsAt_addAttribute he).bind fun _ _ => ih

theorem failsAt_matcherOfElement (he : e.SpansIn P) : FailsAt P (matcherOfElement kind e) := by
  unfold matcherOfElement
  refine (failsAt_checkNoChildren he).bind fun _ _ => ?_
  split
  · exact (failsAt_refuse he.span).bind nofun
  · refine (failsAt_foldlM_addAttribute he.span).bind fun m _ => ?_
    split
    · exact (failsAt_refuse he.span).bind nofun
    · exact .ok _

theorem failsAt_membersOf (he : P e.span) (hchildren : FailsAt P children) : FailsAt P (membersOf e children) :=
  (failsAt_checkNoAttributes he).bind fun _ _ => (failsAt_checkNoText he).bind fun _ _ => hchildren

theorem failsAt_combine (he : e.SpansIn P) (hchildren : FailsAt P children) : FailsAt P (combine e children) := by
  have hmembers : FailsAt P (membersOf e children) := failsAt_membersOf he.span hchildren
  unfold combine
  split
  · exact failsAt_refuse he.span
  · exact failsAt_refuse he.span
  · refine hmembers.bind fun _ _ => ?_
    split
    · exact failsAt_refuse he.span
    · exact .ok _
  · refine hmembers.bind fun _ _ => ?_
    split
    · exact failsAt_refuse he.span
    · exact .ok _
  · refine hmembers.bind fun _ _ => ?_
    split
    · exact .ok _
    · exact failsAt_refuse he.span
  · exact failsAt_idsOfElement he
  · exact failsAt_matcherOfElement he

end

mutual

theorem failsAt_ofElement {P : Span → Prop} (e : Element) (he : e.SpansIn P) : FailsAt P (ofElement e) := by
  match e, he with
  | ⟨name, span, attributes, children, text⟩, he =>
    exact failsAt_combine he (failsAt_ofElements children he.children)

theorem failsAt_ofElements {P : Span → Prop} (es : List Element) (hes : ∀ e ∈ es, e.SpansIn P) :
    FailsAt P (ofElements es) := by
  match es with
  | [] => exact .ok []
  | e :: es =>
    obtain ⟨he, hes⟩ := List.forall_mem_cons.mp hes
    exact (failsAt_ofElement e he).bind fun _ _ => (failsAt_ofElements es hes).bind fun _ _ => .ok _

end

section
variable {P : Span → Prop} {ts : List Token} {e : ParseError} {root : Element} {s : String} {place : Span}

theorem failsAt_ofRoot (hroot : root.SpansIn P) : FailsAt P (ofRoot root) := by
  have hmembers : FailsAt P (membersOf root (ofElements root.children)) :=
    failsAt_membersOf hroot.span (failsAt_ofElements root.children hroot.children)
  unfold ofRoot
  split
  · refine hmembers.bind fun _ _ => ?_
    split
    · exact .ok _
    · exact .ok _
    · exact .ok _
  · exact failsAt_refuse hroot.span

/-! ### Places of errors -/

theorem ofTokens_of_run_error (h : Assembly.run .beforeRoot ts = .error e) : ofTokens ts = .error e := by
  rw [ofTokens, Element.ofTokens_eq, h]
  rfl

theorem ofTokens_of_endsEarly (h : EndsEarly ts) : ∃ cause, ofTokens ts = .error ⟨cause, none⟩ := by
  obtain ⟨a, hrun, ha⟩ := h
  obtain ⟨cause, hfinish⟩ := Assembly.finish_eq_error ha
  refine ⟨cause, ?_⟩
  rw [ofTokens, Element.ofTokens_eq, hrun, Except.bind, hfinish]
  rfl

/-- At an illegal token behind all the others, what is not complete is refused. -/
theorem ofTokens_illegal (h : EndsEarly ts) (place : Span) :
    ∃ cause, ofTokens (ts ++ [⟨.illegal, place⟩]) = .error ⟨cause, some place⟩ := by
  obtain ⟨a, hrun, -⟩ := h
  obtain ⟨cause, hstep⟩ := Assembly.step_illegal a place
  refine ⟨cause, ofTokens_of_run_error ?_⟩
  rw [Assembly.run] at hrun
  rw [Assembly.run, List.foldlM_append, hrun]
  exact Assembly.run_cons_of_error hstep

theorem failsAt_ofTokens (h : ¬EndsEarly ts) : FailsAt (fun place => ∃ t ∈ ts, t.span = place) (ofTokens ts) := by
  have hts : ∀ t ∈ ts, ∃ u ∈ ts, u.span = t.span := fun t ht => ⟨t, ht, rfl⟩
  have hstart : Assembly.SpansIn (fun place => ∃ t ∈ ts, t.span = place) .beforeRoot := trivial
  cases hrun : Assembly.run .beforeRoot ts with
  | error e =>
    rw [ofTokens_of_run_error hrun]
    rintro e' ⟨⟩
    exact hstart.failsAt_run hts e hrun
  | ok a =>
    obtain ⟨root, rfl⟩ : ∃ root, a = .afterRoot root := by
      by_contra hnone
      exact h ⟨a, hrun, fun root ha => hnone ⟨root, ha⟩⟩
    rw [ofTokens, Element.ofTokens_eq, hrun]
    exact failsAt_ofRoot (hstart.run hts hrun)

theorem place_of_error (h : ofTokens ts = .error e) :
    (∀ place, e.span = some place → ∃ t ∈ ts, t.span = place) ∧ (e.span = none ↔ EndsEarly ts) := by
  by_cases hearly : EndsEarly ts
  · obtain ⟨cause, hcause⟩ := ofTokens_of_endsEarly hearly
    rw [h] at hcause
    cases hcause
    exact ⟨nofun, iff_of_true rfl hearly⟩
  · obtain ⟨place, hplace, ht⟩ := failsAt_ofTokens hearly e h
    rw [hplace]
    refine ⟨?_, iff_of_false nofun hearly⟩
    rintro _ ⟨⟩
    exact ht

/-- An error is at the span of a token, or the tokens end before their root is complete. Then there is none, but behind these
    tokens an illegal one would be refused at its own span. In a text, the span of an error cuts out some of its characters. -/
theorem error_place :
    (∀ (ts : List Token) (e : ParseError), ofTokens ts = .error e →
      (∀ place, e.span = some place → ∃ t ∈ ts, t.span = place) ∧ (e.span = none ↔ EndsEarly ts) ∧
        (EndsEarly ts → ∀ place, ∃ cause, ofTokens (ts ++ [⟨.illegal, place⟩]) = .error ⟨cause, some place⟩)) ∧
    ∀ (s : String) (e : ParseError) (place : Span), parse s = .error e → e.span = some place →
      ∃ before slice after, s.toList = before ++ slice ++ after ∧ slice ≠ [] ∧
        place = ⟨Text.width before, Text.width (before ++ slice)⟩ := by
  refine ⟨fun ts e h => ?_, fun s e place h hplace => ?_⟩
  · obtain ⟨hsome, hnone⟩ := place_of_error h
    exact ⟨hsome, hnone, ofTokens_illegal⟩
  · obtain ⟨t, ht, rfl⟩ := (place_of_error h).1 place hplace
    obtain ⟨before, slice, after, hs, hne, hspan, -⟩ := (lossless_scan s).slices t ht
    exact ⟨before, slice, after, hs, hne, hspan⟩

/-- In the middle of an attribute the tokens end without a place, and a closing tag of another name has one, which counts the
    bytes of the name before it. -/
theorem error_place_unclosed :
    (ofTokens [⟨.openTag "cat", ⟨0, 4⟩⟩, ⟨.attrName "re", ⟨5, 7⟩⟩] = .error ⟨.endInsteadOf .equals, none⟩ ∧
      ∃ cause, ofTokens [⟨.openTag "cat", ⟨0, 4⟩⟩, ⟨.attrName "re", ⟨5, 7⟩⟩, ⟨.illegal, ⟨9, 10⟩⟩] = .error ⟨cause, some ⟨9, 10⟩⟩) ∧
    parse "<filter><é></filter>" = .error ⟨.mismatchedClose "é" "filter", some ⟨12, 21⟩⟩ ∧
    ∃ before slice after, "<filter><é></filter>".toList = before ++ slice ++ after ∧ slice ≠ [] ∧
      (⟨12, 21⟩ : Span) = ⟨Text.width before, Text.width (before ++ slice)⟩ := by
  have hends : ofTokens [⟨.openTag "cat", ⟨0, 4⟩⟩, ⟨.attrName "re", ⟨5, 7⟩⟩] = .error ⟨.endInsteadOf .equals, none⟩ := rfl
  have hscan : scan "<filter><é></filter>" = [⟨.openTag "filter", ⟨0, 7⟩⟩, ⟨.tagEnd, ⟨7, 8⟩⟩, ⟨.openTag "é", ⟨8, 11⟩⟩,
      ⟨.tagEnd, ⟨11, 12⟩⟩, ⟨.closeTag "filter", ⟨12, 21⟩⟩] := by
    decide +kernel
  have hparse : parse "<filter><é></filter>" = .error ⟨.mismatchedClose "é" "filter", some ⟨12, 21⟩⟩ := by
    rw [parse, hscan]
    rfl
  obtain ⟨-, hnone, hillegal⟩ := error_place.1 _ _ hends
  exact ⟨⟨hends, hillegal (hnone.mp rfl) ⟨9, 10⟩⟩, hparse, error_place.2 _ _ _ hparse rfl⟩

end

end TestSelection.Selection
