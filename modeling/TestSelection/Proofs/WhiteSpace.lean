import TestSelection.Document
import TestSelection.Proofs.Alike
import TestSelection.Proofs.Spacing

/-! White space between tokens. Main statement: outside the content of criteria, white space between two tokens, or
    around all of them, does not change what filter text is parsed to (`Selection.parse_insert_blanks`).

    Where the place is can be told from the tokens in front of it: they lead to an assembly inside of a tag only if the
    last opening tag has not ended yet (`insideTag_of_run`), and to one that reads the text of a criterion only if the
    content of a criterion has begun (`inCriterion_of_run`). -/

namespace TestSelection.Markup

/-- Behind the tokens, the content of a criterion has begun, and the closing tag of the criterion has not come yet. -/
def InCriterion (ts : List Token) : Prop :=
  ∃ before name span inner stop content, ts = before ++ ⟨.openTag name, span⟩ :: (inner ++ ⟨.tagEnd, stop⟩ :: content) ∧
    IsCriterionName name ∧ (∀ t ∈ inner, ¬t.lexeme.EndsTag) ∧ ∀ t ∈ content, t.lexeme ≠ .closeTag name

section
variable {a b m : Assembly} {c : OpenElement} {around around' : List OpenElement} {stage : TagStage} {e : Element} {t : Token}
  {ts us vs : List Token} {raw raw' ws : String}

theorem InCriterion.concat_text (h : InCriterion us) (ht : t.lexeme = .text raw) : InCriterion (us ++ [t]) := by
  obtain ⟨before, name, span, inner, stop, content, rfl, hname, hinner, hcontent⟩ := h
  refine ⟨before, name, span, inner, stop, content ++ [t], by simp, hname, hinner, ?_⟩
  refine List.forall_mem_append.mpr ⟨hcontent, List.forall_mem_singleton.mpr ?_⟩
  rw [ht]
  nofun

namespace Assembly

/-! ### Runs -/

theorem run_append_eq_ok_iff : run a (ts ++ us) = .ok b ↔ ∃ m, run a ts = .ok m ∧ run m us = .ok b := foldlM_append_eq_ok_iff

theorem run_concat_eq_ok_iff : run a (ts ++ [t]) = .ok b ↔ ∃ m, run a ts = .ok m ∧ step m t = .ok b := by
  have hone : ∀ m, run m [t] = .ok b ↔ step m t = .ok b := by
    intro m
    rw [run_cons_eq_ok_iff]
    constructor
    · rintro ⟨m', hstep, hrun⟩
      cases hrun
      exact hstep
    · exact fun hstep => ⟨b, hstep, rfl⟩
  simp only [run_append_eq_ok_iff, hone]

theorem legal_of_step (h : step a t = .ok b) : t.lexeme ≠ .illegal := by
  intro hillegal
  cases a with
  | inTag c around stage => cases stage <;> simp [step, stepInTag, hillegal, refuse] at h
  | beforeRoot | inContent | afterRoot => simp [step, stepInContent, hillegal, refuse] at h

theorem legal_of_run (h : run a ts = .ok b) : ∀ t ∈ ts, t.lexeme ≠ .illegal := by
  induction ts generalizing a with
  | nil => simp
  | cons t ts ih =>
    obtain ⟨m, hstep, hrun⟩ := run_cons_eq_ok_iff.mp h
    exact List.forall_mem_cons.mpr ⟨legal_of_step hstep, ih hrun⟩

theorem placed_ne_inTag : placed e around ≠ inTag c around' stage := by
  cases around <;> nofun

theorem earlier_ne_nil_of_placed (h : placed e around = inContent c around') : c.earlier ≠ [] := by
  cases around with
  | nil => cases h
  | cons parent around =>
    cases h
    exact List.cons_ne_nil _ _

/-! ### Where a run has come to -/

/-- A step to the inside of a tag starts the tag, or goes on in it. -/
theorem inTag_of_step (h : step a t = .ok (inTag c around stage)) : (t.lexeme = .openTag c.name ∧ c.earlier = []) ∨
    ∃ c' stage', a = inTag c' around stage' ∧ c'.name = c.name ∧ c'.earlier = c.earlier ∧ ¬t.lexeme.EndsTag := by
  cases a with
  | beforeRoot =>
    rcases step_beforeRoot_inv h with ⟨name, ht, heq⟩ | ⟨raw, -, -, heq⟩ <;> cases heq
    exact .inl ⟨ht, rfl⟩
  | inTag c' around' stage' =>
    cases stage' with
    | attrOrEnd =>
      rcases step_attrOrEnd_inv h with ⟨attr, ht, heq⟩ | ⟨-, heq⟩ | ⟨-, heq⟩
      · cases heq
        exact .inr ⟨c, _, rfl, rfl, rfl, by simp [ht, Lexeme.EndsTag]⟩
      · exact absurd heq.symm placed_ne_inTag
      · cases heq
    | equals attr span =>
      obtain ⟨ht, heq⟩ := step_equals_inv h
      cases heq
      exact .inr ⟨c, _, rfl, rfl, rfl, by simp [ht, Lexeme.EndsTag]⟩
    | value attr span =>
      obtain ⟨raw, ht, -, heq⟩ := step_value_inv h
      cases heq
      exact .inr ⟨c', _, rfl, rfl, rfl, by simp [ht, Lexeme.EndsTag]⟩
  | inContent c' around' =>
    rcases step_inContent_inv h with ⟨name, ht, -, heq⟩ | ⟨raw, -, heq⟩ | ⟨-, heq⟩
    · cases heq
      exact .inl ⟨ht, rfl⟩
    · cases heq
    · exact absurd heq.symm placed_ne_inTag
  | afterRoot root =>
    obtain ⟨raw, -, -, heq⟩ := step_afterRoot_inv h
    cases heq

/-- A step to content without children ends the opening tag, or reads a text of the content. -/
theorem inContent_of_step (h : step a t = .ok (inContent c around)) (hnone : c.earlier = []) :
    (t.lexeme = .tagEnd ∧ ∃ stage, a = inTag c around stage) ∨
      ∃ raw c', t.lexeme = .text raw ∧ a = inContent c' around ∧ c'.name = c.name ∧ c'.earlier = [] := by
  cases a with
  | beforeRoot => rcases step_beforeRoot_inv h with ⟨name, -, heq⟩ | ⟨raw, -, -, heq⟩ <;> cases heq
  | inTag c' around' stage =>
    cases stage with
    | attrOrEnd =>
      rcases step_attrOrEnd_inv h with ⟨attr, -, heq⟩ | ⟨-, heq⟩ | ⟨ht, heq⟩
      · cases heq
      · exact absurd hnone (earlier_ne_nil_of_placed heq.symm)
      · cases heq
        exact .inl ⟨ht, _, rfl⟩
    | equals attr span =>
      obtain ⟨-, heq⟩ := step_equals_inv h
      cases heq
    | value attr span =>
      obtain ⟨raw, -, -, heq⟩ := step_value_inv h
      cases heq
  | inContent c' around' =>
    rcases step_inContent_inv h with ⟨name, -, -, heq⟩ | ⟨raw, ht, heq⟩ | ⟨-, heq⟩
    · cases heq
    · cases heq
      exact .inr ⟨raw, c', ht, rfl, rfl, hnone⟩
    · exact absurd hnone (earlier_ne_nil_of_placed heq.symm)
  | afterRoot root =>
    obtain ⟨raw, -, -, heq⟩ := step_afterRoot_inv h
    cases heq

/-- Inside of a tag, the tokens end with the start of the tag, and there are no children yet. -/
theorem opening_of_run (h : run beforeRoot us = .ok (inTag c around stage)) : c.earlier = [] ∧
    ∃ before span inner, us = before ++ ⟨.openTag c.name, span⟩ :: inner ∧ ∀ t ∈ inner, ¬t.lexeme.EndsTag := by
  induction us using List.reverseRecOn generalizing c stage with
  | nil => cases h
  | append_singleton us t ih =>
    obtain ⟨m, hrun, hstep⟩ := run_concat_eq_ok_iff.mp h
    rcases inTag_of_step hstep with ⟨ht, hnone⟩ | ⟨c', stage', rfl, hname, hearlier, ht⟩
    · obtain ⟨lexeme, span⟩ := t
      obtain rfl : lexeme = .openTag c.name := ht
      exact ⟨hnone, us, span, [], rfl, by simp⟩
    · obtain ⟨hnone, before, span, inner, rfl, hinner⟩ := ih hrun
      refine ⟨hearlier ▸ hnone, before, span, inner ++ [t], by simp [hname], ?_⟩
      exact List.forall_mem_append.mpr ⟨hinner, List.forall_mem_singleton.mpr ht⟩

theorem insideTag_of_run (h : run beforeRoot us = .ok (inTag c around stage)) : InsideTag us := by
  obtain ⟨-, before, span, inner, rfl, hinner⟩ := opening_of_run h
  exact ⟨before, c.name, span, inner, rfl, hinner⟩

theorem inCriterion_of_run (h : run beforeRoot us = .ok a) (ha : a.ReadsCriterion) : InCriterion us := by
  obtain ⟨c, around, rfl, hname, hnone⟩ := ha
  induction us using List.reverseRecOn generalizing c with
  | nil => cases h
  | append_singleton us t ih =>
    obtain ⟨m, hrun, hstep⟩ := run_concat_eq_ok_iff.mp h
    rcases inContent_of_step hstep hnone with ⟨ht, stage, rfl⟩ | ⟨raw, c', hraw, rfl, hname', hnone'⟩
    · obtain ⟨-, before, span, inner, rfl, hinner⟩ := opening_of_run hrun
      obtain ⟨lexeme, stop⟩ := t
      obtain rfl : lexeme = .tagEnd := ht
      exact ⟨before, c.name, span, inner, stop, [], by simp, hname, hinner, by simp⟩
    · exact (ih c' hrun (hname' ▸ hname) hnone').concat_text hraw

/-! ### White space set in -/

/-- A text in place of another one, where more white space makes no difference, leads to an alike root. -/
theorem alike_of_text (hus : run beforeRoot us = .ok a) (ha : ¬a.ReadsCriterion) (ht : t.lexeme = .text raw)
    (hstep : step a t = .ok b) (hvs : run b vs = .ok (afterRoot e)) (hraw : Text.blank raw' = Text.blank raw)
    (hdecode : Text.blank (decode raw') = Text.blank (decode raw))
    (hts : ts.map Token.lexeme = us.map Token.lexeme ++ .text raw' :: vs.map Token.lexeme) :
    ∃ e', run beforeRoot ts = .ok (afterRoot e') ∧ e.Alike e' := by
  obtain ⟨us', rest, rfl, hus', hrest⟩ := List.map_eq_append_iff.mp hts
  obtain ⟨t', vs', rfl, ht', hvs'⟩ := List.map_eq_cons_iff.mp hrest
  obtain ⟨a', ha', hlike⟩ := Alike.beforeRoot.run hus' hus
  obtain ⟨b', hb', hlike⟩ := hlike.text ha ht ht' hraw hdecode hstep
  obtain ⟨root, hroot, hlike⟩ := hlike.run hvs' hvs
  cases hlike with
  | afterRoot he =>
    exact ⟨_, run_append_eq_ok_iff.mpr ⟨a', ha', run_cons_eq_ok_iff.mpr ⟨b', hb', hroot⟩⟩, he⟩

/-- An empty text says nothing between tags. -/
theorem step_empty (ha : ∀ c around stage, a ≠ inTag c around stage) (span : Span) : step a ⟨.text "", span⟩ = .ok a := by
  cases a with
  | beforeRoot | afterRoot => rfl
  | inTag c around stage => exact absurd rfl (ha c around stage)
  | inContent c around => simp [step, stepInContent, decode_empty]

theorem alike_of_spacedOut (hrun : run beforeRoot (us ++ vs) = .ok (afterRoot e)) (hplace : ¬InCriterion us)
    (hws : Text.blank ws = true)
    (hts : SpacedOut ws (Mode.between.behind us) (us.map Token.lexeme) (vs.map Token.lexeme) (ts.map Token.lexeme)) :
    ∃ e', run beforeRoot ts = .ok (afterRoot e') ∧ e.Alike e' := by
  generalize hmode : Mode.between.behind us = mode at hts
  generalize has : us.map Token.lexeme = as at hts
  generalize hbs : vs.map Token.lexeme = bs at hts
  generalize hls : ts.map Token.lexeme = ls at hts
  obtain ⟨a, hus, hvs⟩ := run_append_eq_ok_iff.mp hrun
  cases hts with
  | inTag =>
    have hsame : ts.map Token.lexeme = (us ++ vs).map Token.lexeme := by rw [hls, List.map_append, has, hbs]
    obtain ⟨root, hroot, hlike⟩ := Alike.beforeRoot.run hsame hrun
    cases hlike with
    | afterRoot he => exact ⟨_, hroot, he⟩
  | apart =>
    have hbetween : ∀ c around stage, a ≠ inTag c around stage := by
      rintro c around stage rfl
      rw [insideTag_iff.mp (insideTag_of_run hus)] at hmode
      cases hmode
    refine alike_of_text hus (fun ha => hplace (inCriterion_of_run hus ha)) rfl (step_empty hbetween ⟨0, 0⟩) hvs hws ?_ ?_
    · simpa [decode_empty] using (blank_decode_append hws "").1
    · rw [hls, has, hbs]
  | behind as bs raw =>
    obtain ⟨us, rest, rfl, has', hrest⟩ := List.map_eq_append_iff.mp has
    obtain ⟨t, rfl, ht⟩ := List.map_eq_singleton_iff.mp hrest
    obtain ⟨m, hm, hstep⟩ := run_concat_eq_ok_iff.mp hus
    refine alike_of_text hm (fun ha => hplace ((inCriterion_of_run hm ha).concat_text ht)) ht hstep hvs ?_
      (blank_decode_append hws raw).2 ?_
    · rw [Text.blank_append, hws, Bool.and_true]
    · rw [hls, has', hbs]
  | before as bs raw =>
    obtain ⟨t, vs, rfl, ht, hbs'⟩ := List.map_eq_cons_iff.mp hbs
    obtain ⟨b, hstep, hvs⟩ := run_cons_eq_ok_iff.mp hvs
    refine alike_of_text hus (fun ha => hplace (inCriterion_of_run hus ha)) ht hstep hvs ?_ (blank_decode_append hws raw).1 ?_
    · rw [Text.blank_append, hws, Bool.true_and]
    · rw [hls, has, hbs']

end Assembly

end

end TestSelection.Markup

namespace TestSelection.Selection
open Markup

theorem ofTokens_eq_ok_iff_run {ts : List Token} {s : Selection} :
    ofTokens ts = .ok s ↔ ∃ e, Assembly.run .beforeRoot ts = .ok (.afterRoot e) ∧ RootMeans e s := by
  rw [ofTokens, bind_eq_ok_iff]
  refine exists_congr fun e => ?_
  rw [← Element.ofTokens_eq_ok_iff_run]
  refine and_congr_right fun he => ?_
  obtain ⟨_, us, _, -, -, hus, -⟩ := Element.ofTokens_eq_ok_iff.mp he
  exact ofRoot_eq_ok_iff hus

/-- White space makes no difference between two tokens and around all of them, but in the content of a criterion. -/
theorem parse_insert_blanks {front back ws : String} {us vs : List Token} {s : Selection}
    (hparse : parse (front ++ back) = .ok s) (hscan : scan (front ++ back) = us ++ vs)
    (hus : ∀ u ∈ us, u.span.stop ≤ Text.width front.toList) (hvs : ∀ v ∈ vs, Text.width front.toList ≤ v.span.start)
    (hplace : ¬InCriterion us) (hws : Text.blank ws = true) : parse (front ++ ws ++ back) = .ok s := by
  by_cases hne : ws = ""
  · rwa [hne, String.append_empty]
  · rw [parse, hscan] at hparse
    obtain ⟨e, hrun, hmeans⟩ := ofTokens_eq_ok_iff_run.mp hparse
    rw [scan, String.toList_append] at hscan
    have hspaced := spacedOut_of_scanFrom hws hne hscan (Assembly.legal_of_run hrun) (by simpa using hus) (by simpa using hvs)
    have htext : front.toList ++ ws.toList ++ back.toList = (front ++ ws ++ back).toList := by simp
    rw [htext] at hspaced
    obtain ⟨e', hrun', he⟩ := Assembly.alike_of_spacedOut hrun hplace hws hspaced
    exact ofTokens_eq_ok_iff_run.mpr ⟨e', hrun', hmeans.of_alike he⟩

/-- Behind a text that is only decoded to white space, there may be more of it. -/
theorem parse_insert_blanks_entity : ∃ us vs, ¬InCriterion us ∧
    scan ("<filter>&#32;" ++ "<cat re=\"1\">x</cat></filter>") = us ++ vs ∧
    (∀ u ∈ us, u.span.stop ≤ Text.width "<filter>&#32;".toList) ∧
    (∀ v ∈ vs, Text.width "<filter>&#32;".toList ≤ v.span.start) ∧ Text.blank "\u3000\n" = true ∧
    parse ("<filter>&#32;" ++ "<cat re=\"1\">x</cat></filter>") = .ok (.matching ⟨.category, "x", true, none⟩) ∧
    parse ("<filter>&#32;" ++ "\u3000\n" ++ "<cat re=\"1\">x</cat></filter>") = .ok (.matching ⟨.category, "x", true, none⟩) := by
  have hscan : scan ("<filter>&#32;" ++ "<cat re=\"1\">x</cat></filter>") =
      [⟨.openTag "filter", ⟨0, 7⟩⟩, ⟨.tagEnd, ⟨7, 8⟩⟩, ⟨.text "&#32;", ⟨8, 13⟩⟩] ++
        [⟨.openTag "cat", ⟨13, 17⟩⟩, ⟨.attrName "re", ⟨18, 20⟩⟩, ⟨.equals, ⟨20, 21⟩⟩, ⟨.quotedValue "1", ⟨21, 24⟩⟩,
          ⟨.tagEnd, ⟨24, 25⟩⟩, ⟨.text "x", ⟨25, 26⟩⟩, ⟨.closeTag "cat", ⟨26, 32⟩⟩, ⟨.closeTag "filter", ⟨32, 41⟩⟩] := by
    decide +kernel
  have hparse : parse ("<filter>&#32;" ++ "<cat re=\"1\">x</cat></filter>") = .ok (.matching ⟨.category, "x", true, none⟩) := by
    have hrun : Assembly.run .beforeRoot (scan ("<filter>&#32;" ++ "<cat re=\"1\">x</cat></filter>")) = .ok (.afterRoot
        ⟨"filter", ⟨0, 7⟩, [], [⟨"cat", ⟨13, 17⟩, [("re", decode "1")], [], "" ++ decode "x"⟩], "" ++ decode "&#32;"⟩) := by
      rw [hscan]
      rfl
    have hblank : Text.blank ("" ++ decode "&#32;") = true := by decide +kernel
    have hvalue : decode "1" = "1" := by decide +kernel
    have htext : "" ++ decode "x" = "x" := by decide +kernel
    rw [hvalue, htext] at hrun
    have hkind : Kind.category = Subject.category.kind := rfl
    have hcategory : Means ⟨"cat", ⟨13, 17⟩, [("re", "1")], [], "x"⟩ (.matching ⟨.category, "x", true, none⟩) :=
      .pattern hkind ⟨rfl, rfl, by decide, .refl _, rfl⟩ rfl
    exact ofTokens_eq_ok_iff_run.mpr ⟨_, hrun, rfl, ⟨rfl, hblank⟩, [_], .cons hcategory .nil, rfl⟩
  have hplace : ¬InCriterion [⟨.openTag "filter", ⟨0, 7⟩⟩, ⟨.tagEnd, ⟨7, 8⟩⟩, ⟨.text "&#32;", ⟨8, 13⟩⟩] := by
    rintro ⟨before, name, span, inner, stop, content, htokens, ⟨k, hk, hname⟩, -⟩
    have hmem : (⟨.openTag name, span⟩ : Token) ∈ before ++ ⟨.openTag name, span⟩ :: (inner ++ ⟨.tagEnd, stop⟩ :: content) :=
      List.mem_append_right _ List.mem_cons_self
    rw [← htokens] at hmem
    obtain ⟨rfl, -⟩ : name = "filter" ∧ span = ⟨0, 7⟩ := by simpa using hmem
    obtain rfl : k = .root := Option.some.inj ((Kind.ofTag?_eq_some_iff.mpr hname).symm.trans (by decide))
    cases hk
  refine ⟨_, _, hplace, hscan, ?_, ?_, by decide, hparse, parse_insert_blanks hparse hscan ?_ ?_ hplace (by decide)⟩
  all_goals decide

end TestSelection.Selection
