import TestSelection.Proofs.Depth
import TestSelection.Proofs.Meaning

/-! Parsing undoes compiling. The document of a filter is taken for the grouping of the filter, with each term
    as what it selects, unless it is nested too deep or has an id criterion without an id
    (`Filter.parse_document`). Sequences within sequences, of any shape, are taken for what they are built of as well. -/

namespace TestSelection
open Markup

/-! ### What filters select -/

namespace Criterion

/-- What a criterion selects: its text is the pattern, and ids are told apart. -/
def selection : Criterion → Selection
  | pattern subject text isRegex => .matching { kind := subject.kind, pattern := text.text, isRegex }
  | property name value isRegex =>
    .matching { kind := .property, pattern := value.text, isRegex, property := some name.text }
  | ids joined => .ids (Text.filledPieces joined.text)

/-- An id criterion without an id: there is nothing between its commas. -/
def LacksIds (c : Criterion) : Prop := ∃ joined, c = ids joined ∧ Text.filledPieces joined.text = []

end Criterion

def Term.selection (t : Term) : Selection := if t.negated then .not t.criterion.selection else t.criterion.selection

/-- A last run as a selection; a single member stands for itself. -/
def Run.selection (r : Run Selection) : Selection :=
  match r.connector with
  | none => Selection.together r.members
  | some k => k.selection r.members

/-- What a filter selects, grouped from left to right. -/
def Filter.selection : Filter → Selection
  | everything => .all
  | clause c => (c.run Connector.selection Term.selection).selection

def Filter.terms : Filter → List Term
  | everything => []
  | clause c => c.first :: c.rest.map (·.2)

namespace Item

def selectionUnder (tag : String) (members : List Selection) : Selection :=
  if tag = Kind.or.tag then .or members else .and members

theorem selectionUnder_tag (k : Connector) (members : List Selection) : selectionUnder k.tag members = k.selection members := by
  cases k <;> rfl

def selection : Item → Selection := fold Term.selection selectionUnder

def terms : Item → List Term := fold (fun t => [t]) fun _ => List.flatten

theorem selection_group (k : Connector) (members : List Item) :
    (group k.tag members).selection = k.selection (members.map selection) := by
  rw [selection, fold_group, selectionUnder_tag]

theorem terms_group (tag : String) (members : List Item) : (group tag members).terms = members.flatMap terms := by
  rw [terms, fold_group, List.flatMap_def]

end Item

theorem Filter.selection_eq (f : Filter) : f.selection = Selection.together (f.items.map Item.selection) := by
  cases f with
  | everything => rfl
  | clause c =>
    rw [selection, items, c.run_eq_fold Item.selectionUnder_tag, Run.selection, Run.items]
    rcases hk : c.itemRun.connector with _ | _ | _
    · rfl
    · obtain ⟨a, b, more, hmembers⟩ := c.exists_members_run hk
      rw [← Clause.itemRun] at hmembers
      simp [hmembers, Connector.selection, Selection.together, Item.selection]
    · simp [Connector.group, Selection.together, Item.selection, Item.selectionUnder_tag]

/-- Grouping keeps the terms and their order. -/
theorem Clause.flatten_run (c : Clause) :
    (c.run (fun _ => List.flatten) fun t => [t]).members.flatten = c.first :: c.rest.map (·.2) := by
  obtain ⟨first, rest⟩ := c
  induction rest using List.reverseRecOn with
  | nil => rfl
  | append_singleton rest l ih =>
    rw [run_concat]
    rcases Run.join_cases ((⟨first, rest⟩ : Clause).run (fun _ => List.flatten) fun t => [t]) l.1 [l.2] with
      ⟨-, h⟩ | ⟨_, -, -, h⟩ <;> rw [h] <;> simp [ih]

theorem Filter.terms_eq (f : Filter) : f.items.flatMap Item.terms = f.terms := by
  cases f with
  | everything => rfl
  | clause c =>
    have hrun : c.run (fun _ => List.flatten) (fun t => [t]) = ⟨c.itemRun.connector, c.itemRun.members.map Item.terms⟩ :=
      c.run_eq_fold fun _ _ => rfl
    have hmembers : c.itemRun.members.flatMap Item.terms = c.first :: c.rest.map (·.2) := by
      rw [← c.flatten_run, hrun, List.flatMap_def]
    rw [items, Run.items, terms, ← hmembers]
    split
    · simp [Connector.group, Item.terms_group]
    · rfl

/-! ### What elements are taken for -/

/-- Something is taken for `a`, unless one of the criteria lacks an id: then it is refused for that. -/
def Taken {α : Type} (ts : List Term) (a : α) (r : Except ParseError α) : Prop :=
  ((∀ t ∈ ts, ¬t.criterion.LacksIds) ∧ r = .ok a) ∨
    ((∃ t ∈ ts, t.criterion.LacksIds) ∧ ∃ span, r = .error ⟨.noIds, some span⟩)

section
variable {α β : Type} {ts us : List Term} {a : α} {b : β} {r : Except ParseError α} {c : Criterion} {k : Connector}

theorem Taken.map (h : Taken ts a r) {f : α → Except ParseError β} (hf : f a = .ok b) : Taken ts b (r >>= f) := by
  rcases h with ⟨hids, rfl⟩ | ⟨hlacks, span, rfl⟩
  · exact Or.inl ⟨hids, hf⟩
  · exact Or.inr ⟨hlacks, span, rfl⟩

theorem Criterion.means_element (h : ¬c.LacksIds) (span : Span) : Selection.Means (c.element span) c.selection := by
  rcases c with ⟨subject, text, isRegex⟩ | ⟨name, value, isRegex⟩ | joined
  · refine .pattern rfl ⟨rfl, rfl, text.filled, ?_, rfl⟩ rfl
    simp [Criterion.element, attributeList, Matcher.attributes]
  · exact .property rfl ⟨rfl, rfl, value.filled, List.Perm.refl _, rfl⟩ rfl name.filled
  · exact .ids rfl rfl rfl fun hids => h ⟨joined, rfl, hids⟩

theorem Criterion.ofElement_lacksIds (h : c.LacksIds) (span : Span) :
    Selection.ofElement (c.element span) = .error ⟨.noIds, some span⟩ := by
  obtain ⟨joined, rfl, hids⟩ := h
  have hkind : Selection.ofElement ((ids joined).element span) = Selection.idsOfElement ((ids joined).element span) := rfl
  have htext : Text.filledPieces ((ids joined).element span).text = [] := hids
  rw [hkind, Selection.idsOfElement, htext]
  rfl

theorem Criterion.taken_element (c : Criterion) (negated : Bool) (span : Span) :
    Taken [⟨c, negated⟩] c.selection (Selection.ofElement (c.element span)) := by
  by_cases h : c.LacksIds
  · exact Or.inr ⟨⟨_, List.mem_singleton_self _, h⟩, span, ofElement_lacksIds h span⟩
  · have hnone : ∀ members, List.Forall₂ Selection.Means [] members → (.ok [] : Except ParseError _) = .ok members :=
      fun members hm => by cases hm; rfl
    exact Or.inl ⟨List.forall_mem_singleton.mpr h,
      Selection.combine_of_means c.nodup_attributeList hnone (means_element h span)⟩

theorem Item.taken_members {members : List Item} {children : List Element}
    (h : List.Forall₂ (fun m e => Taken m.terms m.selection (Selection.ofElement e)) members children) :
    Taken (members.flatMap terms) (members.map selection) (Selection.ofElements children) := by
  induction h with
  | nil => exact Or.inl ⟨by simp, rfl⟩
  | cons he _ ih =>
    simp only [List.flatMap_cons, List.map_cons, Selection.ofElements]
    rcases he with ⟨hids, he⟩ | ⟨⟨t, ht, hlacks⟩, span, he⟩ <;> rw [he]
    · rcases ih with ⟨hmore, ih⟩ | ⟨⟨t, ht, hlacks⟩, span, ih⟩ <;> rw [ih]
      · exact Or.inl ⟨List.forall_mem_append.mpr ⟨hids, hmore⟩, rfl⟩
      · exact Or.inr ⟨⟨t, List.mem_append_right _ ht, hlacks⟩, span, rfl⟩
    · exact Or.inr ⟨⟨t, List.mem_append_left _ ht, hlacks⟩, span, rfl⟩

theorem Selection.ofElements_singleton (e : Element) : ofElements [e] = ofElement e >>= fun s => .ok [s] := by
  cases h : ofElement e <;> simp [ofElements, h, bind, Except.bind, pure, Except.pure]

/-- An element that shows an item is taken for what the item selects. -/
theorem Item.Grouped.taken {item : Item} (h : item.Grouped) :
    ∀ e, item.Shown e → Taken item.terms item.selection (Selection.ofElement e) := by
  induction h with
  | term t =>
    rintro e (⟨c, span⟩ | ⟨c, outer, span⟩)
    · exact c.taken_element false span
    · have hnot : Selection.ofElement ⟨Kind.not.tag, outer, [], [c.element span], ""⟩ =
          Selection.ofElement (c.element span) >>= fun s => .ok (.not s) := by
        rw [Selection.ofElement, Selection.combine_not rfl, Selection.membersOf_of_plain ⟨rfl, rfl⟩,
          Selection.ofElements_singleton]
        cases Selection.ofElement (c.element span) <;> rfl
      rw [hnot]
      exact (c.taken_element true span).map rfl
  | @group k members hne _ ih =>
    rintro e (_ | _ | @⟨_, span, _, children, hchildren⟩)
    rw [terms_group, selection_group, Selection.ofElement, Selection.combine_group k rfl,
      Selection.membersOf_of_plain ⟨rfl, rfl⟩]
    refine (taken_members (forall₂_of_shown ih hchildren)).map ?_
    obtain ⟨m, ms, rfl⟩ := List.exists_cons_of_ne_nil hne
    rfl

end

/-! ### Whole documents -/

theorem Document.parse_items {items : List Item} (h : ∀ item ∈ items, item.Grouped) :
    (maxNesting < highest (items.map Item.height) + 1 ∧
      ∃ span, (ofBody (String.join (items.map Item.tagged))).parse = .error ⟨.tooDeep, some span⟩) ∨
    (highest (items.map Item.height) + 1 ≤ maxNesting ∧
      Taken (items.flatMap Item.terms) (Selection.together (items.map Item.selection))
        (ofBody (String.join (items.map Item.tagged))).parse) := by
  obtain ⟨span, children, hmake, hchildren⟩ := exists_makeElement h
  have hheight : Element.height ⟨Kind.root.tag, span, [], children, ""⟩ = highest (items.map Item.height) + 1 := by
    rw [Element.height, Item.heightAll_of_forall₂]
    exact Item.forall₂_of_shown (fun m hm => (h m hm).height_eq) hchildren
  rcases Nat.lt_or_ge maxNesting (highest (items.map Item.height) + 1) with hdeep | hfit
  · rw [← hheight] at hdeep
    obtain ⟨s, hs⟩ := Element.ofTokens_of_tooDeep hmake hdeep
    refine Or.inl ⟨hheight ▸ hdeep, s, ?_⟩
    rw [parse, Selection.parse, Selection.ofTokens, hs]
    rfl
  · rw [← hheight] at hfit
    refine Or.inr ⟨hheight ▸ hfit, ?_⟩
    have hroot : Selection.ofRoot ⟨Kind.root.tag, span, [], children, ""⟩ =
        Selection.ofElements children >>= fun members => .ok (Selection.together members) := by
      rw [Selection.ofRoot_eq rfl, Selection.membersOf_of_plain ⟨rfl, rfl⟩]
    have hparse : (ofBody (String.join (items.map Item.tagged))).parse =
        Selection.ofRoot ⟨Kind.root.tag, span, [], children, ""⟩ := by
      rw [parse, Selection.parse, Selection.ofTokens, Element.ofTokens_of_makeElement hmake hfit]
      rfl
    rw [hparse, hroot]
    exact (Item.taken_members (Item.forall₂_of_shown (fun m hm => (h m hm).taken) hchildren)).map rfl

/-- The document of a filter is refused if it is too deep, and otherwise taken for what the filter selects. -/
theorem Filter.parse_document (f : Filter) :
    (maxNesting < f.depth ∧ ∃ span, f.document.parse = .error ⟨.tooDeep, some span⟩) ∨
      (f.depth ≤ maxNesting ∧ Taken f.terms f.selection f.document.parse) := by
  have := Document.parse_items f.grouped_items
  rwa [← f.depth_eq, f.terms_eq, ← f.selection_eq, ← f.nestedText_eq, ← f.body_eq_nestedText] at this

theorem Filter.parse_eq_ok {f : Filter} (hdepth : f.depth ≤ maxNesting) (hids : ∀ t ∈ f.terms, ¬t.criterion.LacksIds) :
    f.document.parse = .ok f.selection := by
  rcases f.parse_document with ⟨hdeep, -⟩ | ⟨-, ⟨-, hparse⟩ | ⟨⟨t, ht, hlacks⟩, -⟩⟩
  · exact absurd hdepth (Nat.not_le.mpr hdeep)
  · exact hparse
  · exact absurd hlacks (hids t ht)

/-! ### Sequences -/

/-- Sequences within sequences, and terms in them, are parsed to just this tree if the document around them is at most
    256 levels deep and each id criterion has an id, and else they are refused. -/
theorem Sequence.parse_wrapped_iff (s : Sequence Item) (hs : s.item.Grouped) :
    Selection.parse ("<filter>" ++ s.tagged ++ "</filter>") = .ok s.item.selection ↔
      s.item.height + 1 ≤ 256 ∧ ∀ t ∈ s.item.terms, ¬t.criterion.LacksIds := by
  have hparse := Document.parse_items (List.forall_mem_singleton.mpr hs)
  have hbody : String.join ([s.item].map Item.tagged) = s.tagged := by simp [tagged]
  have hdocument : (Document.ofBody s.tagged).parse = Selection.parse ("<filter>" ++ s.tagged ++ "</filter>") := by
    rw [Document.ofBody, if_neg (show s.tagged ≠ "" from hs.tagged_ne_empty), Document.parse]
  have hheight : highest ([s.item].map Item.height) = s.item.height := Nat.max_zero _
  have hterms : [s.item].flatMap Item.terms = s.item.terms := List.flatMap_singleton Item.terms s.item
  have hselection : Selection.together ([s.item].map Item.selection) = s.item.selection := rfl
  rw [hbody, hdocument, hheight, hterms, hselection] at hparse
  rcases hparse with ⟨hdeep, span, hparse⟩ | ⟨hfit, ⟨hids, hparse⟩ | ⟨⟨t, ht, hlacks⟩, span, hparse⟩⟩ <;> rw [hparse]
  · exact ⟨fun h => (by cases h), fun h => absurd h.1 (Nat.not_le.mpr hdeep)⟩
  · exact ⟨fun _ => ⟨hfit, hids⟩, fun _ => rfl⟩
  · exact ⟨fun h => (by cases h), fun h => absurd hlacks (h.2 t ht)⟩

/-- `or` around an `and` of two categories, a negation of ids, and an `or` of one name. -/
def Sequence.mixed : Sequence Item where
  tag := Connector.or.tag
  members := [
    .group Connector.and.tag [.term ⟨.pattern .category ⟨"a<b", by decide⟩ false, false⟩,
      .term ⟨.pattern .category ⟨"x.*", by decide⟩ true, false⟩],
    .term ⟨.ids ⟨"7, ,8 ", by decide⟩, true⟩,
    .group Connector.or.tag [.term ⟨.pattern .fullName ⟨"q", by decide⟩ false, false⟩]]

theorem Sequence.grouped_mixed : Sequence.mixed.item.Grouped := by
  have hterms : ∀ (k : Connector) (ts : List Term), ts ≠ [] → (Item.group k.tag (ts.map .term)).Grouped := by
    intro k ts hne
    refine .group k (by simpa using hne) fun m hm => ?_
    obtain ⟨t, -, rfl⟩ := List.mem_map.mp hm
    exact .term t
  refine .group .or (List.cons_ne_nil _ _) ?_
  simp only [mixed, List.forall_mem_cons]
  exact ⟨hterms .and [_, _] (by simp), .term _, hterms .or [_] (by simp), by simp⟩

theorem Sequence.parse_mixed : Sequence.mixed.item.Grouped ∧
    Selection.parse ("<filter><or><and><cat>a&lt;b</cat><cat re=\"1\">x.*</cat></and><not><id>7, ,8 </id></not>" ++
      "<or><name>q</name></or></or></filter>") =
    .ok (.or [.and [.matching { kind := .category, pattern := "a<b" },
        .matching { kind := .category, pattern := "x.*", isRegex := true }],
      .not (.ids ["7", "8"]), .or [.matching { kind := .fullName, pattern := "q" }]]) := by
  have hids : ∀ t ∈ Sequence.mixed.item.terms, ¬t.criterion.LacksIds := by
    have hfilled : Text.filledPieces "7, ,8 " ≠ [] := by decide
    simp [Sequence.item, mixed, Item.terms, Criterion.LacksIds, hfilled]
  have htext : "<filter>" ++ Sequence.mixed.tagged ++ "</filter>" =
      "<filter><or><and><cat>a&lt;b</cat><cat re=\"1\">x.*</cat></and><not><id>7, ,8 </id></not>" ++
        "<or><name>q</name></or></or></filter>" := by decide
  rw [← htext]
  exact ⟨Sequence.grouped_mixed, (Sequence.parse_wrapped_iff Sequence.mixed Sequence.grouped_mixed).mpr ⟨by decide, hids⟩⟩

/-! ### Finished chains -/

theorem message_tooDeep : ParseError.Cause.tooDeep.message = "Elements are nested deeper than 256 levels" := by
  decide +kernel

theorem message_noIds_ne : ParseError.Cause.noIds.message ≠ "Elements are nested deeper than 256 levels" := by
  decide +kernel

/-- The document of a finished chain is refused for its nesting exactly if it is deeper than 256 levels. Any
    other one is refused exactly if an id criterion lacks ids, and else it is parsed to the grouping of the
    chain. -/
theorem Bench.Finished.parse_build {b : Bench} {h : Handle} {f : Filter} (hf : b.Finished h f) : ∃ d, b.build h = .ok d ∧
    ((∃ e, d.parse = .error e ∧ e.message = "Elements are nested deeper than 256 levels") ↔ 256 < f.depth) ∧
    (f.depth ≤ 256 → ((∃ e, d.parse = .error e) ↔ ∃ t ∈ f.terms, t.criterion.LacksIds) ∧
      ((∀ t ∈ f.terms, ¬t.criterion.LacksIds) → d.parse = .ok f.selection)) := by
  refine ⟨f.document, hf.build_eq, ?_⟩
  rcases f.parse_document with ⟨hdeep, span, hparse⟩ | ⟨hfit, ⟨hids, hparse⟩ | ⟨⟨t, ht, hlacks⟩, span, hparse⟩⟩ <;>
    rw [hparse]
  · exact ⟨⟨fun _ => hdeep, fun _ => ⟨_, rfl, message_tooDeep⟩⟩, fun hle => absurd hdeep (Nat.not_lt.mpr hle)⟩
  · refine ⟨⟨?_, fun hdeep => absurd hdeep (Nat.not_lt.mpr hfit)⟩, fun _ => ⟨⟨?_, ?_⟩, fun _ => rfl⟩⟩
    · rintro ⟨e, he, -⟩
      cases he
    · rintro ⟨e, he⟩
      cases he
    · rintro ⟨t, ht, hlacks⟩
      exact absurd hlacks (hids t ht)
  · refine ⟨⟨?_, fun hdeep => absurd hdeep (Nat.not_lt.mpr hfit)⟩, fun _ => ⟨⟨?_, ?_⟩, fun hids => absurd hlacks (hids t ht)⟩⟩
    · rintro ⟨e, he, hmessage⟩
      cases he
      exact absurd hmessage message_noIds_ne
    · exact fun _ => ⟨t, ht, hlacks⟩
    · exact fun _ => ⟨_, rfl⟩

theorem Bench.Finished.parse_alternating : ∃ b h d, Bench.Finished b h Filter.alternating ∧ b.build h = .ok d ∧
    d.parse = .ok (.and [.or [.and [.matching { kind := .fullName, pattern := "a" },
          .matching { kind := .fullName, pattern := "b" }],
        .not (.matching { kind := .fullName, pattern := "c" })],
      .matching { kind := .fullName, pattern := "d" }]) := by
  obtain ⟨b, h, hf⟩ := Bench.exists_finished Filter.alternating
  obtain ⟨d, hbuild, -, hfit⟩ := Bench.Finished.parse_build hf
  have hdepth : Filter.alternating.depth ≤ 256 := by decide
  have hids : ∀ t ∈ Filter.alternating.terms, ¬t.criterion.LacksIds := by
    simp [Filter.alternating, Filter.terms, Criterion.LacksIds]
  exact ⟨b, h, d, hf, hbuild, (hfit hdepth).2 hids⟩

end TestSelection
