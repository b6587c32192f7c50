import TestSelection.Proofs.RoundTrip
import TestSelection.Proofs.Unambiguous

/-! Different filters have different documents. A document shows the items of its filter and no others, since
    its text is read in one way only (`Document.items_unique`), and the items show how the filter was grouped
    (`Filter.items_injective`). So finished chains with the same document are equal node by node
    (`Bench.Finished.text_eq_iff`). -/

namespace TestSelection
open Markup

/-! ### Elements show one item -/

theorem Kind.tag_injective {j k : Kind} (h : j.tag = k.tag) : j = k :=
  Option.some.inj ((ofTag?_tag j).symm.trans (ofTag?_eq_some_iff.mpr h))

theorem Connector.tag_injective {j k : Connector} (h : j.tag = k.tag) : j = k := by
  have hkind : j.kind = k.kind := Kind.tag_injective h
  cases j <;> cases k
  · rfl
  · cases hkind
  · cases hkind
  · rfl

theorem Connector.tag_ne_not {k : Connector} : k.tag ≠ Kind.not.tag := by
  intro h
  have hkind : k.kind = .not := Kind.tag_injective h
  cases k <;> cases hkind

theorem Subject.kind_injective {s t : Subject} (h : s.kind = t.kind) : s = t :=
  Option.some.inj ((ofKind?_eq_some_iff.mpr rfl).symm.trans (ofKind?_eq_some_iff.mpr h))

theorem Text.Filled.eq_of_text {s t : Text.Filled} (h : s.text = t.text) : s = t := by
  cases s
  cases t
  cases h
  rfl

/-- The name, the attributes and the text of an element show the criterion. -/
theorem Criterion.eq_of_element {c d : Criterion} {span span' : Span} (h : c.element span = d.element span') : c = d := by
  obtain ⟨htag, -, hattributes, -, hbody⟩ := Element.mk.inj h
  have hkind : c.kind = d.kind := Kind.tag_injective htag
  rcases c with ⟨s, text, isRegex⟩ | ⟨name, value, isRegex⟩ | joined
  · rcases d with ⟨s', text', isRegex'⟩ | ⟨_, _, _⟩ | _
    · obtain rfl := Subject.kind_injective hkind
      obtain rfl := Text.Filled.eq_of_text hbody
      obtain rfl : isRegex = isRegex' := by
        cases isRegex <;> cases isRegex' <;> simp [attributeList] at hattributes ⊢
      rfl
    · exact absurd hkind s.kind_ne_property
    · cases s <;> cases hkind
  · rcases d with ⟨s', _, _⟩ | ⟨name', value', isRegex'⟩ | _
    · exact absurd hkind.symm s'.kind_ne_property
    · obtain rfl := Text.Filled.eq_of_text hbody
      obtain ⟨rfl, hname⟩ : isRegex = isRegex' ∧ name.text = name'.text := by
        cases isRegex <;> cases isRegex' <;> simp [attributeList] at hattributes ⊢ <;> exact hattributes
      obtain rfl := Text.Filled.eq_of_text hname
      rfl
    · cases hkind
  · rcases d with ⟨s', _, _⟩ | ⟨_, _, _⟩ | joined'
    · cases s' <;> cases hkind
    · cases hkind
    · obtain rfl := Text.Filled.eq_of_text hbody
      rfl

namespace Item

theorem eq_of_forall₂_shown {as bs : List Item} {children : List Element}
    (h : ∀ a ∈ as, ∀ b ∈ bs, ∀ e, a.Shown e → b.Shown e → a = b) (ha : List.Forall₂ Shown as children)
    (hb : List.Forall₂ Shown bs children) : as = bs := by
  induction ha generalizing bs with
  | nil =>
    cases hb
    rfl
  | cons hae _ ih =>
    cases hb with
    | cons hbe hb =>
      rw [h _ List.mem_cons_self _ List.mem_cons_self _ hae hbe,
        ih (fun a ha b hb => h a (List.mem_cons_of_mem _ ha) b (List.mem_cons_of_mem _ hb)) hb]

/-- An element shows one item at the most. -/
theorem Grouped.unique {a : Item} (ha : a.Grouped) : ∀ b, b.Grouped → ∀ e, a.Shown e → b.Shown e → a = b := by
  induction ha with
  | term t =>
    -- A criterion has no children, and the name of a negation is that of no group.
    rintro b hb e (⟨c, span⟩ | ⟨c, outer, span⟩) hbe
    · generalize he : c.element span = e at hbe
      obtain ⟨d, span'⟩ | ⟨d, outer', span'⟩ | ⟨tag, span', hchildren⟩ := hbe
      · rw [Criterion.eq_of_element he]
      · exact absurd (Element.mk.inj he).2.2.2.1 (List.cons_ne_nil _ _).symm
      · obtain ⟨-, -, -, rfl, -⟩ := Element.mk.inj he
        cases hb with
        | group k hne _ => exact absurd (List.forall₂_nil_right_iff.mp hchildren) hne
    · generalize he : (⟨Kind.not.tag, outer, [], [c.element span], ""⟩ : Element) = e at hbe
      obtain ⟨d, span'⟩ | ⟨d, outer', span'⟩ | ⟨tag, span', hchildren⟩ := hbe
      · exact absurd (Element.mk.inj he).2.2.2.1 (List.cons_ne_nil _ _)
      · rw [Criterion.eq_of_element (List.cons.inj (Element.mk.inj he).2.2.2.1).1]
      · cases hb with
        | group k _ _ => exact absurd (Element.mk.inj he).1.symm Connector.tag_ne_not
  | @group k members hne _ ih =>
    rintro b hb e (_ | _ | @⟨_, span, _, children, hchildren⟩) hbe
    generalize he : (⟨k.tag, span, [], children, ""⟩ : Element) = e at hbe
    obtain ⟨d, span'⟩ | ⟨d, outer', span'⟩ | ⟨tag, span', hchildren'⟩ := hbe
    · obtain ⟨-, -, -, rfl, -⟩ := Element.mk.inj he
      exact absurd (List.forall₂_nil_right_iff.mp hchildren) hne
    · exact absurd (Element.mk.inj he).1 Connector.tag_ne_not
    · cases hb with
      | group k' _ hmembers =>
        obtain ⟨htag, -, -, rfl, -⟩ := Element.mk.inj he
        rw [htag, eq_of_forall₂_shown (fun a ha b hb => ih a ha b (hmembers b hb)) hchildren hchildren']

end Item

/-- Documents with the same text have the same items. -/
theorem Document.items_unique {as bs : List Item} (ha : ∀ a ∈ as, a.Grouped) (hb : ∀ b ∈ bs, b.Grouped)
    (h : ofBody (String.join (as.map Item.tagged)) = ofBody (String.join (bs.map Item.tagged))) : as = bs := by
  obtain ⟨span, children, hmake, hshown⟩ := exists_makeElement ha
  obtain ⟨span', children', hmake', hshown'⟩ := exists_makeElement hb
  rw [h] at hmake
  obtain ⟨he, -⟩ := hmake.unique hmake' (congrArg (· ++ []) rfl)
  obtain ⟨-, -, -, rfl, -⟩ := Element.mk.inj he
  exact Item.eq_of_forall₂_shown (fun a ha' b hb' => (ha a ha').unique b (hb b hb')) hshown hshown'

/-! ### Items show the grouping -/

theorem Run.eq_of_members {r s : Run Item} (hconnector : r.connector = s.connector) (h : r.members = s.members) :
    r = s := by
  cases r
  cases s
  cases hconnector
  cases h
  rfl

namespace Clause
variable {c d : Clause} {k k' : Connector} {t t' : Term}

/-- A clause has one member only if it is a single term. -/
theorem connector_eq_none_iff : c.itemRun.connector = none ↔ c.itemRun.members.length = 1 := by
  constructor
  · intro hk
    rw [itemRun, (c.members_run_of_none hk).1]
    rfl
  · intro hlength
    cases hk : c.itemRun.connector with
    | none => rfl
    | some k =>
      obtain ⟨a, b, more, hmembers⟩ := c.exists_members_run hk
      rw [itemRun, hmembers] at hlength
      simp at hlength

theorem members_ne_group {members : List Item} : c.itemRun.members ≠ [k.group members] := by
  intro h
  have hk : c.itemRun.connector = none := connector_eq_none_iff.mpr (by rw [h]; rfl)
  rw [itemRun, (c.members_run_of_none hk).1] at h
  cases h

theorem itemRun_eq (hc : c.itemRun.connector = none ∨ c.itemRun.connector = some k)
    (hd : d.itemRun.connector = none ∨ d.itemRun.connector = some k) (h : c.itemRun.members = d.itemRun.members) :
    c.itemRun = d.itemRun := by
  have hnone : c.itemRun.connector = none ↔ d.itemRun.connector = none := by
    rw [connector_eq_none_iff, connector_eq_none_iff, h]
  have hconnector : c.itemRun.connector = d.itemRun.connector := by
    rcases hc with hc | hc
    · rw [hc, hnone.mp hc]
    · rcases hd with hd | hd
      · rw [hnone.mpr hd, hd]
      · rw [hc, hd]
  exact Run.eq_of_members hconnector h

/-- What a term is joined to shows in the run that comes out: if it was closed, it is the first member. -/
theorem join_itemRun_inj (h : c.itemRun.join Connector.group k (.term t) = d.itemRun.join Connector.group k' (.term t')) :
    c.itemRun = d.itemRun ∧ k = k' ∧ t = t' := by
  have hk : k = k' := by simpa [Run.connector_join] using congrArg Run.connector h
  subst hk
  rcases c.itemRun.join_cases k (.term t) with ⟨hc, hjoin⟩ | ⟨j, hc, -, hjoin⟩ <;>
    rcases d.itemRun.join_cases k (.term t') with ⟨hd, hjoin'⟩ | ⟨j', hd, -, hjoin'⟩ <;>
    rw [hjoin, hjoin', Run.mk.injEq] at h
  · obtain ⟨hmembers, hterm⟩ := List.append_inj' h.2 rfl
    cases hterm
    exact ⟨itemRun_eq hc hd hmembers, rfl, rfl⟩
  · -- Only one of the runs was closed. Then the other one has a group as its only member.
    have hsplit : c.itemRun.members ++ [.term t] = [j'.group d.itemRun.members] ++ [.term t'] := h.2
    exact absurd (List.append_inj' hsplit rfl).1 members_ne_group
  · have hsplit : d.itemRun.members ++ [.term t'] = [j.group c.itemRun.members] ++ [.term t] := h.2.symm
    exact absurd (List.append_inj' hsplit rfl).1 members_ne_group
  · obtain ⟨hgroup, hterm⟩ := List.cons.inj h.2
    obtain ⟨htag, hmembers⟩ := Item.group.inj hgroup
    obtain rfl := Connector.tag_injective htag
    cases hterm
    exact ⟨Run.eq_of_members (hc.trans hd.symm) hmembers, rfl, rfl⟩

theorem itemRun_injective (h : c.itemRun = d.itemRun) : c = d := by
  obtain ⟨first, rest⟩ := c
  obtain ⟨first', rest'⟩ := d
  induction rest using List.reverseRecOn generalizing rest' with
  | nil =>
    have hrest : rest' = [] := (members_run_of_none _ (congrArg Run.connector h).symm).2
    subst hrest
    cases h
    rfl
  | append_singleton rest l ih =>
    cases rest' using List.reverseRecOn with
    | nil =>
      have hrest : rest ++ [l] = [] := (members_run_of_none _ (congrArg Run.connector h)).2
      exact absurd hrest (by simp)
    | append_singleton rest' l' =>
      rw [itemRun, run_concat, itemRun, run_concat] at h
      obtain ⟨hrun, hk, ht⟩ := join_itemRun_inj h
      cases ih _ hrun
      rw [Prod.ext hk ht]

theorem items_injective (h : c.itemRun.items = d.itemRun.items) : c = d := by
  have hand : ∀ c : Clause, c.itemRun.connector ≠ some .or →
      c.itemRun.connector = none ∨ c.itemRun.connector = some .and := by
    intro c hc
    rcases hk : c.itemRun.connector with _ | _ | _
    · exact Or.inl rfl
    · exact Or.inr rfl
    · exact absurd hk hc
  apply itemRun_injective
  rw [Run.items, Run.items] at h
  split at h <;> split at h <;> rename_i hc hd
  · obtain ⟨-, hmembers⟩ := Item.group.inj (List.cons.inj h).1
    exact Run.eq_of_members (hc.trans hd.symm) hmembers
  · exact absurd h.symm members_ne_group
  · exact absurd h members_ne_group
  · exact itemRun_eq (hand c hc) (hand d hd) h

theorem items_ne_nil : c.itemRun.items ≠ [] := by
  rw [Run.items]
  split
  · exact List.cons_ne_nil _ _
  · exact c.itemRun_ne_nil

end Clause

theorem Filter.items_injective {f g : Filter} (h : f.items = g.items) : f = g := by
  cases f <;> cases g
  · rfl
  · exact absurd h.symm Clause.items_ne_nil
  · exact absurd h Clause.items_ne_nil
  · rw [Clause.items_injective h]

/-! ### Documents show filters -/

theorem Filter.document_injective {f g : Filter} (h : f.document = g.document) : f = g := by
  rw [document, document, body_eq_nestedText, body_eq_nestedText, nestedText_eq, nestedText_eq] at h
  exact items_injective (Document.items_unique f.grouped_items g.grouped_items h)

theorem Chain.Spells.unique {c d : Chain} {ps : List Part} (hc : c.Spells ps) (hd : d.Spells ps) : c = d := by
  obtain ⟨nodes⟩ := c
  obtain ⟨nodes'⟩ := d
  exact congrArg Chain.mk (Array.ext_getElem? fun id => (hc id).trans (hd id).symm)

/-- Two finished chains are built to the same text exactly if they are equal, node by node. -/
theorem Bench.Finished.text_eq_iff {b b' : Bench} {h h' : Handle} {f g : Filter} (hf : b.Finished h f)
    (hg : b'.Finished h' g) : ∃ d d', b.build h = .ok d ∧ b'.build h' = .ok d' ∧
      (d.text = d'.text ↔ b.chainOf h = b'.chainOf h') := by
  refine ⟨f.document, g.document, hf.build_eq, hg.build_eq, ?_, ?_⟩
  · intro htext
    obtain rfl : f = g := Filter.document_injective (congrArg Document.mk htext)
    exact hf.spells.1.unique hg.spells.1
  · intro hchain
    have hparts : f.parts = g.parts := by rw [← hf.parts, hchain, hg.parts]
    have hread := hg.read
    rw [← hchain, hg.spells.2, ← hparts, hf.spells.1.read] at hread
    cases hread
    rfl

/-- A criterion whose text would read like two criteria with their tags, if it was not escaped. -/
def Filter.lookalike : Filter :=
  .clause ⟨⟨.pattern .fullName ⟨"x</name><name>y", by decide⟩ false, false⟩, []⟩

def Filter.pair : Filter :=
  .clause ⟨⟨.pattern .fullName ⟨"x", by decide⟩ false, false⟩, [(.and, ⟨.pattern .fullName ⟨"y", by decide⟩ false, false⟩)]⟩

theorem Bench.Finished.text_lookalike : ∃ b b' h h' d d', Bench.Finished b h Filter.lookalike ∧
    Bench.Finished b' h' Filter.pair ∧ b.build h = .ok d ∧ b'.build h' = .ok d' ∧ d.text ≠ d'.text := by
  obtain ⟨b, h, hf⟩ := Bench.exists_finished Filter.lookalike
  obtain ⟨b', h', hg⟩ := Bench.exists_finished Filter.pair
  obtain ⟨d, d', hd, hd', hiff⟩ := Bench.Finished.text_eq_iff hf hg
  refine ⟨b, b', h, h', d, d', hf, hg, hd, hd', fun htext => ?_⟩
  have hparts : Filter.lookalike.parts = Filter.pair.parts := by rw [← hf.parts, hiff.mp htext, hg.parts]
  exact absurd hparts (by decide)

end TestSelection
