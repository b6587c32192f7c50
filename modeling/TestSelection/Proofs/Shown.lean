import Mathlib.Data.List.Forall2
import TestSelection.Proofs.Items
import TestSelection.Proofs.Scanning

/-! The elements that items are written as. The text of an item is scanned, wherever it stands between tags,
    to tokens that make an element with the tag, the attributes and the text of the item (`Item.Shown`), all
    of them decoded. -/

namespace TestSelection
open Markup

/-! ### Names -/

theorem Kind.isName_tag (k : Kind) : IsName k.tag where
  ne_empty := by cases k <;> decide
  chars := by cases k <;> decide +kernel

namespace Criterion

def attributeList : Criterion → List (String × String)
  | pattern _ _ isRegex => if isRegex then [("re", "1")] else []
  | property name _ isRegex => (if isRegex then [("re", "1")] else []) ++ [("name", name.text)]
  | ids _ => []

theorem attributes_eq (c : Criterion) : c.attributes = String.join (c.attributeList.map attributeText) := by
  have hre : attributeText ("re", "1") = " re=\"1\"" := by decide
  rcases c with ⟨_, _, _ | _⟩ | ⟨name, _, _ | _⟩ | _ <;> simp [attributes, attributeList, hre]
  all_goals simp [attributeText, ← String.toList_inj]

theorem isAttrName_attributeList (c : Criterion) : ∀ a ∈ c.attributeList, IsAttrName a.1 := by
  have hre : IsAttrName "re" := ⟨⟨'r', ['e'], rfl, by decide +kernel, by decide⟩, by decide +kernel⟩
  have hname : IsAttrName "name" := ⟨⟨'n', "ame".toList, rfl, by decide +kernel, by decide⟩, by decide +kernel⟩
  rcases c with ⟨_, _, _ | _⟩ | ⟨name, _, _ | _⟩ | _ <;> simp [attributeList, hre, hname]

theorem nodup_attributeList (c : Criterion) : (c.attributeList.map (·.1)).Nodup := by
  rcases c with ⟨_, _, _ | _⟩ | ⟨name, _, _ | _⟩ | _ <;> simp [attributeList]

theorem blank_body (c : Criterion) : Text.blank c.body = false := by
  rcases c with ⟨_, text, _⟩ | ⟨_, value, _⟩ | joined
  · exact text.filled
  · exact value.filled
  · exact joined.filled

theorem body_ne_empty (c : Criterion) : c.body ≠ "" := by
  intro h
  have := c.blank_body
  rw [h] at this
  cases this

def element (c : Criterion) (span : Span) : Element := ⟨c.tag, span, c.attributeList, [], c.body⟩

theorem scans_tagged (c : Criterion) (rest : List Char) :
    Scans .between c.tagged .between rest fun ts => ∃ span, MakeElement ts (c.element span) := by
  have hbare : Scans .between c.bare .between (("</" ++ c.tag ++ ">").toList ++ rest)
      fun ts => ∃ children text, MakeContent ts children text ∧ children = [] ∧ text = c.body := by
    have hchars : ("</" ++ c.tag ++ ">").toList ++ rest = '<' :: ('/' :: c.tag.toList ++ '>' :: rest) := by simp
    rw [hchars]
    exact (scans_escape c.body_ne_empty).mono fun ts hts => ⟨_, _, hts, rfl, rfl⟩
  rw [tagged, attributes_eq]
  refine (scans_element c.kind.isName_tag c.isAttrName_attributeList c.nodup_attributeList hbare).mono ?_
  rintro ts ⟨span, children, text, hts, rfl, rfl⟩
  exact ⟨span, hts⟩

end Criterion

/-! ### Items -/

namespace Item

/-- The element shows the item. -/
inductive Shown : Item → Element → Prop where
  | criterion (c : Criterion) (span : Span) : Shown (.term ⟨c, false⟩) (c.element span)
  | negation (c : Criterion) (outer span : Span) :
      Shown (.term ⟨c, true⟩) ⟨Kind.not.tag, outer, [], [c.element span], ""⟩
  | group (tag : String) (span : Span) {members : List Item} {children : List Element}
      (h : List.Forall₂ Shown members children) : Shown (.group tag members) ⟨tag, span, [], children, ""⟩

/-- Items that follow each other are scanned to content that shows them, if each one is. -/
theorem scans_join {items : List Item} {rest : List Char}
    (h : ∀ item ∈ items, ∀ rest, Scans .between item.tagged .between rest fun ts => ∃ e, MakeElement ts e ∧ item.Shown e) :
    Scans .between (String.join (items.map tagged)) .between rest
      fun ts => ∃ children text, MakeContent ts children text ∧ List.Forall₂ Shown items children ∧ text = "" := by
  induction items with
  | nil => exact Scans.nil.mono fun ts hts => ⟨[], "", hts ▸ .nil, .nil, rfl⟩
  | cons item items ih =>
    obtain ⟨hitem, hitems⟩ := List.forall_mem_cons.mp h
    rw [List.map_cons, String.join_cons]
    refine ((hitem _).append (ih hitems)).mono ?_
    rintro _ ⟨us, ts, rfl, ⟨e, hus, he⟩, children, text, hts, hchildren, rfl⟩
    exact ⟨e :: children, "", .child hus hts, .cons he hchildren, rfl⟩

theorem scans_wrap {tag content : String} {rest : List Char} {R : List Element → String → Prop} (htag : IsName tag)
    (hcontent : Scans .between content .between (("</" ++ tag ++ ">").toList ++ rest)
      fun ts => ∃ children text, MakeContent ts children text ∧ R children text) :
    Scans .between (wrap tag content) .between rest
      fun ts => ∃ span children text, MakeElement ts ⟨tag, span, [], children, text⟩ ∧ R children text := by
  have hnone : ∀ a ∈ ([] : List (String × String)), IsAttrName a.1 := by simp
  have helement := scans_element htag hnone List.nodup_nil hcontent
  rw [List.map_nil, String.join_nil, String.append_empty] at helement
  exact helement

theorem wrap_eq {tag opening closing : String} (ho : "<" ++ tag ++ ">" = opening) (hc : "</" ++ tag ++ ">" = closing)
    (text : String) : wrap tag text = opening ++ text ++ closing := by
  simp only [wrap, ← ho, ← hc, String.append_assoc]

theorem tagged_negated (c : Criterion) : (⟨c, true⟩ : Term).tagged = wrap Kind.not.tag c.tagged :=
  (wrap_eq (by decide) (by decide) c.tagged).symm

theorem scans_term (t : Term) (rest : List Char) :
    Scans .between t.tagged .between rest fun ts => ∃ e, MakeElement ts e ∧ (term t).Shown e := by
  obtain ⟨c, _ | _⟩ := t
  · exact (c.scans_tagged rest).mono fun ts ⟨span, hts⟩ => ⟨c.element span, hts, .criterion c span⟩
  · have hcontent : Scans .between c.tagged .between (("</" ++ Kind.not.tag ++ ">").toList ++ rest)
        fun ts => ∃ children text, MakeContent ts children text ∧ ∃ span, children = [c.element span] ∧ text = "" :=
      (c.scans_tagged _).mono fun ts ⟨span, hts⟩ =>
        ⟨_, _, List.append_nil ts ▸ .child hts .nil, span, rfl, rfl⟩
    rw [tagged_negated]
    refine (scans_wrap Kind.not.isName_tag hcontent).mono ?_
    rintro ts ⟨outer, children, text, hts, span, rfl, rfl⟩
    exact ⟨_, hts, .negation c outer span⟩

/-- The text of an item is scanned to an element that shows it. -/
theorem Grouped.scans_tagged {item : Item} (h : item.Grouped) : ∀ rest : List Char,
    Scans .between item.tagged .between rest fun ts => ∃ e, MakeElement ts e ∧ item.Shown e := by
  induction h with
  | term t => exact scans_term t
  | group k hne _ ih =>
    intro rest
    rw [tagged_group hne]
    refine (scans_wrap k.kind.isName_tag (scans_join ih)).mono ?_
    rintro ts ⟨span, children, text, hts, hchildren, rfl⟩
    exact ⟨_, hts, .group _ span hchildren⟩

end Item

/-! ### Documents -/

theorem Document.scans_empty : Scans .between "<filter />" .between []
    fun ts => ∃ span, MakeElement ts ⟨Kind.root.tag, span, [], [], ""⟩ := by
  have hopen : Scans .between ("<" ++ Kind.root.tag) .inTag (" />".toList ++ []) _ :=
    scans_openTag Kind.root.isName_tag (by decide +kernel)
  have htext : "<filter />" = ("<" ++ Kind.root.tag) ++ " />" := by decide
  rw [htext]
  refine (hopen.append scans_selfClose).mono ?_
  rintro _ ⟨_, _, rfl, ⟨span, rfl⟩, stop, rfl⟩
  exact ⟨span, .selfClosed .nil List.nodup_nil⟩

/-- The text of a document is scanned to a root element that shows its items. -/
theorem Document.exists_makeElement {items : List Item} (h : ∀ item ∈ items, item.Grouped) :
    ∃ span children, MakeElement (scan (ofBody (String.join (items.map Item.tagged))).text)
      ⟨Kind.root.tag, span, [], children, ""⟩ ∧ List.Forall₂ Item.Shown items children := by
  have hscan : ∀ s P, Scans .between s .between [] P → P (scan s) := by
    intro s P hs
    obtain ⟨ts, o, hts, hP⟩ := hs 0
    rw [List.append_nil, scanFrom_nil, List.append_nil] at hts
    rwa [scan, hts]
  cases items with
  | nil =>
    obtain ⟨span, hts⟩ := hscan _ _ scans_empty
    exact ⟨span, [], hts, .nil⟩
  | cons item items =>
    have hne : String.join ((item :: items).map Item.tagged) ≠ "" := by
      simp [(h item List.mem_cons_self).tagged_ne_empty]
    have hwrap : (ofBody (String.join ((item :: items).map Item.tagged))).text =
        Item.wrap Kind.root.tag (String.join ((item :: items).map Item.tagged)) := by
      rw [ofBody, if_neg hne]
      exact (Item.wrap_eq (by decide) (by decide) _).symm
    rw [hwrap]
    obtain ⟨span, children, _, hts, hchildren, rfl⟩ := hscan _ _
      (Item.scans_wrap Kind.root.isName_tag (Item.scans_join fun item hitem => (h item hitem).scans_tagged))
    exact ⟨span, children, hts, hchildren⟩

end TestSelection
