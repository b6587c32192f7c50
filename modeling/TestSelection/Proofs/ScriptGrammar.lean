import TestSelection.Proofs.Creation
import TestSelection.Proofs.Meaning
import TestSelection.Proofs.NestedText
import TestSelection.Script

/-! The grammar of scripts, on words. A word is a keyword by its place and only without quotes, so the same word may
    be a connector in one place and an argument in another one. Main statement: words are read exactly if they are
    none or spell a clause, and the document is then the one of the chain that is put together to that clause
    (`document_iff_spells`).

    One lemma for each part of the grammar says what is read off the front of some words: a criterion
    (`criterion_eq_ok_iff`), a term (`term_eq_ok_iff`), and what follows to the end (`links_eq_ok_iff`). -/

namespace TestSelection.Script
open Text

/-! ### The grammar -/

/-- The word stands outside quotes and has a certain text. -/
structure Word.Says (w : Word) (text : String) : Prop where
  text_eq : w.text = text
  unquoted : w.quoted = false

/-- The keyword of a criterion with a certain tag; `~` marks a regular expression. -/
def keyword (tag : String) (isRegex : Bool) : String := if isRegex then tag ++ "~" else tag

/-- `KIND["~"] ARGUMENT | "prop"["~"] ARGUMENT ARGUMENT | "id" ARGUMENT`. An argument is any word that has the text of
    the criterion, and this text is not blank. Of ids, those that are not blank are kept, trimmed and each at its
    first place. -/
inductive SpellsCriterion : List Word → Criterion → Prop where
  | pattern {w arg : Word} {subject : Subject} {text : Filled} {isRegex : Bool} (hw : w.Says (keyword subject.tag isRegex))
      (harg : arg.text = text.text) : SpellsCriterion [w, arg] (.pattern subject text isRegex)
  | property {w nameArg valueArg : Word} {name value : Filled} {isRegex : Bool} (hw : w.Says (keyword "prop" isRegex))
      (hname : nameArg.text = name.text) (hvalue : valueArg.text = value.text) :
      SpellsCriterion [w, nameArg, valueArg] (.property name value isRegex)
  | ids {w arg : Word} {joined : Filled} {kept : List String} (hw : w.Says "id")
      (hkept : FirstPlaces (filledPieces arg.text) kept) (hne : kept ≠ []) (hjoined : ",".intercalate kept = joined.text) :
      SpellsCriterion [w, arg] (.ids joined)

/-- `["not"] criterion` -/
inductive SpellsTerm : List Word → Term → Prop where
  | criterion {ws : List Word} {c : Criterion} (h : SpellsCriterion ws c) : SpellsTerm ws ⟨c, false⟩
  | negation {w : Word} {ws : List Word} {c : Criterion} (hw : w.Says "not") (h : SpellsCriterion ws c) :
      SpellsTerm (w :: ws) ⟨c, true⟩

/-- `(("and" | "or") term)*` -/
inductive SpellsLinks : List Word → List (Connector × Term) → Prop where
  | nil : SpellsLinks [] []
  | cons {w : Word} {us ws : List Word} {k : Connector} {t : Term} {rest : List (Connector × Term)} (hw : w.Says k.tag)
      (ht : SpellsTerm us t) (hrest : SpellsLinks ws rest) : SpellsLinks (w :: (us ++ ws)) ((k, t) :: rest)

/-- `term (("and" | "or") term)*` -/
inductive SpellsClause : List Word → Clause → Prop where
  | clause {us ws : List Word} {first : Term} {rest : List (Connector × Term)} (hfirst : SpellsTerm us first)
      (hrest : SpellsLinks ws rest) : SpellsClause (us ++ ws) ⟨first, rest⟩

section
variable {w : Word} {ws us rest : List Word} {k : Connector} {c : Criterion} {t : Term} {kind : Kind} {isRegex : Bool}
  {s tag : String} {subject : Subject} {ls : List (Connector × Term)} {f : Filter}

/-! ### Keywords -/

theorem keyword_of_splitMark (h : splitMark s = (tag, isRegex)) : s = keyword tag isRegex := by
  unfold splitMark at h
  split at h
  · rename_i cs hcs
    cases h
    have htext : s.toList = cs.reverse ++ ['~'] := by
      rw [← List.reverse_reverse s.toList, hcs, List.reverse_cons]
    rw [← String.toList_inj, htext]
    simp [keyword]
  · cases h
    rfl

theorem splitMark_keyword (kind : Kind) (isRegex : Bool) : splitMark (keyword kind.tag isRegex) = (kind.tag, isRegex) := by
  cases kind <;> cases isRegex <;> rfl

theorem criterion?_eq_some_iff : w.criterion? = some (kind, isRegex) ↔
    w.Says (keyword kind.tag isRegex) ∧ kind.isStructural = false ∧ ¬(kind = .ids ∧ isRegex = true) := by
  constructor
  · intro h
    unfold Word.criterion? at h
    split at h
    · cases h
    · rename_i hquoted
      dsimp only at h
      split at h
      · rename_i kind' htag
        split at h
        · cases h
        · rename_i hkind
          cases h
          rw [Bool.or_eq_true, Bool.and_eq_true, beq_iff_eq, not_or, Bool.not_eq_true] at hkind
          have htext := keyword_of_splitMark (Prod.ext_iff.mpr ⟨Kind.ofTag?_eq_some_iff.mp htag, rfl⟩)
          exact ⟨⟨htext, by simpa using hquoted⟩, hkind⟩
      · cases h
  · rintro ⟨⟨htext, hquoted⟩, hstructural, hids⟩
    simp [Word.criterion?, hquoted, htext, splitMark_keyword, Kind.ofTag?_tag, hstructural, hids]

theorem connector?_eq_some_iff : w.connector? = some k ↔ w.Says k.tag := by
  constructor
  · intro h
    unfold Word.connector? at h
    split at h
    · cases h
    · rename_i hquoted
      have hquoted : w.quoted = false := by simpa using hquoted
      split at h
      · rename_i hand
        cases h
        exact ⟨hand, hquoted⟩
      · split at h
        · rename_i hor
          cases h
          exact ⟨hor, hquoted⟩
        · cases h
  · rintro ⟨htext, hquoted⟩
    cases k <;> simp [Word.connector?, htext, hquoted, Connector.tag, Connector.kind, Kind.tag]

theorem isNot_iff : w.isNot = true ↔ w.Says "not" := by
  rw [Word.isNot, Bool.and_eq_true, Bool.not_eq_true', beq_iff_eq]
  exact ⟨fun h => ⟨h.2, h.1⟩, fun h => ⟨h.2, h.1⟩⟩

theorem isNot_of_criterion? (h : w.criterion? = some (kind, isRegex)) : w.isNot = false := by
  obtain ⟨hw, hstructural, -⟩ := criterion?_eq_some_iff.mp h
  rw [Word.isNot, hw.text_eq]
  cases kind <;> cases isRegex <;> simp_all [keyword, Kind.tag, Kind.isStructural]

/-! ### One criterion -/

theorem criterionOf_subject {arg : Word} : criterionOf subject.kind isRegex (arg :: ws) =
    made (Criterion.ofKind subject.kind arg.text isRegex) ws := by
  cases subject <;> cases ws <;> rfl

theorem criterionOf_ids {arg : Word} : criterionOf .ids isRegex (arg :: ws) = made (Criterion.ofIds (commaPieces arg.text)) ws := by
  cases ws <;> rfl

/-- The words of a criterion start with its keyword, and behind it its arguments are read, whatever follows them. -/
theorem SpellsCriterion.exists_keyword (h : SpellsCriterion us c) : ∃ w args kind isRegex, us = w :: args ∧
    w.criterion? = some (kind, isRegex) ∧ ∀ rest, criterionOf kind isRegex (args ++ rest) = .ok (c, rest) := by
  cases h with
  | @pattern w arg subject text isRegex hw harg =>
    refine ⟨w, [arg], subject.kind, isRegex, rfl, criterion?_eq_some_iff.mpr ⟨hw, ?_, ?_⟩, fun rest => ?_⟩
    · cases subject <;> rfl
    · cases subject <;> simp [Subject.kind]
    · rw [List.singleton_append, criterionOf_subject]
      exact made_eq_ok_iff.mpr ⟨Criterion.ofKind_eq_ok_iff.mpr ⟨text, harg, rfl⟩, rfl⟩
  | @property w nameArg valueArg name value isRegex hw hname hvalue =>
    refine ⟨w, [nameArg, valueArg], .property, isRegex, rfl, criterion?_eq_some_iff.mpr ⟨hw, rfl, by simp⟩, fun rest => ?_⟩
    exact made_eq_ok_iff.mpr ⟨Criterion.ofProperty_eq_ok_iff.mpr ⟨name, value, hname, hvalue, rfl⟩, rfl⟩
  | @ids w arg joined kept hw hkept hne hjoined =>
    refine ⟨w, [arg], .ids, false, rfl, criterion?_eq_some_iff.mpr ⟨hw, rfl, by simp⟩, fun rest => ?_⟩
    rw [List.singleton_append, criterionOf_ids]
    exact made_eq_ok_iff.mpr ⟨Criterion.ofIds_eq_ok_iff.mpr ⟨kept, hkept, hne, joined, hjoined, rfl⟩, rfl⟩

theorem spells_of_criterionOf (hw : w.Says (keyword kind.tag isRegex)) (hstructural : kind.isStructural = false)
    (hids : ¬(kind = .ids ∧ isRegex = true)) (h : criterionOf kind isRegex ws = .ok (c, rest)) :
    ∃ us, w :: ws = us ++ rest ∧ SpellsCriterion us c := by
  cases ws with
  | nil => cases h
  | cons arg ws =>
    rcases kind.taken_cases with rfl | ⟨k, rfl⟩ | rfl | rfl | rfl | ⟨subject, rfl⟩
    · cases hstructural
    · cases k <;> cases hstructural
    · cases hstructural
    · obtain rfl : isRegex = false := by simpa using hids
      rw [criterionOf_ids] at h
      obtain ⟨hc, rfl⟩ := made_eq_ok_iff.mp h
      obtain ⟨kept, hkept, hne, joined, hjoined, rfl⟩ := Criterion.ofIds_eq_ok_iff.mp hc
      exact ⟨[w, arg], rfl, .ids hw hkept hne hjoined⟩
    · cases ws with
      | nil => cases h
      | cons value ws =>
        obtain ⟨hc, rfl⟩ := made_eq_ok_iff.mp h
        obtain ⟨n, v, hn, hv, rfl⟩ := Criterion.ofProperty_eq_ok_iff.mp hc
        exact ⟨[w, arg, value], rfl, .property hw hn hv⟩
    · rw [criterionOf_subject] at h
      obtain ⟨hc, rfl⟩ := made_eq_ok_iff.mp h
      obtain ⟨t, ht, rfl⟩ := Criterion.ofKind_eq_ok_iff.mp hc
      exact ⟨[w, arg], rfl, .pattern hw ht⟩

theorem criterion_eq_ok_iff : criterion ws = .ok (c, rest) ↔ ∃ us, ws = us ++ rest ∧ SpellsCriterion us c := by
  constructor
  · intro h
    cases ws with
    | nil => cases h
    | cons w ws =>
      rw [criterion] at h
      split at h
      · rename_i kind isRegex hkind
        obtain ⟨hw, hstructural, hids⟩ := criterion?_eq_some_iff.mp hkind
        exact spells_of_criterionOf hw hstructural hids h
      · cases h
  · rintro ⟨us, rfl, h⟩
    obtain ⟨w, args, kind, isRegex, rfl, hkind, hargs⟩ := h.exists_keyword
    simp only [List.cons_append, criterion, hkind]
    exact hargs rest

/-! ### Terms and links -/

theorem term_eq_ok_iff : term ws = .ok (t, rest) ↔ ∃ us, ws = us ++ rest ∧ SpellsTerm us t := by
  constructor
  · intro h
    cases ws with
    | nil => cases h
    | cons w ws =>
      rw [term] at h
      split at h
      · rename_i hnot
        obtain ⟨⟨c, rest⟩, hc, hp⟩ := map_eq_ok_iff.mp h
        cases hp
        obtain ⟨us, rfl, hus⟩ := criterion_eq_ok_iff.mp hc
        exact ⟨w :: us, rfl, .negation (isNot_iff.mp hnot) hus⟩
      · obtain ⟨⟨c, rest⟩, hc, hp⟩ := map_eq_ok_iff.mp h
        cases hp
        obtain ⟨us, hws, hus⟩ := criterion_eq_ok_iff.mp hc
        exact ⟨us, hws, .criterion hus⟩
  · rintro ⟨us, rfl, h⟩
    cases h with
    | @criterion _ c h =>
      -- The keyword of a criterion is never `not`.
      obtain ⟨w, args, kind, isRegex, rfl, hkind, -⟩ := h.exists_keyword
      have hread : criterion (w :: args ++ rest) = .ok (c, rest) := criterion_eq_ok_iff.mpr ⟨_, rfl, h⟩
      rw [List.cons_append] at hread ⊢
      rw [term, if_neg (by simp [isNot_of_criterion? hkind]), hread]
      rfl
    | negation hw h =>
      rw [List.cons_append, term, if_pos (isNot_iff.mpr hw), criterion_eq_ok_iff.mpr ⟨_, rfl, h⟩]
      rfl

theorem SpellsLinks.of_links (h : links ws = .ok ls) : SpellsLinks ws ls := by
  fun_induction links ws generalizing ls with
  | case1 =>
    cases h
    exact .nil
  | case2 | case3 => cases h
  | case4 w ws k hk t rest ht _ ih =>
    obtain ⟨tail, htail, rfl⟩ := map_eq_ok_iff.mp h
    obtain ⟨us, rfl, hus⟩ := term_eq_ok_iff.mp ht
    exact .cons (connector?_eq_some_iff.mp hk) hus (ih htail)

theorem links_eq_ok_iff : links ws = .ok ls ↔ SpellsLinks ws ls := by
  refine ⟨SpellsLinks.of_links, fun h => ?_⟩
  induction h with
  | nil => rw [links]
  | @cons w us ws k t ls hw ht _ ih =>
    rw [links_cons, connector?_eq_some_iff.mpr hw, term_eq_ok_iff.mpr ⟨_, rfl, ht⟩]
    change (links ws).map ((k, t) :: ·) = .ok ((k, t) :: ls)
    rw [ih]
    rfl

/-! ### Whole scripts -/

theorem SpellsTerm.ne_nil (h : SpellsTerm us t) : us ≠ [] := by
  rintro rfl
  cases h with
  | criterion h => cases h

theorem read_eq_ok_iff : read ws = .ok f ↔ (ws = [] ∧ f = .everything) ∨ ∃ c, SpellsClause ws c ∧ f = .clause c := by
  by_cases hws : ws = []
  · have hnone : ∀ c, ¬SpellsClause [] c := by
      rintro c h
      generalize hnil : ([] : List Word) = vs at h
      obtain ⟨hfirst, -⟩ := h
      exact hfirst.ne_nil (List.append_eq_nil_iff.mp hnil.symm).1
    subst hws
    simp [read, hnone, eq_comm]
  · rw [read_of_ne_nil hws]
    constructor
    · intro h
      obtain ⟨p, ht, hlinks⟩ := bind_eq_ok_iff.mp h
      obtain ⟨rest, hl, rfl⟩ := map_eq_ok_iff.mp hlinks
      obtain ⟨us, rfl, hus⟩ := term_eq_ok_iff.mp ht
      exact Or.inr ⟨_, .clause hus (links_eq_ok_iff.mp hl), rfl⟩
    · rintro (⟨hnil, -⟩ | ⟨c, ⟨hfirst, hrest⟩, rfl⟩)
      · exact absurd hnil hws
      · refine bind_eq_ok_iff.mpr ⟨_, term_eq_ok_iff.mpr ⟨_, rfl, hfirst⟩, ?_⟩
        exact map_eq_ok_iff.mpr ⟨_, links_eq_ok_iff.mpr hrest, rfl⟩

/-- Words are read exactly if they are none or spell a clause. No words at all give the document that asks for
    nothing, and the words of a clause give the document of every chain that is put together to the clause. -/
theorem document_iff_spells (ws : List Word) :
    ((∃ d, (read ws).map Filter.document = .ok d) ↔ ws = [] ∨ ∃ c, SpellsClause ws c) ∧
    (ws = [] → (read ws).map Filter.document = .ok ⟨"<filter />"⟩) ∧
    ∀ c, SpellsClause ws c → (∃ b h, Bench.Finished b h (.clause c)) ∧
      ∀ b h, Bench.Finished b h (.clause c) → ∃ d, b.build h = .ok d ∧ (read ws).map Filter.document = .ok d := by
  refine ⟨⟨?_, ?_⟩, ?_, fun c hc => ⟨Bench.exists_finished (.clause c), fun b h hf => ?_⟩⟩
  · rintro ⟨d, hd⟩
    obtain ⟨f, hread, -⟩ := map_eq_ok_iff.mp hd
    rcases read_eq_ok_iff.mp hread with ⟨hws, -⟩ | ⟨c, hc, -⟩
    · exact Or.inl hws
    · exact Or.inr ⟨c, hc⟩
  · rintro (rfl | ⟨c, hc⟩)
    · exact ⟨_, rfl⟩
    · exact ⟨_, map_eq_ok_iff.mpr ⟨_, read_eq_ok_iff.mpr (Or.inr ⟨c, hc, rfl⟩), rfl⟩⟩
  · rintro rfl
    rfl
  · exact ⟨_, hf.build_eq, map_eq_ok_iff.mpr ⟨_, read_eq_ok_iff.mpr (Or.inr ⟨c, hc, rfl⟩), rfl⟩⟩

end

end TestSelection.Script
