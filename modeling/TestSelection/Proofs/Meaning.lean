import Mathlib.Data.List.Forall2
import Mathlib.Data.List.Induction
import TestSelection.Proofs.Grammar
import TestSelection.Selection.OfElement

/-! What elements stand for. Each kind of element has one rule (`Means`), the root has another one
    (`RootMeans`), and an element that fits no rule stands for nothing. The parser takes a list of tokens
    for a selection exactly if they make an element, with blank texts around it, that is not too deep and
    stands for the selection (`ofTokens_eq_ok_iff_means`). That the attributes of an element have different names
    comes from the grammar, so the rules go along with it. -/

namespace TestSelection

/-! ### Kinds -/

namespace Kind

theorem ofTag?_eq_some_iff {tag : String} {k : Kind} : ofTag? tag = some k ↔ tag = k.tag :=
  ⟨fun h => (tag_of_ofTag? h).symm, fun h => h ▸ ofTag?_tag k⟩

/-- Kinds are grouped as elements are taken for selections. -/
theorem taken_cases (k : Kind) : k = root ∨ (∃ c : Connector, k = c.kind) ∨ k = not ∨ k = ids ∨ k = property ∨
    ∃ subject : Subject, k = subject.kind := by
  have hsubject : ∀ {subject : Subject}, Subject.ofKind? k = some subject → ∃ subject : Subject, k = subject.kind :=
    fun h => ⟨_, Subject.ofKind?_eq_some_iff.mp h⟩
  cases k with
  | root => exact Or.inl rfl
  | and => exact Or.inr (Or.inl ⟨.and, rfl⟩)
  | or => exact Or.inr (Or.inl ⟨.or, rfl⟩)
  | not => exact Or.inr (Or.inr (Or.inl rfl))
  | ids => exact Or.inr (Or.inr (Or.inr (Or.inl rfl)))
  | property => exact Or.inr (Or.inr (Or.inr (Or.inr (Or.inl rfl))))
  | test | category | className | method | namespaceName | fullName =>
    exact Or.inr (Or.inr (Or.inr (Or.inr (Or.inr (hsubject rfl)))))

end Kind

theorem Subject.kind_ne_property (subject : Subject) : subject.kind ≠ .property := by
  cases subject <;> nofun

/-! ### Attributes of matchers -/

namespace Matcher

/-- The attributes that a matcher is written with. -/
def attributes (m : Matcher) : List (String × String) :=
  (if m.isRegex then [("re", "1")] else []) ++ (m.property.map fun p => ("name", p)).toList

/-- Only a matcher on a property has the name of one. -/
def Fits (m : Matcher) : Prop := m.kind ≠ .property → m.property = none

theorem mem_attributes_iff {m : Matcher} {a : String × String} : a ∈ m.attributes ↔
    (a = ("re", "1") ∧ m.isRegex = true) ∨ (a.1 = "name" ∧ m.property = some a.2) := by
  obtain ⟨attr, value⟩ := a
  obtain ⟨kind, pattern, isRegex, property⟩ := m
  cases isRegex <;> cases property <;> simp [attributes, eq_comm]

/-- A matcher is what its kind, its pattern and its attributes make it. -/
theorem eq_of_perm {m m' : Matcher} (hkind : m.kind = m'.kind) (hpattern : m.pattern = m'.pattern)
    (h : m.attributes.Perm m'.attributes) : m = m' := by
  have hregex : m.isRegex = m'.isRegex := by
    have := h.mem_iff (a := ("re", "1"))
    exact Bool.eq_iff_iff.mpr (by simpa [mem_attributes_iff] using this)
  have hproperty : m.property = m'.property := by
    refine Option.ext fun p => ?_
    have := h.mem_iff (a := ("name", p))
    simpa [mem_attributes_iff] using this
  cases m
  cases m'
  simp_all

end Matcher

/-- The selection of members that a connector joins. -/
def Connector.selection : Connector → List Selection → Selection
  | and => .and
  | or => .or

namespace Selection
open Markup

/-! ### The rules -/

/-- No attributes, and no text of its own but white space. -/
structure Plain (e : Element) : Prop where
  attributes : e.attributes = []
  text : Text.blank e.text = true

/-- The rule of a criterion other than ids: the matcher has the text of the element as its pattern, and its
    attributes in whatever order they stand. -/
structure Matches (e : Element) (m : Matcher) : Prop where
  name : e.name = m.kind.tag
  children : e.children = []
  text : Text.blank e.text = false
  attributes : e.attributes.Perm m.attributes
  pattern : m.pattern = e.text

/-- What an element below the root stands for. -/
inductive Means : Element → Selection → Prop where
  | group {e : Element} {k : Connector} {members : List Selection} (hname : e.name = k.tag) (hplain : Plain e)
      (hmembers : List.Forall₂ Means e.children members) (hne : members ≠ []) : Means e (k.selection members)
  | not {e : Element} {member : Selection} (hname : e.name = Kind.not.tag) (hplain : Plain e)
      (hmembers : List.Forall₂ Means e.children [member]) : Means e (.not member)
  | ids {e : Element} (hname : e.name = Kind.ids.tag) (hattributes : e.attributes = []) (hchildren : e.children = [])
      (hne : Text.filledPieces e.text ≠ []) : Means e (.ids (Text.filledPieces e.text))
  | pattern {e : Element} {m : Matcher} {subject : Subject} (hkind : m.kind = subject.kind) (h : Matches e m)
      (hproperty : m.property = none) : Means e (.matching m)
  | property {e : Element} {m : Matcher} {name : String} (hkind : m.kind = .property) (h : Matches e m)
      (hproperty : m.property = some name) (hname : Text.blank name = false) : Means e (.matching m)

/-- Selections that all have to hold: one of them stands for itself. -/
def together : List Selection → Selection
  | [] => all
  | [member] => member
  | members => and members

/-- What a root element stands for. -/
structure RootMeans (e : Element) (s : Selection) : Prop where
  name : e.name = Kind.root.tag
  plain : Plain e
  members : ∃ members, List.Forall₂ Means e.children members ∧ s = together members

/-! ### The checks -/

section
variable {e : Element} {s : Selection} {kind : Kind} {m m' : Matcher} {a : String × String}
  {as : List (String × String)} {members : List Selection} {children : Except ParseError (List Selection)}

theorem refuse_if_eq_ok_iff {p : Prop} [Decidable p] {cause : ParseError.Cause} {f : PUnit → Except ParseError Selection}
    {x : Except ParseError Selection} : (if p then refuse e cause >>= f else x) = .ok s ↔ ¬p ∧ x = .ok s := by
  by_cases hp : p <;> simp [hp, refuse, bind, Except.bind]

theorem checkNoAttributes_eq_ok_iff {u : Unit} : checkNoAttributes e = .ok u ↔ e.attributes = [] := by
  unfold checkNoAttributes
  split <;> simp_all [refuse]

theorem checkNoText_eq_ok_iff {u : Unit} : checkNoText e = .ok u ↔ Text.blank e.text = true := by
  unfold checkNoText
  split <;> simp_all [refuse]

theorem checkNoChildren_eq_ok_iff {u : Unit} : checkNoChildren e = .ok u ↔ e.children = [] := by
  unfold checkNoChildren
  split <;> simp_all [refuse]

theorem membersOf_eq_ok_iff : membersOf e children = .ok members ↔ Plain e ∧ children = .ok members := by
  simp only [membersOf, bind_eq_ok_iff, checkNoAttributes_eq_ok_iff, checkNoText_eq_ok_iff]
  exact ⟨fun ⟨_, ha, _, ht, hm⟩ => ⟨⟨ha, ht⟩, hm⟩, fun ⟨⟨ha, ht⟩, hm⟩ => ⟨(), ha, (), ht, hm⟩⟩

theorem membersOf_of_plain (h : Plain e) : membersOf e children = children := by
  have ha : checkNoAttributes e = .ok () := checkNoAttributes_eq_ok_iff.mpr h.attributes
  have ht : checkNoText e = .ok () := checkNoText_eq_ok_iff.mpr h.text
  rw [membersOf, ha, ht]
  rfl

theorem idsOfElement_eq_ok_iff : idsOfElement e = .ok s ↔
    e.attributes = [] ∧ e.children = [] ∧ Text.filledPieces e.text ≠ [] ∧ s = .ids (Text.filledPieces e.text) := by
  simp only [idsOfElement, bind_eq_ok_iff, checkNoAttributes_eq_ok_iff, checkNoChildren_eq_ok_iff, exists_const]
  cases hids : Text.filledPieces e.text with
  | nil => simp [refuse]
  | cons id ids => simp [eq_comm]

/-! ### Attributes -/

theorem addAttribute_eq_ok_iff : addAttribute e m a = .ok m' ↔
    (a = ("re", "1") ∧ m' = { m with isRegex := true }) ∨
      (a.1 = "name" ∧ m.kind = .property ∧ m' = { m with property := some a.2 }) := by
  obtain ⟨attr, value⟩ := a
  unfold addAttribute
  by_cases hre : attr = "re"
  · by_cases hvalue : value = "1" <;> simp [hre, hvalue, refuse, eq_comm]
  · by_cases hname : attr = "name" ∧ m.kind = .property
    · simp [hname.1, hname.2, eq_comm]
    · simp only [hre, hname, if_false, refuse, reduceCtorEq, false_iff, Prod.mk.injEq, false_and, false_or]
      exact fun ⟨h, hkind, _⟩ => hname ⟨h, hkind⟩

theorem addAttribute_attributes (h : addAttribute e m a = .ok m') (hfresh : a.1 ∉ m.attributes.map (·.1)) :
    m'.kind = m.kind ∧ m'.pattern = m.pattern ∧ (m.Fits → m'.Fits) ∧ (m.attributes ++ [a]).Perm m'.attributes := by
  obtain ⟨kind, pattern, isRegex, property⟩ := m
  rcases addAttribute_eq_ok_iff.mp h with ⟨rfl, rfl⟩ | ⟨hname, hkind, rfl⟩
  · have hregex : isRegex = false := by
      cases isRegex
      · rfl
      · simp [Matcher.attributes] at hfresh
    refine ⟨rfl, rfl, id, ?_⟩
    simp [Matcher.attributes, hregex]
  · have hproperty : property = none := by
      cases property
      · rfl
      · simp [Matcher.attributes, hname] at hfresh
    refine ⟨rfl, rfl, fun _ hne => absurd hkind hne, ?_⟩
    obtain ⟨attr, value⟩ := a
    obtain rfl : attr = "name" := hname
    simp [Matcher.attributes, hproperty]

/-- Reading attributes of different names adds them to those that the matcher already has. -/
theorem foldlM_addAttribute_eq_ok_iff (hm : m.Fits) (hdistinct : ((m.attributes ++ as).map (·.1)).Nodup) :
    as.foldlM (addAttribute e) m = .ok m' ↔
      m'.kind = m.kind ∧ m'.pattern = m.pattern ∧ m'.Fits ∧ (m.attributes ++ as).Perm m'.attributes := by
  induction as generalizing m with
  | nil =>
    rw [List.append_nil]
    constructor
    · intro h
      cases h
      exact ⟨rfl, rfl, hm, List.Perm.refl _⟩
    · rintro ⟨hkind, hpattern, -, hperm⟩
      exact congrArg Except.ok (Matcher.eq_of_perm hkind.symm hpattern.symm hperm)
  | cons a as ih =>
    have hfresh : a.1 ∉ m.attributes.map (·.1) := by
      rw [List.map_append, List.nodup_append] at hdistinct
      exact fun ha => hdistinct.2.2 _ ha _ (by simp) rfl
    have hstep : ∀ {m₁}, addAttribute e m a = .ok m₁ → (as.foldlM (addAttribute e) m₁ = .ok m' ↔
        m'.kind = m.kind ∧ m'.pattern = m.pattern ∧ m'.Fits ∧ (m.attributes ++ a :: as).Perm m'.attributes) := by
      intro m₁ h₁
      obtain ⟨hkind, hpattern, hfits, hperm⟩ := addAttribute_attributes h₁ hfresh
      have hall : (m.attributes ++ a :: as).Perm (m₁.attributes ++ as) := by
        simpa using hperm.append_right as
      rw [ih (hfits hm) ((hall.map _).nodup_iff.mp hdistinct), hkind, hpattern, hall.symm.congr_left]
    rw [foldlM_cons_eq_ok_iff]
    constructor
    · rintro ⟨m₁, h₁, hrest⟩
      exact (hstep h₁).mp hrest
    · intro h
      have ⟨hkind, _, hfits, hperm⟩ := h
      have ha : a ∈ m'.attributes := hperm.mem_iff.mp (by simp)
      rcases Matcher.mem_attributes_iff.mp ha with ⟨ha, -⟩ | ⟨hname, hproperty⟩
      · have h₁ : addAttribute e m a = .ok { m with isRegex := true } := addAttribute_eq_ok_iff.mpr (Or.inl ⟨ha, rfl⟩)
        exact ⟨_, h₁, (hstep h₁).mpr h⟩
      · have hprop : m.kind = .property := by
          by_contra hne
          rw [hfits (hkind ▸ hne)] at hproperty
          cases hproperty
        have h₁ : addAttribute e m a = .ok { m with property := some a.2 } :=
          addAttribute_eq_ok_iff.mpr (Or.inr ⟨hname, hprop, rfl⟩)
        exact ⟨_, h₁, (hstep h₁).mpr h⟩

theorem matcherOfElement_eq_ok_iff (hdistinct : (e.attributes.map (·.1)).Nodup) (hname : e.name = kind.tag) :
    matcherOfElement kind e = .ok s ↔ ∃ m, m.kind = kind ∧ Matches e m ∧ m.Fits ∧
      (kind = .property → ∃ name, m.property = some name ∧ Text.blank name = false) ∧ s = .matching m := by
  have hattributes (m : Matcher) : e.attributes.foldlM (addAttribute e) { kind, pattern := e.text } = .ok m ↔
      m.kind = kind ∧ m.pattern = e.text ∧ m.Fits ∧ e.attributes.Perm m.attributes := by
    have hfits : Matcher.Fits { kind, pattern := e.text } := fun _ => rfl
    rw [foldlM_addAttribute_eq_ok_iff hfits (by simpa [Matcher.attributes] using hdistinct)]
    simp [Matcher.attributes]
  simp only [matcherOfElement, bind_eq_ok_iff, refuse_if_eq_ok_iff, checkNoChildren_eq_ok_iff, hattributes, exists_const]
  constructor
  · rintro ⟨hchildren, htext, m, ⟨hkind, hpattern, hfits, hperm⟩, hproperty, hs⟩
    refine ⟨m, hkind, ⟨hname.trans (congrArg _ hkind.symm), hchildren, by simpa using htext, hperm, hpattern⟩, hfits, ?_, ?_⟩
    · intro hk
      cases hp : m.property with
      | none => simp [hk, hp] at hproperty
      | some name => exact ⟨name, rfl, by simpa [hk, hp] using hproperty⟩
    · cases hs
      rfl
  · rintro ⟨m, hkind, h, hfits, hproperty, rfl⟩
    refine ⟨h.children, by simp [h.text], m, ⟨hkind, h.pattern, hfits, h.attributes⟩, ?_, rfl⟩
    rintro ⟨hk, hblank⟩
    obtain ⟨name, hp, hname⟩ := hproperty hk
    simp [hp, hname] at hblank

/-! ### Below the root -/

theorem combine_group (k : Connector) (hname : e.name = k.tag) :
    combine e children = membersOf e children >>= fun
      | [] => refuse e (.emptyGroup e.name)
      | members => .ok (k.selection members) := by
  rw [combine, hname, Connector.tag, Kind.ofTag?_tag]
  cases k <;> rfl

theorem combine_group_eq_ok_iff {k : Connector} (hname : e.name = k.tag) : combine e children = .ok s ↔
    Plain e ∧ ∃ members, children = .ok members ∧ members ≠ [] ∧ s = k.selection members := by
  rw [combine_group k hname, bind_eq_ok_iff]
  constructor
  · rintro ⟨members, hm, hs⟩
    obtain ⟨hplain, hm⟩ := membersOf_eq_ok_iff.mp hm
    cases members with
    | nil => cases hs
    | cons m ms =>
      cases hs
      exact ⟨hplain, m :: ms, hm, List.cons_ne_nil m ms, rfl⟩
  · rintro ⟨hplain, members, hm, hne, rfl⟩
    refine ⟨members, membersOf_eq_ok_iff.mpr ⟨hplain, hm⟩, ?_⟩
    cases members with
    | nil => exact absurd rfl hne
    | cons m ms => rfl

theorem combine_not (hname : e.name = Kind.not.tag) :
    combine e children = membersOf e children >>= fun
      | [member] => .ok (.not member)
      | _ => refuse e .notExactlyOne := by
  obtain ⟨name, span, attributes, members, text⟩ := e
  obtain rfl : name = Kind.not.tag := hname
  rfl

theorem combine_not_eq_ok_iff (hname : e.name = Kind.not.tag) : combine e children = .ok s ↔
    Plain e ∧ ∃ member, children = .ok [member] ∧ s = .not member := by
  rw [combine_not hname, bind_eq_ok_iff]
  constructor
  · rintro ⟨members, hm, hs⟩
    obtain ⟨hplain, hm⟩ := membersOf_eq_ok_iff.mp hm
    rcases members with _ | ⟨member, _ | _⟩
    · cases hs
    · cases hs
      exact ⟨hplain, member, hm, rfl⟩
    · cases hs
  · rintro ⟨hplain, member, hm, rfl⟩
    exact ⟨[member], membersOf_eq_ok_iff.mpr ⟨hplain, hm⟩, rfl⟩

theorem combine_ids (hname : e.name = Kind.ids.tag) : combine e children = idsOfElement e := by
  rw [combine, hname, Kind.ofTag?_tag]

theorem combine_property (hname : e.name = Kind.property.tag) : combine e children = matcherOfElement .property e := by
  rw [combine, hname, Kind.ofTag?_tag]

theorem combine_subject {subject : Subject} (hname : e.name = subject.kind.tag) :
    combine e children = matcherOfElement subject.kind e := by
  rw [combine, hname, Kind.ofTag?_tag]
  cases subject <;> rfl

/-- An element stands for what it is taken for, if its children do. -/
theorem means_of_combine (hdistinct : (e.attributes.map (·.1)).Nodup)
    (hchildren : ∀ members, children = .ok members → List.Forall₂ Means e.children members)
    (h : combine e children = .ok s) : Means e s := by
  rcases htag : Kind.ofTag? e.name with _ | kind
  · rw [combine, htag] at h
    cases h
  have hname : e.name = kind.tag := Kind.ofTag?_eq_some_iff.mp htag
  rcases kind.taken_cases with rfl | ⟨k, rfl⟩ | rfl | rfl | rfl | ⟨subject, rfl⟩
  · rw [combine, htag] at h
    cases h
  · obtain ⟨hplain, members, hm, hne, rfl⟩ := (combine_group_eq_ok_iff hname).mp h
    exact .group hname hplain (hchildren members hm) hne
  · obtain ⟨hplain, member, hm, rfl⟩ := (combine_not_eq_ok_iff hname).mp h
    exact .not hname hplain (hchildren [member] hm)
  · rw [combine_ids hname] at h
    obtain ⟨hattributes, hnone, hne, rfl⟩ := idsOfElement_eq_ok_iff.mp h
    exact .ids hname hattributes hnone hne
  · rw [combine_property hname] at h
    obtain ⟨m, hkind, hm, -, hproperty, rfl⟩ := (matcherOfElement_eq_ok_iff hdistinct hname).mp h
    obtain ⟨name, hp, hblank⟩ := hproperty rfl
    exact .property hkind hm hp hblank
  · rw [combine_subject hname] at h
    obtain ⟨m, hkind, hm, hfits, -, rfl⟩ := (matcherOfElement_eq_ok_iff hdistinct hname).mp h
    exact .pattern hkind hm (hfits (hkind ▸ subject.kind_ne_property))

/-- An element is taken for what it stands for, if its children are. -/
theorem combine_of_means (hdistinct : (e.attributes.map (·.1)).Nodup)
    (hchildren : ∀ members, List.Forall₂ Means e.children members → children = .ok members) (h : Means e s) :
    combine e children = .ok s := by
  cases h with
  | group hname hplain hmembers hne =>
    exact (combine_group_eq_ok_iff hname).mpr ⟨hplain, _, hchildren _ hmembers, hne, rfl⟩
  | not hname hplain hmembers =>
    exact (combine_not_eq_ok_iff hname).mpr ⟨hplain, _, hchildren _ hmembers, rfl⟩
  | ids hname hattributes hnone hne =>
    rw [combine_ids hname]
    exact idsOfElement_eq_ok_iff.mpr ⟨hattributes, hnone, hne, rfl⟩
  | @pattern _ m subject hkind hm hproperty =>
    have hname : e.name = subject.kind.tag := hkind ▸ hm.name
    rw [combine_subject hname]
    exact (matcherOfElement_eq_ok_iff hdistinct hname).mpr
      ⟨m, hkind, hm, fun _ => hproperty, fun h => absurd h subject.kind_ne_property, rfl⟩
  | @property _ m name hkind hm hproperty hblank =>
    have hname : e.name = Kind.property.tag := hkind ▸ hm.name
    rw [combine_property hname]
    exact (matcherOfElement_eq_ok_iff hdistinct hname).mpr
      ⟨m, hkind, hm, fun h => absurd hkind h, fun _ => ⟨name, hproperty, hblank⟩, rfl⟩

end

mutual

/-- An element of the grammar is taken for what it stands for by the rules. -/
theorem ofElement_eq_ok_iff {us : List Token} {e : Element} (h : MakeElement us e) :
    ∀ s, ofElement e = .ok s ↔ Means e s := by
  intro s
  match h with
  | @MakeElement.selfClosed _ attributes name span _ _ hdistinct =>
    exact ⟨means_of_combine hdistinct fun _ hm => by cases hm; exact .nil,
      combine_of_means hdistinct fun _ hm => by cases hm; rfl⟩
  | @MakeElement.enclosing _ _ _ _ _ _ _ _ _ _ hdistinct hts =>
    exact ⟨means_of_combine hdistinct fun members => (ofElements_eq_ok_iff hts members).mp,
      combine_of_means hdistinct fun members => (ofElements_eq_ok_iff hts members).mpr⟩

theorem ofElements_eq_ok_iff {ts : List Token} {children : List Element} {text : String}
    (h : MakeContent ts children text) : ∀ members, ofElements children = .ok members ↔ List.Forall₂ Means children members := by
  intro members
  match h with
  | .nil => simp [ofElements, eq_comm]
  | @MakeContent.text _ _ _ _ _ hts => exact ofElements_eq_ok_iff hts members
  | @MakeContent.child _ _ e children _ hus hts =>
    simp only [ofElements, bind_eq_ok_iff, ofElement_eq_ok_iff hus, ofElements_eq_ok_iff hts, List.forall₂_cons_left_iff]
    constructor
    · rintro ⟨s, hs, ss, hss, h⟩
      cases h
      exact ⟨s, ss, hs, hss, rfl⟩
    · rintro ⟨s, ss, hs, hss, rfl⟩
      exact ⟨s, hs, ss, hss, rfl⟩

end

/-! ### Whole documents -/

section
variable {e : Element} {s : Selection} {us ts : List Token}

theorem ofRoot_eq (hname : e.name = Kind.root.tag) :
    ofRoot e = membersOf e (ofElements e.children) >>= fun members => .ok (together members) := by
  rw [ofRoot, if_pos hname]
  congr 1
  funext members
  rcases members with _ | ⟨_, _ | _⟩ <;> rfl

theorem ofRoot_eq_ok_iff (h : MakeElement us e) : ofRoot e = .ok s ↔ RootMeans e s := by
  have hchildren : ∀ members, ofElements e.children = .ok members ↔ List.Forall₂ Means e.children members := by
    cases h with
    | selfClosed _ _ => exact ofElements_eq_ok_iff .nil
    | enclosing _ _ hts => exact ofElements_eq_ok_iff hts
  by_cases hname : e.name = Kind.root.tag
  · rw [ofRoot_eq hname, bind_eq_ok_iff]
    constructor
    · rintro ⟨members, hm, hs⟩
      obtain ⟨hplain, hm⟩ := membersOf_eq_ok_iff.mp hm
      cases hs
      exact ⟨hname, hplain, members, (hchildren members).mp hm, rfl⟩
    · rintro ⟨-, hplain, members, hm, rfl⟩
      exact ⟨members, membersOf_eq_ok_iff.mpr ⟨hplain, (hchildren members).mpr hm⟩, rfl⟩
  · refine ⟨fun hok => ?_, fun hm => absurd hm.name hname⟩
    rw [ofRoot, if_neg hname] at hok
    cases hok

/-- The tokens are taken for a selection exactly if they make a root element that stands for it, with blank
    texts around it, and no element is too deep. -/
theorem ofTokens_eq_ok_iff_means : ofTokens ts = .ok s ↔ ∃ before us after e, ts = before ++ us ++ after ∧
    Blanks before ∧ MakeElement us e ∧ Blanks after ∧ e.height ≤ maxNesting ∧ RootMeans e s := by
  simp only [ofTokens, bind_eq_ok_iff, Element.ofTokens_eq_ok_iff]
  constructor
  · rintro ⟨e, ⟨before, us, after, rfl, hbefore, hus, hafter, hheight⟩, hroot⟩
    exact ⟨before, us, after, e, rfl, hbefore, hus, hafter, hheight, (ofRoot_eq_ok_iff hus).mp hroot⟩
  · rintro ⟨before, us, after, e, rfl, hbefore, hus, hafter, hheight, hmeans⟩
    exact ⟨e, ⟨before, us, after, rfl, hbefore, hus, hafter, hheight⟩, (ofRoot_eq_ok_iff hus).mpr hmeans⟩

end

end Selection

end TestSelection
