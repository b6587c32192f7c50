import Mathlib.Data.List.Induction
import Mathlib.Data.List.Sort
import TestSelection.Criterion.Checked
import TestSelection.Text.Basic

/-! Criteria that are asked for by plain texts. The request says by itself whether it is refused and why:
    a blank pattern or name, a blank value, or no id that is more than white space (`Creator.make_cases`). What is
    made otherwise has just the texts that were asked for; of the ids, each one at its first place
    (`Criterion.ofIds_eq_ok_iff`). -/

namespace TestSelection

/-! ### Blank texts -/

namespace Text
variable {s : String} {ss : List String}

/-- Trimming takes away white space only, so it leaves something of a text that has anything else. -/
theorem blank_trim : blank (trim s) = blank s := by
  cases h : blank s with
  | true =>
    rw [trim_eq_empty_iff.mpr h]
    rfl
  | false =>
    have hne : ((s.toList.dropWhile isBlank).reverse.dropWhile isBlank) ≠ [] := fun hnil => by
      have hempty : trim s = "" := by rw [trim, trimChars, hnil]; rfl
      rw [trim_eq_empty_iff.mp hempty] at h
      cases h
    rw [blank, trim, String.toList_ofList, trimChars, List.all_reverse, List.all_eq_false]
    exact ⟨_, List.head_mem hne, by simp [List.head_dropWhile_not isBlank hne]⟩

theorem blank_of_mem_of_blank_intercalate {separator : String} (h : blank (separator.intercalate ss) = true) :
    ∀ s ∈ ss, blank s = true := by
  induction ss with
  | nil => simp
  | cons t ts ih =>
    cases ts with
    | nil =>
      rw [String.intercalate_singleton] at h
      exact List.forall_mem_singleton.mpr h
    | cons u us =>
      rw [String.intercalate_cons_cons, blank_append, blank_append, Bool.and_eq_true, Bool.and_eq_true] at h
      exact List.forall_mem_cons.mpr ⟨h.1.1, ih h.2⟩

theorem Filled.of?_eq_none (h : blank s = true) : Filled.of? s = none := by
  rw [Filled.of?, dif_neg (by simp [h])]

theorem Filled.exists_of? (h : blank s = false) : ∃ t, Filled.of? s = some t := ⟨⟨s, h⟩, dif_pos h⟩

theorem Filled.of?_eq_some_iff {t : Filled} : Filled.of? s = some t ↔ s = t.text := by
  obtain ⟨text, filled⟩ := t
  rw [Filled.of?]
  constructor
  · split
    · intro h
      exact congrArg Filled.text (Option.some.inj h)
    · nofun
  · rintro rfl
    exact dif_pos filled

/-! ### First places -/

/-- Some texts without the repetitions: each of them once, in the order of their first places. -/
structure FirstPlaces (texts kept : List String) : Prop where
  mem_iff : ∀ s, s ∈ kept ↔ s ∈ texts
  order : kept.Pairwise fun s t => texts.idxOf s < texts.idxOf t

theorem firstPlaces_eraseDups (texts : List String) : FirstPlaces texts texts.eraseDups := by
  refine ⟨fun s => List.mem_eraseDups, ?_⟩
  induction texts using List.reverseRecOn with
  | nil => exact List.Pairwise.nil
  | append_singleton texts t ih =>
    -- A text further back changes no first place in front of it.
    have hfront : texts.eraseDups.Pairwise fun r s => (texts ++ [t]).idxOf r < (texts ++ [t]).idxOf s := by
      refine ih.imp_of_mem fun {r s} hr hs hlt => ?_
      rwa [List.idxOf_append_of_mem (List.mem_eraseDups.mp hr), List.idxOf_append_of_mem (List.mem_eraseDups.mp hs)]
    rw [List.eraseDups_append]
    by_cases ht : t ∈ texts
    · have hnone : [t].removeAll texts = [] := by simp [List.removeAll, ht]
      rwa [hnone, List.eraseDups_nil, List.append_nil]
    · have hone : ([t].removeAll texts).eraseDups = [t] := by simp [List.removeAll, List.eraseDups_cons, ht]
      rw [hone, List.pairwise_append]
      refine ⟨hfront, List.pairwise_singleton _ _, fun s hs t' ht' => ?_⟩
      obtain rfl := List.mem_singleton.mp ht'
      have hs' := List.mem_eraseDups.mp hs
      rw [List.idxOf_append_of_mem hs', List.idxOf_append_of_notMem ht]
      exact Nat.lt_add_right _ (List.idxOf_lt_length_of_mem hs')

theorem FirstPlaces.nodup {texts kept : List String} (h : FirstPlaces texts kept) : kept.Nodup := h.order.imp fun hlt heq => by
  rw [heq] at hlt
  exact Nat.lt_irrefl _ hlt

theorem FirstPlaces.unique {texts as bs : List String} (ha : FirstPlaces texts as) (hb : FirstPlaces texts bs) : as = bs := by
  have hperm : as.Perm bs := (List.perm_ext_iff_of_nodup ha.nodup hb.nodup).mpr fun s => by
    rw [ha.mem_iff, hb.mem_iff]
  exact hperm.eq_of_pairwise (fun s t _ _ hst hts => absurd hts (Nat.lt_asymm hst)) ha.order hb.order

end Text

open Text

/-! ### Ids -/

section
variable {testIds : List String}

theorem Criterion.mem_keptIds {s : String} : s ∈ keptIds testIds ↔ s ≠ "" ∧ ∃ t ∈ testIds, trim t = s := by
  rw [keptIds, List.mem_eraseDups, List.mem_filter, List.mem_map, decide_eq_true_iff, and_comm]

theorem Criterion.keptIds_eq_nil_iff : keptIds testIds = [] ↔ ∀ t ∈ testIds, blank t = true := by
  rw [List.eq_nil_iff_forall_not_mem]
  constructor
  · intro h t ht
    exact trim_eq_empty_iff.mp (Decidable.not_not.mp fun hne => h (trim t) (mem_keptIds.mpr ⟨hne, t, ht, rfl⟩))
  · intro h s hs
    obtain ⟨hne, t, ht, rfl⟩ := mem_keptIds.mp hs
    exact hne (trim_eq_empty_iff.mpr (h t ht))

/-- The ids that are kept are joined to a text that is not blank, if there are any. -/
theorem Criterion.blank_joined_iff : blank (",".intercalate (keptIds testIds)) = true ↔ ∀ t ∈ testIds, blank t = true := by
  constructor
  · intro h
    rw [← keptIds_eq_nil_iff, List.eq_nil_iff_forall_not_mem]
    intro s hs
    obtain ⟨hne, t, -, rfl⟩ := mem_keptIds.mp hs
    have := blank_of_mem_of_blank_intercalate h _ hs
    rw [blank_trim] at this
    exact hne (trim_eq_empty_iff.mpr this)
  · intro h
    rw [keptIds_eq_nil_iff.mpr h, String.intercalate_nil]
    rfl

end

/-! ### What is made -/

section
variable {s name value : String} {subject : Subject} {isRegex : Bool} {testIds : List String} {c : Criterion}

theorem Criterion.ofKind_eq_ok_iff : ofKind subject.kind s isRegex = .ok c ↔
    ∃ t : Filled, s = t.text ∧ c = .pattern subject t isRegex := by
  have hsubject : Subject.ofKind? subject.kind = some subject := Subject.ofKind?_eq_some_iff.mpr rfl
  simp only [ofKind, hsubject, ← Filled.of?_eq_some_iff]
  cases Filled.of? s <;> simp [eq_comm]

theorem Criterion.ofProperty_eq_ok_iff : ofProperty name value isRegex = .ok c ↔
    ∃ n v : Filled, name = n.text ∧ value = v.text ∧ c = .property n v isRegex := by
  simp only [ofProperty, ← Filled.of?_eq_some_iff]
  cases Filled.of? name <;> cases Filled.of? value <;> simp [eq_comm]

/-- The ids that are not blank, trimmed and each at its first place, are joined by commas; there has to be one. -/
theorem Criterion.ofIds_eq_ok_iff : ofIds testIds = .ok c ↔ ∃ kept, FirstPlaces ((testIds.map trim).filter (· ≠ "")) kept ∧
    kept ≠ [] ∧ ∃ joined : Filled, ",".intercalate kept = joined.text ∧ c = .ids joined := by
  have hkept : FirstPlaces ((testIds.map trim).filter (· ≠ "")) (keptIds testIds) := firstPlaces_eraseDups _
  simp only [ofIds]
  constructor
  · intro h
    split at h
    · rename_i joined hsome
      cases h
      have hjoined := Filled.of?_eq_some_iff.mp hsome
      refine ⟨_, hkept, fun hnil => ?_, joined, hjoined, rfl⟩
      have hfilled := joined.filled
      rw [← hjoined, hnil] at hfilled
      cases hfilled
    · cases h
  · rintro ⟨kept, hfirst, -, joined, hjoined, rfl⟩
    rw [hkept.unique hfirst, Filled.of?_eq_some_iff.mpr hjoined]

end

/-! ### Creators -/

/-- The ways to ask for a criterion by plain texts: a pattern on one of the subjects, a property, or ids. -/
inductive Creator where
  | pattern (subject : Subject) (text : String) (isRegex : Bool)
  | property (name value : String) (isRegex : Bool)
  | ids (testIds : List String)

namespace Creator

def recipe : Creator → Criterion.Recipe
  | pattern subject text isRegex => .ofKind subject.kind text isRegex
  | property name value isRegex => .ofProperty name value isRegex
  | ids testIds => .ofIds testIds

/-- Why the arguments are refused, if they are. -/
def refusal? : Creator → Option FilterError
  | pattern _ text _ => if blank text then some .blankName else none
  | property name value _ => if blank name then some .blankName else if blank value then some .blankValue else none
  | ids testIds => if testIds.all blank then some .noTestIds else none

theorem category_of_refusal {r : Creator} {e : FilterError} (h : r.refusal? = some e) : e.category = .validation := by
  cases r with
  | pattern subject text isRegex =>
    simp only [refusal?] at h
    split at h <;> cases h
    rfl
  | property name value isRegex =>
    simp only [refusal?] at h
    split at h
    · cases h
      rfl
    · split at h <;> cases h
      rfl
  | ids testIds =>
    simp only [refusal?] at h
    split at h <;> cases h
    rfl

/-- Making the criterion fails for the refusal, and succeeds if there is none. -/
theorem make_cases (r : Creator) : (∃ e, r.refusal? = some e ∧ r.recipe.make = .error e) ∨
    (r.refusal? = none ∧ ∃ c, r.recipe.make = .ok c) := by
  cases r with
  | pattern subject text isRegex =>
    have hsubject : Subject.ofKind? subject.kind = some subject := Subject.ofKind?_eq_some_iff.mpr rfl
    cases htext : blank text with
    | true =>
      exact Or.inl ⟨.blankName, by simp [refusal?, htext],
        by simp [recipe, Criterion.Recipe.make, Criterion.ofKind, hsubject, Filled.of?_eq_none htext]⟩
    | false =>
      obtain ⟨t, ht⟩ := Filled.exists_of? htext
      exact Or.inr ⟨by simp [refusal?, htext], .pattern subject t isRegex,
        by simp [recipe, Criterion.Recipe.make, Criterion.ofKind, hsubject, ht]⟩
  | property name value isRegex =>
    cases hname : blank name with
    | true =>
      exact Or.inl ⟨.blankName, by simp [refusal?, hname],
        by simp [recipe, Criterion.Recipe.make, Criterion.ofProperty, Filled.of?_eq_none hname]⟩
    | false =>
      obtain ⟨n, hn⟩ := Filled.exists_of? hname
      cases hvalue : blank value with
      | true =>
        exact Or.inl ⟨.blankValue, by simp [refusal?, hname, hvalue],
          by simp [recipe, Criterion.Recipe.make, Criterion.ofProperty, hn, Filled.of?_eq_none hvalue]⟩
      | false =>
        obtain ⟨v, hv⟩ := Filled.exists_of? hvalue
        exact Or.inr ⟨by simp [refusal?, hname, hvalue], .property n v isRegex,
          by simp [recipe, Criterion.Recipe.make, Criterion.ofProperty, hn, hv]⟩
  | ids testIds =>
    cases hids : blank (",".intercalate (Criterion.keptIds testIds)) with
    | true =>
      have hall : testIds.all blank = true := List.all_eq_true.mpr (Criterion.blank_joined_iff.mp hids)
      exact Or.inl ⟨.noTestIds, by simp only [refusal?, hall, if_true],
        by simp [recipe, Criterion.Recipe.make, Criterion.ofIds, Filled.of?_eq_none hids]⟩
    | false =>
      have hall : ¬testIds.all blank = true := fun hall => by
        rw [Criterion.blank_joined_iff.mpr (List.all_eq_true.mp hall)] at hids
        cases hids
      obtain ⟨joined, hjoined⟩ := Filled.exists_of? hids
      exact Or.inr ⟨by simp only [refusal?, if_neg hall], .ids joined,
        by simp [recipe, Criterion.Recipe.make, Criterion.ofIds, hjoined]⟩

end Creator

end TestSelection
