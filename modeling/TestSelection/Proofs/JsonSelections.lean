import TestSelection.Proofs.JsonTexts
import TestSelection.Selection

/-! Selection trees as JSON texts. A well-formed value can be read back from its text, so no other one has the same text
    (`Json.compact_inj`), and the value of a tree keeps all that the tree holds (`Selection.eq_of_json`). Main statement: two
    trees with the same text are the same tree (`Selection.compact_json_inj`). -/

namespace TestSelection

namespace Json

section
variable {v w : Json} {s t : String}

theorem compact_inj (hv : v.WellFormed) (hw : w.WellFormed) : v.compact = w.compact ↔ v = w := by
  constructor
  · intro h
    have hread := read?_of_spaced (spaced_compact hv)
    rw [h, read?_of_spaced (spaced_compact hw)] at hread
    exact (Option.some.inj hread).symm
  · rintro rfl
    rfl

theorem ofText_inj : ofText s = ofText t ↔ s = t := by
  constructor
  · intro h
    have hdecode := decode?_encode s
    rw [string.inj h, decode?_encode t] at hdecode
    exact (Option.some.inj hdecode).symm
  · rintro rfl
    rfl

theorem isWritten_encode (s : String) : IsWritten (encode s).toList := (spells_encode s).isWritten

end

end Json

namespace Selection

section
variable {type : String} {v : Json}

/-! ### Well-formed values -/

theorem wellFormed_branch (hv : v.WellFormed) : (branch type v).WellFormed := by
  refine Json.wellFormed_object fun m hm => ?_
  simp only [List.mem_cons, List.not_mem_nil, or_false] at hm
  rcases hm with rfl | rfl
  · exact ⟨Json.isWritten_encode "type", Json.wellFormed_ofText type⟩
  · exact ⟨Json.isWritten_encode "value", hv⟩

theorem wellFormed_matcherJson (m : Matcher) : (matcherJson m).WellFormed := by
  refine Json.wellFormed_object fun p hp => ?_
  simp only [List.mem_append, List.mem_cons, List.not_mem_nil, or_false, Option.mem_toList,
    Option.map_eq_some_iff] at hp
  rcases hp with (rfl | rfl | rfl) | ⟨property, -, rfl⟩
  · exact ⟨Json.isWritten_encode "kind", Json.wellFormed_ofText _⟩
  · exact ⟨Json.isWritten_encode "pattern", Json.wellFormed_ofText _⟩
  · exact ⟨Json.isWritten_encode "is_regex", List.forall_mem_singleton.mpr trivial⟩
  · exact ⟨Json.isWritten_encode "property", Json.wellFormed_ofText _⟩

end

mutual

theorem wellFormed_json (s : Selection) : s.json.WellFormed := by
  match s with
  | all =>
    exact Json.wellFormed_object
      (List.forall_mem_singleton.mpr ⟨Json.isWritten_encode "type", Json.wellFormed_ofText "all"⟩)
  | and members | or members => exact wellFormed_branch (Json.wellFormed_array (wellFormed_jsonAll members))
  | not member => exact wellFormed_branch (wellFormed_json member)
  | ids testIds =>
    refine wellFormed_branch (Json.wellFormed_array fun v hv => ?_)
    obtain ⟨id, -, rfl⟩ := List.mem_map.mp hv
    exact Json.wellFormed_ofText id
  | matching m => exact wellFormed_branch (wellFormed_matcherJson m)

theorem wellFormed_jsonAll (ss : List Selection) : ∀ v ∈ jsonAll ss, v.WellFormed := by
  match ss with
  | [] => simp [jsonAll]
  | s :: ss => exact List.forall_mem_cons.mpr ⟨wellFormed_json s, wellFormed_jsonAll ss⟩

end

/-! ### Values of different trees -/

section
variable {m n : Matcher} {type type' : String} {v w : Json}

theorem branch_inj : branch type v = branch type' w ↔ type = type' ∧ v = w := by
  simp [branch, Json.ofText_inj]

theorem branch_ne_all : branch type v ≠ all.json := by
  simp [branch, json]

theorem label_inj {k l : Kind} (h : k.label = l.label) : k = l := by
  have hlabel := k.ofLabel?_label
  rw [h, l.ofLabel?_label] at hlabel
  exact (Option.some.inj hlabel).symm

theorem matcherJson_inj (h : matcherJson m = matcherJson n) : m = n := by
  obtain ⟨kind, pattern, isRegex, property⟩ := m
  obtain ⟨kind', pattern', isRegex', property'⟩ := n
  simp only [matcherJson, Json.object.injEq, List.cons_append, List.nil_append, List.cons.injEq, Prod.mk.injEq, true_and,
    Json.ofText_inj, Json.bool.injEq] at h
  obtain ⟨hkind, rfl, rfl, hproperty⟩ := h
  obtain rfl := label_inj hkind
  match property, property' with
  | none, none => rfl
  | some p, some q =>
    have hpq : Json.ofText p = Json.ofText q := by simpa using hproperty
    rw [Json.ofText_inj.mp hpq]
  | none, some _ | some _, none => simp at hproperty

end

mutual

theorem eq_of_json (s t : Selection) (h : s.json = t.json) : s = t := by
  match s with
  | all =>
    cases t with
    | all => rfl
    | _ => exact absurd h.symm branch_ne_all
  | and members =>
    cases t with
    | all => exact absurd h branch_ne_all
    | and members' => rw [eq_of_jsonAll members members' (Json.array.inj (branch_inj.mp h).2)]
    | _ => exact absurd (branch_inj.mp h).1 (by decide)
  | or members =>
    cases t with
    | all => exact absurd h branch_ne_all
    | or members' => rw [eq_of_jsonAll members members' (Json.array.inj (branch_inj.mp h).2)]
    | _ => exact absurd (branch_inj.mp h).1 (by decide)
  | not member =>
    cases t with
    | all => exact absurd h branch_ne_all
    | not member' => rw [eq_of_json member member' (branch_inj.mp h).2]
    | _ => exact absurd (branch_inj.mp h).1 (by decide)
  | ids testIds =>
    cases t with
    | all => exact absurd h branch_ne_all
    | ids testIds' =>
      have hids := Json.array.inj (branch_inj.mp h).2
      rw [List.map_injective_iff.mpr (fun _ _ => Json.ofText_inj.mp) hids]
    | _ => exact absurd (branch_inj.mp h).1 (by decide)
  | matching m =>
    cases t with
    | all => exact absurd h branch_ne_all
    | matching n => rw [matcherJson_inj (branch_inj.mp h).2]
    | _ => exact absurd (branch_inj.mp h).1 (by decide)

theorem eq_of_jsonAll (ss ts : List Selection) (h : jsonAll ss = jsonAll ts) : ss = ts := by
  match ss, ts with
  | [], [] => rfl
  | s :: ss, t :: ts =>
    obtain ⟨hs, hss⟩ := List.cons.inj h
    rw [eq_of_json s t hs, eq_of_jsonAll ss ts hss]

end

/-- No two trees have the same text. -/
theorem compact_json_inj {s t : Selection} : s.json.compact = t.json.compact ↔ s = t := by
  rw [Json.compact_inj (wellFormed_json s) (wellFormed_json t)]
  constructor
  · exact eq_of_json s t
  · rintro rfl
    rfl

end Selection

end TestSelection
