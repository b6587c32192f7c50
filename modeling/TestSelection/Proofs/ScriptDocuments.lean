import TestSelection.Proofs.Nesting
import TestSelection.Proofs.Pieces
import TestSelection.Proofs.RoundTrip
import TestSelection.Proofs.ScriptGrammar

/-! Documents of scripts. What a script spells never lacks an id, so only one thing can be wrong with its document: too
    many levels of elements. Main statement: a document that was read from words is parsed exactly if it is nested at
    most `maxNesting` levels deep (`Filter.parse_of_read`). -/

namespace TestSelection
open Markup

namespace Script

section
variable {ws : List Word} {c : Criterion} {t : Term} {cl : Clause} {ls : List (Connector × Term)} {f : Filter}

/-! ### Ids in scripts -/

theorem SpellsCriterion.not_lacksIds (h : SpellsCriterion ws c) : ¬c.LacksIds := by
  rintro ⟨joined, rfl, hnone⟩
  cases h with
  | ids _ hkept hne hjoined =>
    rw [← hjoined] at hnone
    exact Text.filledPieces_intercalate_ne_nil (fun t ht => (hkept.mem_iff t).mp ht) hne hnone

theorem SpellsTerm.not_lacksIds (h : SpellsTerm ws t) : ¬t.criterion.LacksIds := by
  cases h with
  | criterion h => exact h.not_lacksIds
  | negation _ h => exact h.not_lacksIds

theorem SpellsLinks.not_lacksIds (h : SpellsLinks ws ls) : ∀ l ∈ ls, ¬l.2.criterion.LacksIds := by
  induction h with
  | nil => simp
  | cons _ ht _ ih => exact List.forall_mem_cons.mpr ⟨ht.not_lacksIds, ih⟩

theorem SpellsClause.not_lacksIds (h : SpellsClause ws cl) : ∀ t ∈ (Filter.clause cl).terms, ¬t.criterion.LacksIds := by
  obtain ⟨hfirst, hrest⟩ := h
  refine List.forall_mem_cons.mpr ⟨hfirst.not_lacksIds, fun t ht => ?_⟩
  obtain ⟨l, hl, rfl⟩ := List.mem_map.mp ht
  exact hrest.not_lacksIds l hl

theorem not_lacksIds_of_read (h : read ws = .ok f) : ∀ t ∈ f.terms, ¬t.criterion.LacksIds := by
  rcases read_eq_ok_iff.mp h with ⟨-, rfl⟩ | ⟨cl, hcl, rfl⟩
  · simp [Filter.terms]
  · exact hcl.not_lacksIds

end

end Script

/-! ### Parsing -/

/-- A document is parsed, unless it is nested too deep. -/
def Document.ParsesToCap (d : Document) : Prop :=
  (d.nesting ≤ maxNesting ∧ ∃ s, d.parse = .ok s) ∨
    (maxNesting < d.nesting ∧ ∃ span, d.parse = .error ⟨.tooDeep, some span⟩)

theorem Filter.parse_of_read {ws : List Script.Word} {f : Filter} (h : Script.read ws = .ok f) : f.document.ParsesToCap := by
  rw [Document.ParsesToCap, f.nesting_document]
  rcases f.parse_document with hdeep | ⟨hfit, ⟨-, hparse⟩ | ⟨⟨t, ht, hlacks⟩, -⟩⟩
  · exact Or.inr hdeep
  · exact Or.inl ⟨hfit, _, hparse⟩
  · exact absurd hlacks (Script.not_lacksIds_of_read h t ht)

namespace Script
variable {source : String} {args : List String} {d : Document}

theorem exists_read_of_compile (h : compile source = .ok d) : ∃ ws f, read ws = .ok f ∧ d = f.document := by
  obtain ⟨ws, -, hread⟩ := bind_eq_ok_iff.mp h
  obtain ⟨f, hf, hdocument⟩ := bind_eq_ok_iff.mp hread
  exact ⟨ws, f, hf, (Except.ok.inj hdocument).symm⟩

theorem parsesToCap_of_compile (h : compile source = .ok d) : d.ParsesToCap := by
  obtain ⟨ws, f, hf, rfl⟩ := exists_read_of_compile h
  exact Filter.parse_of_read hf

end Script

end TestSelection
