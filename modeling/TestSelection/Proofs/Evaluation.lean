import TestSelection.Proofs.RoundTrip

/-! Documents mean what chains say. A selection holds or not once its criteria do, and the document of a
    filter holds exactly if the terms of the filter do, joined one after the other from left to right
    (`Filter.holds_selection`). No connector binds tighter than the other. -/

namespace TestSelection
open Markup

/-- Whether each criterion of a selection holds for some test. -/
structure Assignment where
  ids : List String → Bool
  matching : Matcher → Bool

namespace Selection

mutual

/-- Whether a selection holds. -/
def holds (v : Assignment) : Selection → Bool
  | all => true
  | and members => holdsAll v members
  | or members => holdsAny v members
  | not member => !member.holds v
  | ids testIds => v.ids testIds
  | matching m => v.matching m

def holdsAll (v : Assignment) : List Selection → Bool
  | [] => true
  | s :: rest => s.holds v && holdsAll v rest

def holdsAny (v : Assignment) : List Selection → Bool
  | [] => false
  | s :: rest => s.holds v || holdsAny v rest

end

variable (v : Assignment)

theorem holdsAll_eq (members : List Selection) : holdsAll v members = (members.map (holds v)).all id := by
  induction members with
  | nil => rfl
  | cons s rest ih => rw [holdsAll, ih, List.map_cons, List.all_cons, id]

theorem holdsAny_eq (members : List Selection) : holdsAny v members = (members.map (holds v)).any id := by
  induction members with
  | nil => rfl
  | cons s rest ih => rw [holdsAny, ih, List.map_cons, List.any_cons, id]

end Selection

/-! ### From left to right -/

def Connector.apply : Connector → Bool → Bool → Bool
  | and => Bool.and
  | or => Bool.or

/-- Whether a term holds: its criterion does, or does not if the term is negated. -/
def Term.value (v : Assignment) (t : Term) : Bool :=
  if t.negated then !t.criterion.selection.holds v else t.criterion.selection.holds v

/-- The terms of a clause, joined one after the other. -/
def Clause.value (v : Assignment) (c : Clause) : Bool :=
  c.rest.foldl (fun value l => l.1.apply value (l.2.value v)) (c.first.value v)

/-- Whether a filter holds; one that asks for nothing always does. -/
def Filter.value (v : Assignment) : Filter → Bool
  | everything => true
  | clause c => c.value v

/-! ### Runs of truth values -/

/-- A closed run: each of its members holds, or one of them. -/
def Connector.closeValues : Connector → List Bool → Bool
  | and, values => values.all id
  | or, values => values.any id

theorem Connector.closeValues_append (k : Connector) (values : List Bool) (b : Bool) :
    k.closeValues (values ++ [b]) = k.apply (k.closeValues values) b := by
  cases k <;> simp [closeValues, apply]

theorem Connector.closeValues_singleton (k : Connector) (b : Bool) : k.closeValues [b] = b := by
  cases k <;> simp [closeValues]

section
variable (v : Assignment)

theorem Connector.holds_selection (k : Connector) (members : List Selection) :
    (k.selection members).holds v = k.closeValues (members.map (Selection.holds v)) := by
  cases k
  · exact Selection.holdsAll_eq v members
  · exact Selection.holdsAny_eq v members

theorem Term.holds_selection (t : Term) : t.selection.holds v = t.value v := by
  unfold selection value
  split <;> rfl

theorem Clause.value_concat {first : Term} {rest : List (Connector × Term)} {l : Connector × Term} :
    (⟨first, rest ++ [l]⟩ : Clause).value v = l.1.apply ((⟨first, rest⟩ : Clause).value v) (l.2.value v) := by
  simp [value, List.foldl_append]

def Clause.valueRun (c : Clause) : Run Bool := c.run Connector.closeValues (Term.value v)

/-- Closing the last run gives the value of the clause, so that grouping changes nothing. A run without a
    connector may be closed by either. -/
theorem Clause.close_valueRun (c : Clause) (k : Connector)
    (hk : (c.valueRun v).connector = none ∨ (c.valueRun v).connector = some k) :
    k.closeValues (c.valueRun v).members = c.value v := by
  obtain ⟨first, rest⟩ := c
  induction rest using List.reverseRecOn generalizing k with
  | nil => exact k.closeValues_singleton _
  | append_singleton rest l ih =>
    have hjoin : (⟨first, rest ++ [l]⟩ : Clause).valueRun v =
        ((⟨first, rest⟩ : Clause).valueRun v).join Connector.closeValues l.1 (l.2.value v) := run_concat
    rw [hjoin, Run.connector_join] at hk
    obtain rfl : l.1 = k := by simpa using hk
    rw [hjoin, value_concat]
    rcases Run.join_cases ((⟨first, rest⟩ : Clause).valueRun v) l.1 (l.2.value v) with ⟨hr, h⟩ | ⟨j, hj, -, h⟩ <;> rw [h]
    · rw [Connector.closeValues_append, ih l.1 hr]
    · rw [← ih j (Or.inr hj)]
      have happend := l.1.closeValues_append [j.closeValues ((⟨first, rest⟩ : Clause).valueRun v).members] (l.2.value v)
      rwa [Connector.closeValues_singleton] at happend

/-- A filter selects what its terms, joined from left to right, say. -/
theorem Filter.holds_selection (f : Filter) : f.selection.holds v = f.value v := by
  cases f with
  | everything => rfl
  | clause c =>
    have hvalues : c.valueRun v = ⟨(c.run Connector.selection Term.selection).connector,
        (c.run Connector.selection Term.selection).members.map (Selection.holds v)⟩ :=
      c.run_map (Term.holds_selection v) fun k members _ => k.holds_selection v members
    rw [selection, Run.selection]
    rcases hk : (c.run Connector.selection Term.selection).connector with _ | k
    · obtain ⟨hmembers, hrest⟩ := c.members_run_of_none hk
      simp only [hmembers, Selection.together, Term.holds_selection, value, Clause.value, hrest, List.foldl_nil]
    · rw [value, ← c.close_valueRun v k (by rw [hvalues, hk]; exact Or.inr rfl), hvalues]
      exact k.holds_selection v _

end

/-- Whenever the document of a finished chain can be parsed, it holds exactly if the terms of the chain do,
    joined strictly from left to right. -/
theorem Bench.Finished.holds_parse {b : Bench} {h : Handle} {f : Filter} (hf : b.Finished h f) :
    ∃ d, b.build h = .ok d ∧ ∀ s, d.parse = .ok s → ∀ v, s.holds v = f.value v := by
  refine ⟨f.document, hf.build_eq, fun s hs v => ?_⟩
  rcases f.parse_document with ⟨-, span, hparse⟩ | ⟨-, ⟨-, hparse⟩ | ⟨-, span, hparse⟩⟩ <;> rw [hparse] at hs
  · cases hs
  · cases hs
    exact f.holds_selection v
  · cases hs

/-- With everything but `d`, `a and b or not c and d` does not hold: the last `and` joins all that is before it. -/
theorem Bench.Finished.holds_alternating : ∃ b h d s, Bench.Finished b h Filter.alternating ∧ b.build h = .ok d ∧
    d.parse = .ok s ∧ s.holds ⟨fun _ => true, fun m => m.pattern != "d"⟩ = false := by
  obtain ⟨b, h, hf⟩ := Bench.exists_finished Filter.alternating
  obtain ⟨d, hbuild, hholds⟩ := Bench.Finished.holds_parse hf
  have hdepth : Filter.alternating.depth ≤ maxNesting := by decide
  have hids : ∀ t ∈ Filter.alternating.terms, ¬t.criterion.LacksIds := by
    simp [Filter.alternating, Filter.terms, Criterion.LacksIds]
  obtain rfl : Filter.alternating.document = d := Except.ok.inj (hf.build_eq.symm.trans hbuild)
  have hparse := Filter.alternating.parse_eq_ok hdepth hids
  exact ⟨b, h, _, _, hf, hbuild, hparse, hholds _ hparse _⟩

end TestSelection
