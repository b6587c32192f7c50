import Mathlib.Data.List.Induction
import TestSelection.Clause

/-! How the terms of a clause are grouped. Terms that follow each other with one connector form a run, and
    where the connector changes, the run so far is closed and becomes the first member of a new one. What a
    closed run and a term are is left open: text, a selection, a truth value. -/

namespace TestSelection

/-- Members that follow each other with one connector; a single member has none yet. -/
structure Run (α : Type) where
  connector : Option Connector := none
  members : List α

def Run.join {α : Type} (close : Connector → List α → α) (r : Run α) (k : Connector) (a : α) : Run α :=
  match r.connector with
  | none => ⟨some k, r.members ++ [a]⟩
  | some j => if j = k then ⟨some k, r.members ++ [a]⟩ else ⟨some k, [close j r.members, a]⟩

/-- The last run of a clause; the runs before it are closed inside its first member. -/
def Clause.run {α : Type} (close : Connector → List α → α) (leaf : Term → α) (c : Clause) : Run α :=
  c.rest.foldl (fun r l => r.join close l.1 (leaf l.2)) { members := [leaf c.first] }

section
variable {α β : Type} {close : Connector → List α → α} {leaf : Term → α} {first : Term}
  {rest : List (Connector × Term)} {l : Connector × Term}

/-- A member goes on with the run, unless the run has the other connector. -/
theorem Run.join_cases (r : Run α) (k : Connector) (a : α) :
    ((r.connector = none ∨ r.connector = some k) ∧ r.join close k a = ⟨some k, r.members ++ [a]⟩) ∨
      ∃ j, r.connector = some j ∧ j ≠ k ∧ r.join close k a = ⟨some k, [close j r.members, a]⟩ := by
  rcases h : r.connector with _ | j
  · exact Or.inl ⟨Or.inl rfl, by simp [join, h]⟩
  · by_cases hj : j = k
    · exact Or.inl ⟨Or.inr (congrArg some hj), by simp [join, h, hj]⟩
    · exact Or.inr ⟨j, rfl, hj, by simp [join, h, hj]⟩

theorem Run.connector_join (r : Run α) (k : Connector) (a : α) : (r.join close k a).connector = some k := by
  rcases r.join_cases k a with ⟨-, h⟩ | ⟨_, -, -, h⟩ <;> rw [h]

theorem Clause.run_nil : (⟨first, []⟩ : Clause).run close leaf = { members := [leaf first] } := rfl

theorem Clause.run_concat : (⟨first, rest ++ [l]⟩ : Clause).run close leaf =
    ((⟨first, rest⟩ : Clause).run close leaf).join close l.1 (leaf l.2) := by
  simp [run, List.foldl_append]

theorem Clause.connector_run (c : Clause) : (c.run close leaf).connector = c.rest.getLast?.map (·.1) := by
  obtain ⟨first, rest⟩ := c
  cases rest using List.reverseRecOn with
  | nil => rfl
  | append_singleton rest l => rw [run_concat, Run.connector_join, List.getLast?_concat, Option.map_some]

theorem Clause.members_run_of_none (c : Clause) (h : (c.run close leaf).connector = none) :
    (c.run close leaf).members = [leaf c.first] ∧ c.rest = [] := by
  obtain ⟨first, rest⟩ := c
  cases rest using List.reverseRecOn with
  | nil => exact ⟨rfl, rfl⟩
  | append_singleton rest l =>
    rw [run_concat, Run.connector_join] at h
    cases h

/-- A run has members, and they are all alike if terms and closed runs are. -/
theorem Clause.members_run {P : α → Prop} (hleaf : ∀ t, P (leaf t))
    (hclose : ∀ k members, members ≠ [] → (∀ m ∈ members, P m) → P (close k members)) (c : Clause) :
    (c.run close leaf).members ≠ [] ∧ ∀ m ∈ (c.run close leaf).members, P m := by
  obtain ⟨first, rest⟩ := c
  induction rest using List.reverseRecOn with
  | nil => simp [run_nil, hleaf]
  | append_singleton rest l ih =>
    obtain ⟨hne, hmem⟩ := ih
    rw [run_concat]
    rcases Run.join_cases ((⟨first, rest⟩ : Clause).run close leaf) l.1 (leaf l.2) with ⟨-, h⟩ | ⟨j, -, -, h⟩ <;> rw [h]
    · refine ⟨by simp, fun m hm => ?_⟩
      rcases List.mem_append.mp hm with hm | hm
      · exact hmem m hm
      · exact List.mem_singleton.mp hm ▸ hleaf l.2
    · simpa [hleaf] using hclose j _ hne hmem

theorem Clause.members_run_ne_nil (c : Clause) : (c.run close leaf).members ≠ [] :=
  (c.members_run (P := fun _ => True) (fun _ => trivial) fun _ _ _ _ => trivial).1

theorem Clause.exists_members_run {k : Connector} (c : Clause) (h : (c.run close leaf).connector = some k) :
    ∃ a b more, (c.run close leaf).members = a :: b :: more := by
  obtain ⟨first, rest⟩ := c
  cases rest using List.reverseRecOn with
  | nil => cases h
  | append_singleton rest l =>
    rw [run_concat]
    rcases Run.join_cases ((⟨first, rest⟩ : Clause).run close leaf) l.1 (leaf l.2) with ⟨-, h⟩ | ⟨j, -, -, h⟩ <;> rw [h]
    · have hne : ((⟨first, rest⟩ : Clause).run close leaf).members ≠ [] := members_run_ne_nil _
      obtain ⟨a, members, hmembers⟩ := List.exists_cons_of_ne_nil hne
      cases members <;> simp [hmembers]
    · exact ⟨_, _, [], rfl⟩

/-- A function that carries terms and closed runs over carries the grouping over. -/
theorem Clause.run_map {close' : Connector → List β → β} {leaf' : Term → β} {g : α → β}
    (hleaf : ∀ t, g (leaf t) = leaf' t)
    (hclose : ∀ k members, members ≠ [] → g (close k members) = close' k (members.map g)) (c : Clause) :
    c.run close' leaf' = ⟨(c.run close leaf).connector, (c.run close leaf).members.map g⟩ := by
  obtain ⟨first, rest⟩ := c
  induction rest using List.reverseRecOn with
  | nil => simp [run_nil, hleaf]
  | append_singleton rest l ih =>
    rw [run_concat, run_concat, ih, ← hleaf]
    rcases hr : ((⟨first, rest⟩ : Clause).run close leaf).connector with _ | j
    · simp [Run.join, hr]
    · by_cases hj : j = l.1
      · simp [Run.join, hr, hj]
      · simp [Run.join, hr, hj, hclose j _ (members_run_ne_nil _)]

end

end TestSelection
