import TestSelection.Proofs.Fluent

/-! Reading a chain gives back the filter that it spells. The walk up from the last node sees the parts from
    the last one on. Over a term it puts the criterion in front of what it has read and then negates it,
    over a connector it makes the term a link (`ascend_term`, `ascend_connector`); so at the root it holds
    the whole clause (`ascend_clause`). -/

namespace TestSelection

/-! ### The part of a node -/

section
variable {n : Node} {c : Criterion} {k : Connector} {t : Term} {rest : List (Connector × Term)} {id : NodeId}

theorem Node.kind_of_negation (h : n.part? = some .negation) : n.kind = .not := by
  cases hk : n.kind <;> simp [part?, hk] at h ⊢

theorem Node.kind_of_connector (h : n.part? = some (.connector k)) : n.kind = k.kind := by
  cases hk : n.kind <;> simp [part?, hk] at h ⊢ <;> subst h <;> rfl

theorem Node.kind_of_criterion (h : n.part? = some (.criterion c)) :
    n.kind.isCriterion = true ∧ n.criterion = some c := by
  cases hk : n.kind <;> simp [part?, hk] at h ⊢ <;> exact ⟨rfl, h⟩

theorem Passage.prepend_negation (h : n.part? = some .negation) :
    Passage.prepend ⟨some ⟨c, false⟩, rest⟩ id n = .ok ⟨some ⟨c, true⟩, rest⟩ := by
  simp [prepend, Node.kind_of_negation h]

theorem Passage.prepend_connector (h : n.part? = some (.connector k)) :
    Passage.prepend ⟨some t, rest⟩ id n = .ok ⟨none, (k, t) :: rest⟩ := by
  cases k <;> simp [prepend, Node.kind_of_connector h, Connector.kind, connect]

theorem Passage.prepend_criterion (h : n.part? = some (.criterion c)) (below : Passage) :
    below.prepend id n = .ok ⟨some ⟨c, false⟩, below.rest⟩ := by
  obtain ⟨hkind, hcriterion⟩ := Node.kind_of_criterion h
  unfold prepend
  split <;> rename_i hk
  any_goals
    rw [hk] at hkind
    cases hkind
  simp [hcriterion]

end

theorem Kind.mayPrecede_connector {kind : Kind} (h : kind.isCriterion = true) (k : Connector) :
    kind.mayPrecede k.kind = true := by
  cases kind
  case root | and | or | not => cases h
  all_goals cases k <;> rfl

theorem Term.parts_eq_append (t : Term) : ∃ ps, t.parts = ps ++ [.criterion t.criterion] := by
  obtain ⟨c, _ | _⟩ := t
  · exact ⟨[], rfl⟩
  · exact ⟨[.negation], rfl⟩

theorem Clause.parts_eq_append (c : Clause) : ∃ ps criterion, c.parts = ps ++ [.criterion criterion] := by
  obtain ⟨first, rest⟩ := c
  cases rest using List.reverseRecOn with
  | nil =>
    obtain ⟨ps, hps⟩ := first.parts_eq_append
    exact ⟨ps, first.criterion, by simpa [parts] using hps⟩
  | append_singleton rest l =>
    obtain ⟨ps, hps⟩ := l.2.parts_eq_append
    refine ⟨(⟨first, rest⟩ : Clause).parts ++ .connector l.1 :: ps, l.2.criterion, ?_⟩
    simp [parts, hps]

theorem Filter.parts_eq_nil_iff {f : Filter} : f.parts = [] ↔ f = .everything := by
  cases f with
  | everything => simp [parts]
  | clause c =>
    obtain ⟨ps, criterion, hps⟩ := c.parts_eq_append
    simp [parts, hps]

namespace Chain

/-! ### Nodes that links lead to -/

/-- Links that agree in both directions lead from a root down to a node, over nodes with these parts. -/
inductive Reaches (c : Chain) : NodeId → Node → List Part → Prop where
  | root {id : NodeId} {n : Node} (hn : c.get? id = some n) (hkind : n.kind = .root) (hparent : n.parent = none) :
      Reaches c id n []
  | step {up id : NodeId} {parent n : Node} {ps : List Part} {p : Part} (h : Reaches c up parent ps)
      (hchild : parent.child.value = some id) (hn : c.get? id = some n) (hparent : n.parent = some up)
      (hpart : n.part? = some p) : Reaches c id n (ps ++ [p])

section
variable {c : Chain} {id up : NodeId} {n parent : Node} {ps : List Part} {p : Part} {k : Connector}

theorem Reaches.get? (h : c.Reaches id n ps) : c.get? id = some n := by
  cases h with
  | root hn _ _ => exact hn
  | step _ _ hn _ _ => exact hn

theorem Reaches.of_nil (h : c.Reaches id n []) : n.kind = .root ∧ n.parent = none := by
  generalize hps : ([] : List Part) = ps at h
  cases h with
  | root _ hkind hparent => exact ⟨hkind, hparent⟩
  | step => simp at hps

theorem Reaches.of_append (h : c.Reaches id n (ps ++ [p])) : ∃ up parent, c.Reaches up parent ps ∧
    parent.child.value = some id ∧ n.parent = some up ∧ n.part? = some p := by
  generalize hps : ps ++ [p] = qs at h
  cases h with
  | root => simp at hps
  | step h hchild hn hparent hpart =>
    obtain ⟨rfl, hp⟩ := List.append_inj' hps rfl
    cases hp
    exact ⟨_, _, h, hchild, hparent, hpart⟩

theorem Spells.reaches (h : c.Spells ps) : ∀ {id : Nat} {n : Node}, nodeAt ps id = some n → c.Reaches id n (ps.take id)
  | 0, n, hn => by
    have hget := (h 0).trans hn
    cases hn
    exact .root hget rfl rfl
  | up + 1, n, hn => by
    have hget := (h (up + 1)).trans hn
    obtain ⟨p, hp, rfl⟩ := Option.map_eq_some_iff.mp hn
    have hlt : up < ps.length := (List.getElem?_eq_some_iff.mp hp).1
    obtain ⟨parent, hparent⟩ := Option.isSome_iff_exists.mp (nodeAt_isSome.mpr (Nat.le_of_lt hlt))
    have hchild : parent.child.value = some (up + 1) := by simp [child_of_nodeAt hparent, linkAt, hlt]
    have := (h.reaches hparent).step hchild hget rfl (Node.part?_of_kind rfl rfl)
    rwa [List.take_add_one, hp]

/-! ### One move up -/

theorem parentOf_eq {kind : Kind} (hparent : c.get? up = some parent) (hchild : parent.child.value = some id)
    (hlegal : parent.kind.mayPrecede kind = true) : c.parentOf id kind up = .ok parent := by
  simp [parentOf, hparent, hchild, hlegal]

theorem ascend_succ {moves : Nat} {below above : Passage} (hpre : below.prepend id n = .ok above)
    (hn : n.parent = some up) (hparent : c.parentOf id n.kind up = .ok parent) :
    c.ascend (moves + 1) id n below = c.ascend moves up parent above := by
  rw [ascend, hpre]
  simp only [bind, Except.bind, hn, hparent]

theorem ascend_root {moves : Nat} {below : Passage} (h : c.Reaches id n []) :
    c.ascend moves id n below = .ok below.filter := by
  obtain ⟨hkind, hparent⟩ := h.of_nil
  rw [ascend.eq_def]
  simp [Passage.prepend, hkind, hparent, bind, Except.bind]

end

/-! ### Moves over terms and connectors -/

section
variable {c : Chain} {id : NodeId} {n : Node} {ps : List Part}

/-- A term may stand behind these parts: there are none, or the last one is a connector. -/
def OpenEnd (ps : List Part) : Prop := ps = [] ∨ ∃ qs k, ps = qs ++ [.connector k]

theorem mayPrecede_of_openEnd {parent : Node} {up : NodeId} (hopen : OpenEnd ps) (h : c.Reaches up parent ps)
    (hkind : n.kind = .not ∨ n.kind.isCriterion = true) : parent.kind.mayPrecede n.kind = true := by
  have hparent : parent.kind = .root ∨ parent.kind = .and ∨ parent.kind = .or := by
    rcases hopen with rfl | ⟨qs, k, rfl⟩
    · exact Or.inl h.of_nil.1
    · obtain ⟨-, -, -, -, -, hpart⟩ := h.of_append
      cases k <;> simp [Node.kind_of_connector hpart, Connector.kind]
  rcases hparent with h | h | h <;> rcases hkind with hk | hk <;> simp [h, hk, Kind.mayPrecede]

/-- Over a term: what was read below it then starts with this term. -/
theorem ascend_term {t : Term} (hopen : OpenEnd ps) (h : c.Reaches id n (ps ++ t.parts)) (moves : Nat)
    (rest : List (Connector × Term)) : ∃ up parent, c.Reaches up parent ps ∧
      c.ascend (moves + t.parts.length) id n ⟨none, rest⟩ = c.ascend moves up parent ⟨some t, rest⟩ := by
  obtain ⟨criterion, _ | _⟩ := t
  · obtain ⟨up, parent, hup, hchild, hn, hpart⟩ := h.of_append
    have hlegal := mayPrecede_of_openEnd hopen hup (Or.inr (Node.kind_of_criterion hpart).1)
    exact ⟨up, parent, hup,
      ascend_succ (Passage.prepend_criterion hpart _) hn (parentOf_eq hup.get? hchild hlegal)⟩
  · -- The criterion comes first on the way up, and the negation then wraps it.
    have h' : c.Reaches id n ((ps ++ [.negation]) ++ [.criterion criterion]) := by
      simpa [Term.parts] using h
    obtain ⟨mid, negation, hmid, hchild, hn, hpart⟩ := h'.of_append
    obtain ⟨up, parent, hup, hchild', hn', hpart'⟩ := hmid.of_append
    have hnot := Node.kind_of_negation hpart'
    have hlegal : negation.kind.mayPrecede n.kind = true := by
      rw [hnot]
      exact (Node.kind_of_criterion hpart).1
    have hlegal' := mayPrecede_of_openEnd hopen hup (Or.inl hnot)
    refine ⟨up, parent, hup, ?_⟩
    calc c.ascend (moves + 2) id n ⟨none, rest⟩
        = c.ascend (moves + 1) mid negation ⟨some ⟨criterion, false⟩, rest⟩ :=
          ascend_succ (Passage.prepend_criterion hpart _) hn (parentOf_eq hmid.get? hchild hlegal)
      _ = c.ascend moves up parent ⟨some ⟨criterion, true⟩, rest⟩ :=
          ascend_succ (Passage.prepend_negation hpart') hn' (parentOf_eq hup.get? hchild' hlegal')

/-- Over a connector: the term read last becomes a link. -/
theorem ascend_connector {k : Connector} {criterion : Criterion}
    (h : c.Reaches id n ((ps ++ [.criterion criterion]) ++ [.connector k])) (moves : Nat) (t : Term)
    (rest : List (Connector × Term)) : ∃ up parent, c.Reaches up parent (ps ++ [.criterion criterion]) ∧
      c.ascend (moves + 1) id n ⟨some t, rest⟩ = c.ascend moves up parent ⟨none, (k, t) :: rest⟩ := by
  obtain ⟨up, parent, hup, hchild, hn, hpart⟩ := h.of_append
  obtain ⟨-, -, -, -, -, hpart'⟩ := hup.of_append
  have hlegal : parent.kind.mayPrecede n.kind = true := by
    rw [Node.kind_of_connector hpart]
    exact Kind.mayPrecede_connector (Node.kind_of_criterion hpart').1 k
  exact ⟨up, parent, hup, ascend_succ (Passage.prepend_connector hpart) hn (parentOf_eq hup.get? hchild hlegal)⟩

end

/-! ### Whole chains -/

section
variable {c : Chain} {id : NodeId} {n : Node} {f : Filter}

/-- Up to the root: what was read below goes behind the clause that the parts on the way spell. -/
theorem ascend_clause {first : Term} {rest : List (Connector × Term)} :
    ∀ {tail : List (Connector × Term)} {id : NodeId} {n : Node} {moves : Nat},
      c.Reaches id n (⟨first, rest⟩ : Clause).parts → (⟨first, rest⟩ : Clause).parts.length ≤ moves →
      c.ascend moves id n ⟨none, tail⟩ = .ok (.clause ⟨first, rest ++ tail⟩) := by
  induction rest using List.reverseRecOn with
  | nil =>
    intro tail id n moves h hmoves
    simp only [Clause.parts, List.flatMap_nil, List.append_nil] at h hmoves
    obtain ⟨moves, rfl⟩ := Nat.exists_eq_add_of_le' hmoves
    obtain ⟨up, parent, hup, hasc⟩ := ascend_term (Or.inl rfl) (show c.Reaches id n ([] ++ first.parts) from h) moves tail
    rw [hasc, ascend_root hup]
    rfl
  | append_singleton rest l ih =>
    intro tail id n moves h hmoves
    rw [Clause.parts_concat] at h hmoves
    simp only [List.length_append, List.length_singleton] at hmoves
    obtain ⟨moves, rfl⟩ := Nat.exists_eq_add_of_le' (Nat.le_of_add_left_le hmoves)
    obtain ⟨moves, rfl⟩ := Nat.exists_eq_add_of_le' (show 1 ≤ moves by omega)
    obtain ⟨mid, connector, hmid, hasc⟩ := ascend_term (Or.inr ⟨_, _, rfl⟩) h (moves + 1) tail
    obtain ⟨ps, criterion, hps⟩ := (⟨first, rest⟩ : Clause).parts_eq_append
    obtain ⟨up, parent, hup, hasc'⟩ := ascend_connector (hps ▸ hmid) moves l.2 tail
    rw [hasc, hasc', ih (hps ▸ hup) (by omega)]
    simp

/-- Reading from a node without a child that links lead to over the parts of a filter gives the filter. -/
theorem read_of_reaches (h : c.Reaches id n f.parts) (hleaf : n.child.value = none) (hsize : f.parts.length ≤ c.size) :
    c.read id = .ok f := by
  cases f with
  | everything =>
    have hkind := h.of_nil.1
    simp only [read, h.get?, Slot.isSet, hleaf, hkind]
    exact ascend_root h
  | clause cl =>
    obtain ⟨ps, criterion, hps⟩ := cl.parts_eq_append
    have hkind : n.kind.isCriterion = true := by
      have h' : c.Reaches id n (ps ++ [.criterion criterion]) := hps ▸ (show c.Reaches id n cl.parts from h)
      obtain ⟨-, -, -, -, -, hpart⟩ := h'.of_append
      exact (Node.kind_of_criterion hpart).1
    have hend : ¬(n.kind.isConnector = true ∨ n.kind = .not) := by
      cases hk : n.kind <;> rw [hk] at hkind <;> simp_all [Kind.isCriterion, Kind.isStructural, Kind.isConnector]
    simp only [read, h.get?, Slot.isSet, hleaf, hend]
    rw [ascend_clause h hsize]
    simp

/-- Reading a chain from its last node gives the filter that it spells. -/
theorem Spells.read (h : c.Spells f.parts) : c.read f.parts.length = .ok f := by
  obtain ⟨n, hn⟩ := Option.isSome_iff_exists.mp (nodeAt_isSome.mpr (Nat.le_refl f.parts.length))
  have hreach := h.reaches hn
  rw [List.take_length] at hreach
  refine read_of_reaches hreach ?_ ?_
  · simp [child_of_nodeAt hn, linkAt]
  · rw [h.size]
    exact Nat.le_succ _

end

end Chain

namespace Bench

theorem Finished.read {b : Bench} {h : Handle} {f : Filter} (hf : b.Finished h f) :
    (b.chainOf h).read h.node = .ok f := by
  obtain ⟨hspells, hnode⟩ := hf.spells
  rw [hnode]
  exact hspells.read

end Bench

end TestSelection
