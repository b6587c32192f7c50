import TestSelection.Bench

/-! What a chain spells. A filter is a sequence of parts: a criterion for each term, a negation in front of
    it if the term is negated, and a connector in front of every term but the first. A chain spells some
    parts if its nodes are a root and then these parts, each one linked to the node before it and to the
    node after it. Such a chain takes a part behind its last node and nowhere else (`Spells.of_attach`,
    `Spells.attach`). -/

namespace TestSelection

/-! ### Parts -/

/-- What one element below the root adds to a filter. -/
inductive Part where
  | negation
  | connector (k : Connector)
  | criterion (c : Criterion)
  deriving DecidableEq

namespace Part

def kind : Part → Kind
  | negation => .not
  | connector k => k.kind
  | criterion c => c.kind

def criterion? : Part → Option Criterion
  | criterion c => some c
  | _ => none

def node (p : Part) (up : NodeId) : Node := { kind := p.kind, parent := some up, criterion := p.criterion? }

theorem ofCriterion_eq (up : NodeId) (c : Criterion) :
    Node.ofCriterion (some up) c = .ok ((criterion c).node up) := rfl

theorem structural_not (up : NodeId) : Node.structural .not (some up) = .ok (negation.node up) := rfl

theorem structural_connector (up : NodeId) (k : Connector) :
    Node.structural k.kind (some up) = .ok ((connector k).node up) := by
  cases k <;> rfl

end Part

def Node.part? (n : Node) : Option Part :=
  match n.kind with
  | .root => none
  | .and => some (.connector .and)
  | .or => some (.connector .or)
  | .not => some .negation
  | _ => n.criterion.map .criterion

theorem Node.part?_of_kind {n : Node} {p : Part} (hkind : n.kind = p.kind) (hcriterion : n.criterion = p.criterion?) :
    n.part? = some p := by
  rcases p with _ | k | c
  · simp [part?, hkind, Part.kind]
  · cases k <;> simp [part?, hkind, Part.kind, Connector.kind]
  · rcases c with ⟨s, _, _⟩ | _ | _
    · cases s <;> simp [part?, hkind, hcriterion, Part.kind, Part.criterion?, Criterion.kind, Subject.kind]
    · simp [part?, hkind, hcriterion, Part.kind, Part.criterion?, Criterion.kind]
    · simp [part?, hkind, hcriterion, Part.kind, Part.criterion?, Criterion.kind]

def Chain.parts (c : Chain) : List Part := c.nodes.toList.filterMap Node.part?

/-! ### The parts of a filter -/

def Term.parts (t : Term) : List Part :=
  if t.negated then [.negation, .criterion t.criterion] else [.criterion t.criterion]

def Clause.parts (c : Clause) : List Part := c.first.parts ++ c.rest.flatMap fun l => .connector l.1 :: l.2.parts

theorem Clause.parts_concat (first : Term) (rest : List (Connector × Term)) (l : Connector × Term) :
    (⟨first, rest ++ [l]⟩ : Clause).parts = (⟨first, rest⟩ : Clause).parts ++ [.connector l.1] ++ l.2.parts := by
  simp [parts]

def Filter.parts : Filter → List Part
  | everything => []
  | clause c => c.parts

/-! ### Chains that spell parts -/

/-- The link to the next node, where there are `count` nodes below the root. -/
def linkAt (count id : Nat) : Slot NodeId := ⟨if id < count then some (id + 1) else none⟩

/-- The node at a place of a chain that spells some parts. -/
def nodeAt (ps : List Part) : Nat → Option Node
  | 0 => some { Node.root with child := linkAt ps.length 0 }
  | up + 1 => ps[up]?.map fun p => { p.node up with child := linkAt ps.length (up + 1) }

/-- The nodes of the chain are a root and then the parts, linked one after the other. -/
def Chain.Spells (c : Chain) (ps : List Part) : Prop := ∀ id : Nat, c.get? id = nodeAt ps id

section
variable {c c' : Chain} {ps : List Part} {p : Part} {n : Node} {id up : Nat}

theorem nodeAt_isSome : (nodeAt ps id).isSome ↔ id ≤ ps.length := by
  cases id with
  | zero => simp [nodeAt]
  | succ up =>
    rw [nodeAt, Option.isSome_map, Option.isSome_iff_ne_none, ne_eq, List.getElem?_eq_none_iff]
    exact Nat.not_le

theorem child_of_nodeAt (h : nodeAt ps id = some n) : n.child = linkAt ps.length id := by
  cases id with
  | zero =>
    cases h
    rfl
  | succ up =>
    obtain ⟨q, -, rfl⟩ := Option.map_eq_some_iff.mp h
    rfl

/-- One part more: a new node, and a link to it from the node that was the last one. -/
theorem nodeAt_append : nodeAt (ps ++ [p]) id =
    if id = ps.length + 1 then some (p.node ps.length)
    else if id = ps.length then (nodeAt ps id).map fun n => { n with child := ⟨some (ps.length + 1)⟩ }
    else nodeAt ps id := by
  cases id with
  | zero =>
    cases ps with
    | nil => simp [nodeAt, linkAt]
    | cons q qs => simp [nodeAt, linkAt]
  | succ up =>
    rcases Nat.lt_trichotomy up ps.length with hlt | rfl | hgt
    · rcases Nat.lt_or_eq_of_le (Nat.succ_le_of_lt hlt) with hlt' | heq
      · have hne : up ≠ ps.length := by omega
        have hne' : up + 1 ≠ ps.length := by omega
        have hlt'' : up + 1 < ps.length := hlt'
        simp [nodeAt, linkAt, List.getElem?_append_left hlt, hne, hne', hlt'', Nat.lt_succ_of_lt hlt'']
      · have heq' : up + 1 = ps.length := heq
        simp [nodeAt, linkAt, List.getElem?_append_left hlt, heq', Function.comp_def]
    · simp [nodeAt, linkAt, Part.node]
    · have hne : up ≠ ps.length := by omega
      have hne' : up + 1 ≠ ps.length := by omega
      have hnone : (ps ++ [p])[up]? = none := by
        rw [List.getElem?_eq_none_iff]
        simp
        omega
      simp only [nodeAt, hnone, Option.map_none, Nat.add_right_cancel_iff, hne, hne', ↓reduceIte]
      rw [List.getElem?_eq_none_iff.mpr (by omega), Option.map_none]

theorem Chain.fresh_spells : Chain.fresh.Spells [] := by
  intro id
  cases id with
  | zero => rfl
  | succ up => simp [fresh, get?, nodeAt]

namespace Chain.Spells

theorem size (h : c.Spells ps) : c.size = ps.length + 1 := by
  have hsome : ∀ id : Nat, id < c.size ↔ id ≤ ps.length := fun id => by
    rw [← nodeAt_isSome, ← h id, get?, Chain.size]
    simp
  have := hsome ps.length
  have := hsome (ps.length + 1)
  omega

/-- Only the last node has no child. -/
theorem isLeaf_iff (h : c.Spells ps) (hle : id ≤ ps.length) : c.isLeaf id = true ↔ id = ps.length := by
  obtain ⟨n, hn⟩ := Option.isSome_iff_exists.mp (nodeAt_isSome.mpr hle)
  have hfree : c.isLeaf id = true ↔ ¬id < ps.length := by
    rw [Chain.isLeaf, h, hn, Option.any_some, Slot.isSet, child_of_nodeAt hn, linkAt]
    simp
  rw [hfree, Nat.not_lt]
  exact ⟨fun hge => Nat.le_antisymm hle hge, fun heq => Nat.le_of_eq heq.symm⟩

theorem parts (h : c.Spells ps) : c.parts = ps := by
  have hnodes : c.nodes.toList = { Node.root with child := linkAt ps.length 0 } ::
      ps.mapIdx fun up p => { p.node up with child := linkAt ps.length (up + 1) } := by
    refine List.ext_getElem? fun id => ?_
    have := h id
    cases id with
    | zero => simpa [get?, nodeAt] using this
    | succ up => simpa [get?, nodeAt] using this
  have hmap : ∀ (qs : List Part) (child : Nat → Slot NodeId) (start : Nat),
      (qs.mapIdx fun up p => { p.node (start + up) with child := child up }).filterMap Node.part? = qs := by
    intro qs
    induction qs with
    | nil => simp
    | cons q qs ih =>
      intro child start
      have hq : Node.part? { q.node start with child := child 0 } = some q := Node.part?_of_kind rfl rfl
      have := ih (fun up => child (up + 1)) (start + 1)
      simp only [List.mapIdx_cons, Nat.add_zero, List.filterMap_cons_some hq]
      simpa [Nat.add_comm, Nat.add_left_comm] using this
  rw [Chain.parts, hnodes, List.filterMap_cons_none rfl]
  simpa using hmap ps (fun up => linkAt ps.length (up + 1)) 0

end Chain.Spells

/-! ### Attaching -/

theorem Chain.attach_eq_ok_iff : c.attach n = .ok (c', id) ↔ ∃ up parent, n.parent = some up ∧
    c.get? up = some parent ∧ parent.child.value = none ∧ id = c.size ∧
    c' = ⟨(c.nodes.setIfInBounds up { parent with child := ⟨some c.size⟩ }).push n⟩ := by
  unfold Chain.attach
  rcases hup : n.parent with _ | up
  · simp
  · rcases hparent : c.get? up with _ | parent
    · simp [hparent]
    · rcases hset : parent.child.set c.size with e | child
      · have : parent.child.value ≠ none := fun hnone => by
          simp [Slot.set_eq_ok_iff.mpr ⟨hnone, rfl⟩] at hset
        simp [hparent, hset, this]
      · obtain ⟨hnone, rfl⟩ := Slot.set_eq_ok_iff.mp hset
        simp [hparent, hset, hnone, and_comm, eq_comm]

theorem Chain.get?_attached {parent m : Node} (hparent : c.get? up = some parent) (j : Nat) :
    Chain.get? ⟨(c.nodes.setIfInBounds up m).push n⟩ j =
      if j = c.size then some n else if j = up then some m else c.get? j := by
  have hlt : up < c.nodes.size := by
    rw [Chain.get?, Array.getElem?_eq_some_iff] at hparent
    exact hparent.1
  simp only [Chain.get?, Chain.size, Array.getElem?_push, Array.size_setIfInBounds, Array.getElem?_setIfInBounds]
  by_cases hj : j = c.nodes.size
  · simp [hj]
  · by_cases hup : j = up
    · simp [hup, hlt]
    · simp [hj, hup, Ne.symm hup]

namespace Chain.Spells

/-- Only the last node of a chain has room for a child, and the chain then spells one part more. -/
theorem of_attach (h : c.Spells ps) (ha : c.attach (p.node up) = .ok (c', id)) :
    up = ps.length ∧ id = ps.length + 1 ∧ c'.Spells (ps ++ [p]) := by
  obtain ⟨up', parent, hup, hparent, hfree, rfl, rfl⟩ := Chain.attach_eq_ok_iff.mp ha
  obtain rfl : up = up' := by simpa [Part.node] using hup
  have hat : nodeAt ps up = some parent := (h up).symm.trans hparent
  have hlast : up = ps.length := by
    have hle : up ≤ ps.length := nodeAt_isSome.mp (by simp [hat])
    have hlt : ¬up < ps.length := by simpa [child_of_nodeAt hat, linkAt] using hfree
    omega
  refine ⟨hlast, h.size, fun j => ?_⟩
  rw [Chain.get?_attached hparent, nodeAt_append, h.size, ← hlast, h j]
  split
  · rfl
  · split
    · rename_i hj
      rw [hj, hat, Option.map_some]
    · rfl

theorem attach (h : c.Spells ps) (p : Part) :
    ∃ c', c.attach (p.node ps.length) = .ok (c', ps.length + 1) ∧ c'.Spells (ps ++ [p]) := by
  obtain ⟨parent, hparent⟩ := Option.isSome_iff_exists.mp (nodeAt_isSome.mpr (Nat.le_refl ps.length))
  have hfree : parent.child.value = none := by simp [child_of_nodeAt hparent, linkAt]
  have ha : c.attach (p.node ps.length) = .ok (_, c.size) :=
    Chain.attach_eq_ok_iff.mpr ⟨ps.length, parent, rfl, (h _).trans hparent, hfree, rfl, rfl⟩
  rw [h.size] at ha
  exact ⟨_, ha, (h.of_attach ha).2.2⟩

end Chain.Spells

end

end TestSelection
