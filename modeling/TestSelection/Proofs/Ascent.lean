import TestSelection.Proofs.Linking

/-! The walk up ends by itself. Parents may well run in a circle, but the walk does not: the leaf has no child, and the
    child link of every parent leads back to where the walk came from, so a place that came up again would have come
    up one move earlier already (`nodup_of_isChain`). The limit on moves is therefore never met, and of the checks on
    the way those that guard against nodes that cannot be made never fail. Main statement: `Made.visited_once`. -/

namespace TestSelection

/-- The causes that guard against nodes that cannot be made and links that cannot be met. -/
def FilterError.IsDefensive : FilterError → Prop
  | cycle | orphan .. | noPredicate _ | bareNegation _ => True
  | _ => False

namespace Chain

/-! ### One move -/

/-- A place that the walk has come to, with what it has read below. -/
structure Stop where
  id : NodeId
  node : Node
  below : Passage

/-- The first place of the walk. -/
def start (c : Chain) (leaf : NodeId) : Except FilterError Stop :=
  match c.get? leaf with
  | none => .error (.unknownElement leaf)
  | some node =>
    if node.child.isSet then .error .notLeaf
    else if node.kind.isConnector ∨ node.kind = .not then .error (.dangling node.kind)
    else .ok ⟨leaf, node, {}⟩

/-- One move: the walk ends at a root, and goes on to the parent anywhere else. -/
def climb (c : Chain) (s : Stop) : Except FilterError (Filter ⊕ Stop) :=
  match s.below.prepend s.id s.node with
  | .error e => .error e
  | .ok above =>
    match s.node.parent with
    | none => if s.node.kind = .root then .ok (.inl above.filter) else .error (.orphan s.node.kind s.id)
    | some up => (c.parentOf s.id s.node.kind up).map fun parent => .inr ⟨up, parent, above⟩

/-- The places that the walk comes to from a place on, in at most so many moves. -/
def visits (c : Chain) : Nat → Stop → List NodeId
  | 0, s => [s.id]
  | moves + 1, s =>
    s.id :: match c.climb s with
      | .ok (.inr next) => c.visits moves next
      | _ => []

/-- The places that the walk from a leaf comes to, in at most so many moves. -/
def visited (c : Chain) (moves : Nat) (leaf : NodeId) : List NodeId :=
  match c.start leaf with
  | .ok s => c.visits moves s
  | .error _ => []

section
variable {c : Chain} {leaf : NodeId} {s next : Stop} {moves : Nat} {e : FilterError}

theorem read_eq_start : c.read leaf = (c.start leaf).bind fun s => c.ascend c.size s.id s.node s.below := by
  unfold read start
  cases c.get? leaf with
  | none => rfl
  | some node =>
    dsimp only
    split
    · rfl
    · split <;> rfl

theorem ascend_eq_climb : c.ascend moves s.id s.node s.below = match c.climb s with
    | .error e => .error e
    | .ok (.inl f) => .ok f
    | .ok (.inr next) =>
      match moves with
      | 0 => .error .cycle
      | moves + 1 => c.ascend moves next.id next.node next.below := by
  rw [ascend.eq_def, climb]
  cases s.below.prepend s.id s.node with
  | error e => rfl
  | ok above =>
    simp only [bind, Except.bind]
    cases s.node.parent with
    | none =>
      dsimp only
      split <;> rfl
    | some up =>
      dsimp only
      cases c.parentOf s.id s.node.kind up with
      | error e => rfl
      | ok parent => cases moves <;> rfl

theorem climb_inr (h : c.climb s = .ok (.inr next)) : s.below.prepend s.id s.node = .ok next.below ∧
    s.node.parent = some next.id ∧ c.parentOf s.id s.node.kind next.id = .ok next.node := by
  unfold climb at h
  split at h
  · cases h
  · rename_i above hpre
    split at h
    · split at h <;> cases h
    · rename_i up hup
      obtain ⟨parent, hparent, heq⟩ := map_eq_ok_iff.mp h
      cases heq
      exact ⟨hpre, hup, hparent⟩

theorem start_eq_ok (h : c.start leaf = .ok s) : c.get? leaf = some s.node ∧ s.node.child.value = none ∧
    ¬(s.node.kind.isConnector = true ∨ s.node.kind = .not) ∧ s.id = leaf ∧ s.below = {} := by
  unfold start at h
  split at h
  · cases h
  · rename_i node hnode
    split at h
    · cases h
    · rename_i hset
      split at h <;> cases h
      exact ⟨hnode, by simpa [Slot.isSet] using hset, by assumption, rfl, rfl⟩

/-! ### No place comes up twice -/

/-- Each place is the child of the next one. If the first one has no child, then no place comes up twice: a place that
    did would be the parent of two places in the list, so its child would have come up twice before. -/
theorem nodup_of_isChain {ids : List NodeId} (h : ids.IsChain fun id up => c.child? up = some id)
    (hfree : ∀ id ∈ ids.head?, c.child? id = none) : ids.Nodup := by
  have hchild : ∀ i (hi : i + 1 < ids.length), c.child? ids[i + 1] = some ids[i] := List.isChain_iff_getElem.mp h
  have hne : ∀ i j (hij : i < j) (hj : j < ids.length), ids[i] ≠ ids[j] := by
    intro i
    induction i with
    | zero =>
      intro j hij hj heq
      obtain ⟨j, rfl⟩ : ∃ k, j = k + 1 := ⟨j - 1, by omega⟩
      have hnone := hfree ids[0] (by rw [List.head?_eq_getElem?, List.getElem?_eq_getElem]; rfl)
      rw [heq, hchild j hj] at hnone
      cases hnone
    | succ i ih =>
      intro j hij hj heq
      obtain ⟨j, rfl⟩ : ∃ k, j = k + 1 := ⟨j - 1, by omega⟩
      have hsame := hchild i (by omega)
      rw [heq, hchild j hj] at hsame
      exact ih j (by omega) (by omega) (Option.some.inj hsame).symm
  exact List.pairwise_iff_getElem.mpr fun i j _ hj hij => hne i j hij hj

theorem visits_eq_cons (c : Chain) (moves : Nat) (s : Stop) : ∃ ids, c.visits moves s = s.id :: ids := by
  cases moves with
  | zero => exact ⟨[], rfl⟩
  | succ moves => exact ⟨_, rfl⟩

theorem visits_inr (h : c.climb s = .ok (.inr next)) : c.visits (moves + 1) s = s.id :: c.visits moves next := by
  rw [visits, h]

theorem visits_of_not_inr (h : ∀ next, c.climb s ≠ .ok (.inr next)) : c.visits moves s = [s.id] := by
  cases moves with
  | zero => rfl
  | succ moves =>
    rw [visits]
    split
    · exact absurd (by assumption) (h _)
    · rfl

theorem isChain_visits (c : Chain) (moves : Nat) (s : Stop) :
    (c.visits moves s).IsChain fun id up => c.child? up = some id := by
  induction moves generalizing s with
  | zero => exact .singleton s.id
  | succ moves ih =>
    rw [visits]
    split
    · rename_i next hnext
      obtain ⟨-, -, hparent⟩ := climb_inr hnext
      obtain ⟨hget, hchild, -⟩ := parentOf_eq_ok_iff.mp hparent
      obtain ⟨ids, hids⟩ := c.visits_eq_cons moves next
      have hchain := ih next
      rw [hids] at hchain ⊢
      exact .cons_cons (by simp [child?, hget, hchild]) hchain
    · exact .singleton s.id

theorem lt_size_of_visits (moves : Nat) : ∀ {s : Stop}, c.get? s.id = some s.node → ∀ id ∈ c.visits moves s, id < c.size := by
  induction moves with
  | zero =>
    intro s hs id hid
    rw [List.mem_singleton.mp hid]
    exact lt_size_of_get? hs
  | succ moves ih =>
    intro s hs id hid
    rw [visits] at hid
    rcases List.mem_cons.mp hid with rfl | hid
    · exact lt_size_of_get? hs
    · split at hid
      · rename_i next hnext
        obtain ⟨-, -, hparent⟩ := climb_inr hnext
        exact ih (parentOf_eq_ok_iff.mp hparent).1 id hid
      · cases hid

theorem nodup_visits (moves : Nat) (h : c.start leaf = .ok s) : (c.visits moves s).Nodup := by
  obtain ⟨hnode, hfree, -, hid, -⟩ := start_eq_ok h
  refine nodup_of_isChain (c.isChain_visits moves s) fun id hhead => ?_
  obtain ⟨ids, hids⟩ := c.visits_eq_cons moves s
  rw [hids, List.head?_cons, Option.mem_some_iff] at hhead
  rw [← hhead, hid, child?, hnode]
  exact hfree

theorem length_visits_le (moves : Nat) (h : c.start leaf = .ok s) : (c.visits moves s).length ≤ c.size := by
  obtain ⟨hnode, -, -, hid, -⟩ := start_eq_ok h
  -- Distinct places that are all in the arena are no more than the arena has.
  have hsub : c.visits moves s ⊆ List.range c.size := fun id hmem =>
    List.mem_range.mpr (lt_size_of_visits moves (hid ▸ hnode) id hmem)
  have hle := ((nodup_visits moves h).subperm hsub).length_le
  rwa [List.length_range] at hle

theorem visits_succ (h : (c.visits moves s).length ≤ moves) : c.visits (moves + 1) s = c.visits moves s := by
  induction moves generalizing s with
  | zero => simp [visits] at h
  | succ moves ih =>
    by_cases hnext : ∃ next, c.climb s = .ok (.inr next)
    · obtain ⟨next, hnext⟩ := hnext
      rw [visits_inr hnext, List.length_cons] at h
      rw [visits_inr hnext, visits_inr hnext, ih (Nat.le_of_succ_le_succ h)]
    · rw [not_exists] at hnext
      rw [visits_of_not_inr hnext, visits_of_not_inr hnext]

/-! ### What the walk reports -/

/-- A place of the walk over nodes that can be made. A negation has just read the criterion that it wraps. -/
structure Stop.Sound (c : Chain) (s : Stop) : Prop where
  node : c.get? s.id = some s.node
  wraps : s.node.kind = .not → ∃ criterion, s.below.head = some ⟨criterion, false⟩

theorem Stop.sound_start (h : c.start leaf = .ok s) : s.Sound c := by
  obtain ⟨hnode, -, hend, hid, -⟩ := start_eq_ok h
  exact ⟨hid ▸ hnode, fun hnot => absurd (Or.inr hnot) hend⟩

theorem Made.exists_part (hc : c.Made) {id : NodeId} {n : Node} (hn : c.get? id = some n) (hne : n.kind ≠ .root) :
    ∃ p, n.part? = some p ∧ n.kind = p.kind := by
  rcases (hc.node hn).cases with ⟨hroot, -⟩ | ⟨p, -, hp, hkind, -⟩
  · exact absurd hroot hne
  · exact ⟨p, hp, hkind⟩

theorem Stop.Sound.step (hs : s.Sound c) (hc : c.Made) (h : c.climb s = .ok (.inr next)) : next.Sound c := by
  obtain ⟨hpre, -, hparent⟩ := climb_inr h
  obtain ⟨hget, -, hlegal⟩ := parentOf_eq_ok_iff.mp hparent
  refine ⟨hget, fun hnot => ?_⟩
  rw [hnot] at hlegal
  have hcriterion : s.node.kind.isCriterion = true := hlegal
  obtain ⟨p, hp, hkind⟩ := hc.exists_part hs.node fun hroot => by
    rw [hroot] at hcriterion
    cases hcriterion
  rw [hkind] at hcriterion
  rcases p with _ | k | criterion
  · cases hcriterion
  · cases k <;> cases hcriterion
  · rw [Passage.prepend_criterion hp] at hpre
    exact ⟨criterion, by rw [← Except.ok.inj hpre]⟩

theorem Stop.Sound.not_defensive_of_prepend (hs : s.Sound c) (hc : c.Made) (h : s.below.prepend s.id s.node = .error e) :
    ¬e.IsDefensive := by
  have hconnect : ∀ k : Connector, s.below.connect k = .error e → ¬e.IsDefensive := by
    intro k hk
    unfold Passage.connect at hk
    split at hk <;> cases hk
    exact not_false
  by_cases hroot : s.node.kind = .root
  · rw [Passage.prepend, hroot] at h
    cases h
  · obtain ⟨p, hp, hkind⟩ := hc.exists_part hs.node hroot
    rcases p with _ | k | criterion
    · obtain ⟨criterion, hhead⟩ := hs.wraps hkind
      rw [Passage.prepend, hkind] at h
      simp only [Part.kind, hhead] at h
      cases h
    · refine hconnect k ?_
      rw [Passage.prepend, hkind] at h
      cases k <;> exact h
    · rw [Passage.prepend_criterion hp] at h
      cases h

theorem not_defensive_of_parentOf {id up : NodeId} {kind : Kind} (h : c.parentOf id kind up = .error e) :
    ¬e.IsDefensive := by
  unfold parentOf at h
  split at h
  · cases h
    exact not_false
  · split at h
    · cases h
      exact not_false
    · split at h
      · cases h
        exact not_false
      · split at h <;> cases h
        exact not_false

theorem Stop.Sound.not_defensive_of_climb (hs : s.Sound c) (hc : c.Made) (h : c.climb s = .error e) : ¬e.IsDefensive := by
  unfold climb at h
  split at h
  · rename_i hpre
    cases h
    exact hs.not_defensive_of_prepend hc hpre
  · split at h
    · rename_i hnone
      rw [if_pos ((hc.node hs.node).kind_eq_root_iff.mpr hnone)] at h
      cases h
    · exact not_defensive_of_parentOf (map_eq_error_iff.mp h)

/-- A guard that failed would be the one on moves, and then the walk would have come to more places than it may. -/
theorem Stop.Sound.ascend_error (hs : s.Sound c) (hc : c.Made) (h : c.ascend moves s.id s.node s.below = .error e) :
    ¬e.IsDefensive ∨ (c.visits (moves + 1) s).length = moves + 2 := by
  induction moves generalizing s with
  | zero =>
    rw [ascend_eq_climb] at h
    split at h
    · rename_i hclimb
      cases h
      exact Or.inl (hs.not_defensive_of_climb hc hclimb)
    · cases h
    · rename_i next hnext
      rw [visits_inr hnext]
      exact Or.inr rfl
  | succ moves ih =>
    rw [ascend_eq_climb] at h
    split at h
    · rename_i hclimb
      cases h
      exact Or.inl (hs.not_defensive_of_climb hc hclimb)
    · cases h
    · rename_i next hnext
      rcases ih (hs.step hc hnext) h with hguard | hlength
      · exact Or.inl hguard
      · rw [visits_inr hnext, List.length_cons, hlength]
        exact Or.inr rfl

theorem Made.not_defensive_of_read (hc : c.Made) (h : c.read leaf = .error e) : ¬e.IsDefensive := by
  rw [read_eq_start] at h
  rcases bind_eq_error_iff.mp h with hstart | ⟨s, hstart, hascend⟩
  · unfold start at hstart
    split at hstart
    · cases hstart
      exact not_false
    · split at hstart
      · cases hstart
        exact not_false
      · split at hstart <;> cases hstart
        exact not_false
  · rcases (Stop.sound_start hstart).ascend_error hc hascend with hguard | hlength
    · exact hguard
    · have hle := length_visits_le (c.size + 1) hstart
      rw [hlength] at hle
      omega

/-! ### Main statement -/

theorem visited_eq_visits (h : c.start leaf = .ok s) : c.visited moves leaf = c.visits moves s := by
  rw [visited, h]

/-- Over nodes that the constructors make, however they are linked, the walk up from a leaf comes to each node once at
    the most, whatever number of moves it is allowed, and it ends before it has as many moves as there are nodes. So
    none of the guards against a circle or against nodes that cannot be made is ever reported. -/
theorem Made.visited_once (hc : c.Made) (leaf : NodeId) :
    (∀ moves, (c.visited moves leaf).Nodup ∧ ∀ id ∈ c.visited moves leaf, id < c.size) ∧
    (∀ moves, c.size ≤ moves → c.visited moves leaf = c.visited c.size leaf) ∧
    ∀ e, c.compile leaf = .error e → ¬e.IsDefensive := by
  refine ⟨fun moves => ?_, fun moves hmoves => ?_, fun e he => ?_⟩
  · cases hstart : c.start leaf with
    | error e => simp [visited, hstart]
    | ok s =>
      obtain ⟨hnode, -, -, hid, -⟩ := start_eq_ok hstart
      rw [visited_eq_visits hstart]
      exact ⟨nodup_visits moves hstart, lt_size_of_visits moves (hid ▸ hnode)⟩
  · cases hstart : c.start leaf with
    | error e => simp [visited, hstart]
    | ok s =>
      rw [visited_eq_visits hstart, visited_eq_visits hstart]
      induction moves, hmoves using Nat.le_induction with
      | base => rfl
      | succ moves hmoves ih => rw [visits_succ ((length_visits_le moves hstart).trans hmoves), ih]
  · exact hc.not_defensive_of_read (map_eq_error_iff.mp he)

/-- A leaf whose parents run in a circle. The walk stops where a child link does not lead back. -/
def circling : Chain :=
  let a := Criterion.pattern .test ⟨"v", by decide⟩ false
  ⟨#[Node.root, (Part.criterion a).node 2, { (Part.connector .and).node 3 with child := ⟨some 1⟩ },
    { (Part.criterion a).node 2 with child := ⟨some 2⟩ }]⟩

theorem visited_circling : circling.Made ∧ circling.visited 100 1 = [1, 2, 3] ∧
    circling.visited 100 1 = circling.visited circling.size 1 ∧ (circling.visited 100 1).Nodup ∧
    circling.compile 1 = .error (.childElsewhere 2 1 3) ∧ ¬(FilterError.childElsewhere 2 1 3).IsDefensive := by
  have hmade : circling.Made := by
    simp only [Made, circling, List.mem_toArray, List.forall_mem_cons]
    generalize Criterion.pattern _ _ _ = a
    exact ⟨.root {}, Part.made_node (.criterion a) 2 {}, Part.made_node (.connector .and) 3 ⟨some 1⟩,
      Part.made_node (.criterion a) 2 ⟨some 2⟩, by simp⟩
  obtain ⟨honce, hmoves, hguards⟩ := Made.visited_once hmade 1
  have hcompile : circling.compile 1 = .error (.childElsewhere 2 1 3) := rfl
  exact ⟨hmade, rfl, hmoves 100 (by decide), (honce 100).1, hcompile, hguards _ hcompile⟩

end

end Chain

end TestSelection
