import Mathlib.Data.List.Induction
import TestSelection.Chain.Reading
import TestSelection.Proofs.Spelling

/-! Chains that grow by attaching. The nodes may be new ones with any parent, or copies out of any chain that
    bring their links along. However many of them are refused, the chain stays simple: each node is the
    child of the node before it (`Simple.attach`). A copy whose child slot is taken ends such a chain for
    good, since no slot is free any more (`Full`). -/

namespace TestSelection

/-! ### Nodes as they are made -/

/-- A node as it is made, except that its child slot may hold anything. -/
inductive Node.Made : Node → Prop where
  | root (child : Slot NodeId) : Made { Node.root with child }
  | structural {kind : Kind} {parent : Option NodeId} {n : Node} (h : Node.structural kind parent = .ok n)
      (child : Slot NodeId) : Made { n with child }
  | criterion {parent : Option NodeId} {c : Criterion} {n : Node} (h : Node.ofCriterion parent c = .ok n)
      (child : Slot NodeId) : Made { n with child }

section
variable {n : Node}

theorem Part.made_node (p : Part) (up : NodeId) (child : Slot NodeId) : Node.Made { p.node up with child } := by
  cases p with
  | negation => exact .structural (structural_not up) child
  | connector k => exact .structural (structural_connector up k) child
  | criterion c => exact .criterion (ofCriterion_eq up c) child

/-- A node is a root, or it holds a part and has a parent. -/
theorem Node.Made.cases (h : n.Made) : (n.kind = .root ∧ n.parent = none) ∨
    ∃ p up, n.part? = some p ∧ n.kind = p.kind ∧ n.parent = some up := by
  have part : ∀ (p : Part) (up : NodeId) (child : Slot NodeId), ∃ q u,
      Node.part? { p.node up with child } = some q ∧ p.kind = q.kind ∧ some up = some u :=
    fun p up child => ⟨p, up, Node.part?_of_kind rfl rfl, rfl, rfl⟩
  cases h with
  | root child => exact Or.inl ⟨rfl, rfl⟩
  | @structural kind parent _ h child =>
    cases parent with
    | none =>
      cases kind <;> cases h
      exact Or.inl ⟨rfl, rfl⟩
    | some up =>
      cases kind <;> cases h
      · exact Or.inr (part (.connector .and) up child)
      · exact Or.inr (part (.connector .or) up child)
      · exact Or.inr (part .negation up child)
  | @criterion parent c _ h child =>
    cases parent <;> cases h
    exact Or.inr (part (.criterion c) _ child)

theorem Node.part?_of_root (h : n.kind = .root) : n.part? = none := by
  rw [part?, h]

theorem Node.Made.kind_eq_root_iff (h : n.Made) : n.kind = .root ↔ n.parent = none := by
  rcases h.cases with ⟨hkind, hparent⟩ | ⟨p, up, hpart, -, hparent⟩
  · exact ⟨fun _ => hparent, fun _ => hkind⟩
  · refine ⟨fun hroot => ?_, fun hnone => ?_⟩
    · rw [Node.part?_of_root hroot] at hpart
      cases hpart
    · rw [hparent] at hnone
      cases hnone

end

namespace Chain

/-- One node is the parent of another one, which is its child. -/
def Linked (c : Chain) (up id : NodeId) : Prop := (c.get? id).bind (·.parent) = some up ∧ c.child? up = some id

/-! ### Attaching -/

section
variable {c c' : Chain} {n m : Node} {id up : Nat}

theorem size_attached {parent : Node} : Chain.size ⟨(c.nodes.setIfInBounds up parent).push n⟩ = c.size + 1 := by
  simp [size]

theorem lt_size_of_get? (h : c.get? id = some n) : id < c.size :=
  (Array.getElem?_eq_some_iff.mp h).1

theorem exists_get? (h : id < c.size) : ∃ n, c.get? id = some n := ⟨c.nodes[id], Array.getElem?_eq_getElem h⟩

theorem isLeaf_iff_child?_eq_none (h : id < c.size) : c.isLeaf id = true ↔ c.child? id = none := by
  obtain ⟨n, hn⟩ := exists_get? h
  simp [isLeaf, child?, hn, Slot.isSet]

theorem isLeaf_eq_true_iff : c.isLeaf id = true ↔ ∃ n, c.get? id = some n ∧ n.child.value = none := by
  cases h : c.get? id <;> simp [isLeaf, h, Slot.isSet]

theorem exists_attach_iff : (∃ r, c.attach n = .ok r) ↔ ∃ up, n.parent = some up ∧ c.isLeaf up = true := by
  constructor
  · rintro ⟨⟨c', id⟩, h⟩
    obtain ⟨up, parent, hup, hparent, hfree, -⟩ := attach_eq_ok_iff.mp h
    exact ⟨up, hup, isLeaf_eq_true_iff.mpr ⟨parent, hparent, hfree⟩⟩
  · rintro ⟨up, hup, hleaf⟩
    obtain ⟨parent, hparent, hfree⟩ := isLeaf_eq_true_iff.mp hleaf
    exact ⟨_, attach_eq_ok_iff.mpr ⟨up, parent, hup, hparent, hfree, rfl, rfl⟩⟩

end

/-! ### Simple chains -/

/-- The first node is a root, and each node after it is the child of the one before. What the last slot
    holds is left open. -/
structure Simple (c : Chain) : Prop where
  pos : 0 < c.size
  root : ∀ {id : Nat} {n : Node}, c.get? id = some n → (n.kind = .root ↔ id = 0) ∧ (n.parent = none ↔ id = 0)
  linked : ∀ id : Nat, id + 1 < c.size → c.Linked id (id + 1)

section
variable {c c' : Chain} {n : Node} {id : Nat}

theorem fresh_simple : fresh.Simple where
  pos := Nat.one_pos
  root {id n} h := by
    cases id with
    | zero =>
      cases h
      exact ⟨⟨fun _ => rfl, fun _ => rfl⟩, ⟨fun _ => rfl, fun _ => rfl⟩⟩
    | succ id => simp [fresh, get?] at h
  linked id h := by simp [fresh, size] at h

namespace Simple

theorem eq_last (h : c.Simple) (hleaf : c.isLeaf id = true) : id = c.size - 1 := by
  obtain ⟨n, hn, hfree⟩ := isLeaf_eq_true_iff.mp hleaf
  have hlt := lt_size_of_get? hn
  have hge : ¬id + 1 < c.size := fun hnext => by
    have := (h.linked id hnext).2
    simp [child?, hn, hfree] at this
  have : id + 1 = c.size := Nat.le_antisymm hlt (Nat.not_lt.mp hge)
  omega

theorem exists_attach_iff (h : c.Simple) :
    (∃ r, c.attach n = .ok r) ↔ n.parent = some (c.size - 1) ∧ c.isLeaf (c.size - 1) = true := by
  rw [Chain.exists_attach_iff]
  constructor
  · rintro ⟨up, hup, hleaf⟩
    obtain rfl := h.eq_last hleaf
    exact ⟨hup, hleaf⟩
  · rintro ⟨hup, hleaf⟩
    exact ⟨_, hup, hleaf⟩

/-- Attaching a node keeps a chain simple, whatever links the node brings along. -/
theorem attach (h : c.Simple) (hn : n.Made) (ha : c.attach n = .ok (c', id)) : c'.Simple := by
  obtain ⟨(up : Nat), parent, hup, hparent, hfree, rfl, rfl⟩ := attach_eq_ok_iff.mp ha
  have hlast : up + 1 = c.size := by
    have := h.eq_last (isLeaf_eq_true_iff.mpr ⟨parent, hparent, hfree⟩)
    have := h.pos
    omega
  have hget := fun j => Chain.get?_attached (n := n) (m := { parent with child := ⟨some c.size⟩ }) hparent j
  have hne : up ≠ c.size := by omega
  refine ⟨by simp [size_attached], fun {id m} hm => ?_, fun id hid => ?_⟩
  · rw [hget] at hm
    split at hm
    · -- The new node has a parent, so it is no root.
      rename_i heq
      cases hm
      have hpos := h.pos
      have hid : id ≠ 0 := by omega
      have hsome : n.parent ≠ none := by simp [hup]
      exact ⟨⟨fun hroot => absurd (hn.kind_eq_root_iff.mp hroot) hsome, fun hz => absurd hz hid⟩,
        ⟨fun hnone => absurd hnone hsome, fun hz => absurd hz hid⟩⟩
    · split at hm
      · rename_i heq
        cases hm
        rw [heq]
        have hroot := h.root hparent
        exact hroot
      · exact h.root hm
  · rw [size_attached] at hid
    by_cases hnew : id + 1 = c.size
    · obtain rfl : id = up := by omega
      refine ⟨?_, ?_⟩
      · rw [hget, if_pos hnew, Option.bind_some, hup]
      · rw [child?, hget, if_neg hne, if_pos rfl, Option.bind_some, hnew]
    · have hup' : id ≠ up := by omega
      have hsize : id ≠ c.size := by omega
      obtain ⟨hback, hforth⟩ := h.linked id (by omega)
      refine ⟨?_, ?_⟩
      · rw [hget, if_neg hnew]
        split
        · rename_i heq
          rw [heq, hparent] at hback
          exact hback
        · exact hback
      · rwa [child?, hget, if_neg hsize, if_neg hup']

theorem descend (h : c.Simple) (hleaf : c.isLeaf (c.size - 1) = true) :
    ∀ {moves id : Nat}, id < c.size → c.size ≤ id + moves + 1 → c.descend moves id = c.size - 1
  | 0, id, hlt, hle => by
    show id = c.size - 1
    omega
  | moves + 1, id, hlt, hle => by
    rw [Chain.descend]
    by_cases hnext : id + 1 < c.size
    · rw [(h.linked id hnext).2]
      exact h.descend hleaf hnext (by omega)
    · obtain rfl : id = c.size - 1 := by omega
      rw [(isLeaf_iff_child?_eq_none hlt).mp hleaf]

/-- As long as the last slot is free, the child links lead to the last node. -/
theorem leaf (h : c.Simple) (hleaf : c.isLeaf (c.size - 1) = true) : c.leaf = c.size - 1 :=
  h.descend hleaf h.pos (by show c.size ≤ 0 + c.size + 1; omega)

end Simple

/-! ### Full chains -/

def Full (c : Chain) : Prop := ∀ id, c.isLeaf id = false

theorem Full.attach (h : c.Full) (n : Node) : ∃ e, c.attach n = .error e := by
  cases ha : c.attach n with
  | error e => exact ⟨e, rfl⟩
  | ok r =>
    obtain ⟨up, -, hleaf⟩ := exists_attach_iff.mp ⟨r, ha⟩
    rw [h up] at hleaf
    cases hleaf

theorem Full.compile (h : c.Full) (id : NodeId) : ∃ e, c.compile id = .error e := by
  rw [Chain.compile, read]
  cases hn : c.get? id with
  | none => exact ⟨_, rfl⟩
  | some n =>
    have hset : n.child.isSet = true := by simpa [isLeaf, hn] using h id
    simp only [hset, if_true]
    exact ⟨_, rfl⟩

/-- A node whose child slot is taken leaves no slot free. -/
theorem Simple.full (h : c.Simple) (ha : c.attach n = .ok (c', id)) (hn : n.Made) (hset : n.child.isSet = true) :
    c'.Full := by
  intro j
  rw [Bool.eq_false_iff]
  intro hj
  obtain rfl := (h.attach hn ha).eq_last hj
  obtain ⟨up, parent, -, hparent, -, -, rfl⟩ := attach_eq_ok_iff.mp ha
  rw [isLeaf, get?_attached hparent, size_attached, Nat.add_sub_cancel, if_pos rfl] at hj
  simp [hset] at hj

end

/-! ### Runs -/

/-- Attaches a node, or leaves the chain as it is if the node is refused. -/
def grow (c : Chain) (n : Node) : Chain :=
  match c.attach n with
  | .ok (c', _) => c'
  | .error _ => c

/-- What becomes of a new chain when these nodes are attached one after the other. -/
def grown (nodes : List Node) : Chain := nodes.foldl grow fresh

section
variable {c : Chain} {n : Node} {nodes before after : List Node}

theorem grow_of_error {e : FilterError} (h : c.attach n = .error e) : c.grow n = c := by
  rw [grow, h]

theorem grown_append : grown (before ++ after) = after.foldl grow (grown before) := List.foldl_append

theorem Simple.grow (h : c.Simple) (hn : n.Made) : (c.grow n).Simple := by
  cases ha : c.attach n with
  | error e => rwa [grow_of_error ha]
  | ok r =>
    rw [Chain.grow, ha]
    exact h.attach hn ha

theorem simple_grown (h : ∀ n ∈ nodes, n.Made) : (grown nodes).Simple := by
  induction nodes using List.reverseRecOn with
  | nil => exact fresh_simple
  | append_singleton nodes n ih =>
    obtain ⟨hnodes, hn⟩ := List.forall_mem_append.mp h
    rw [grown_append]
    exact (ih hnodes).grow (hn n List.mem_cons_self)

theorem Full.foldl_grow (h : c.Full) : nodes.foldl grow c = c := by
  induction nodes with
  | nil => rfl
  | cons n nodes ih =>
    obtain ⟨e, he⟩ := h.attach n
    rw [List.foldl_cons, grow_of_error he, ih]

end

/-- Whatever nodes are attached to a new chain, it is one simple chain. It takes a node below its last one
    while the slot there is free, and its child links then lead to that node. A node with a taken slot
    is the last one that it takes, and after that it cannot be compiled from anywhere. -/
theorem grown_is_simple (nodes : List Node) (hmade : ∀ n ∈ nodes, n.Made) :
    (grown nodes).Simple ∧
    (∀ id, (grown nodes).isLeaf id = true → id = (grown nodes).size - 1) ∧
    (∀ n, (∃ r, (grown nodes).attach n = .ok r) ↔
      n.parent = some ((grown nodes).size - 1) ∧ (grown nodes).isLeaf ((grown nodes).size - 1) = true) ∧
    (∀ n c id, (grown nodes).attach n = .ok (c, id) → id = (grown nodes).size ∧ grown (nodes ++ [n]) = c) ∧
    (∀ n e, (grown nodes).attach n = .error e → grown (nodes ++ [n]) = grown nodes) ∧
    ((grown nodes).isLeaf ((grown nodes).size - 1) = true → (grown nodes).leaf = (grown nodes).size - 1) ∧
    ∀ before n after, nodes = before ++ n :: after → n.child.isSet = true → (∃ r, (grown before).attach n = .ok r) →
      (∀ m, ∃ e, (grown nodes).attach m = .error e) ∧ ∀ id, ∃ e, (grown nodes).compile id = .error e := by
  have hsimple := simple_grown hmade
  refine ⟨hsimple, fun id => hsimple.eq_last, fun n => hsimple.exists_attach_iff, fun n c id ha => ⟨?_, ?_⟩,
    fun n e he => ?_, hsimple.leaf, ?_⟩
  · obtain ⟨-, -, -, -, -, hid, -⟩ := attach_eq_ok_iff.mp ha
    exact hid
  · rw [grown_append, List.foldl_cons, List.foldl_nil, grow, ha]
  · rw [grown_append]
    exact grow_of_error he
  · rintro before n after rfl hset ⟨⟨c, id⟩, ha⟩
    obtain ⟨hbefore, hn⟩ := List.forall_mem_append.mp hmade
    have hfull : c.Full := (simple_grown hbefore).full ha (hn n List.mem_cons_self) hset
    have hgrown : grown (before ++ n :: after) = c := by
      rw [grown_append, List.foldl_cons, grow, ha]
      exact hfull.foldl_grow
    rw [hgrown]
    exact ⟨hfull.attach, hfull.compile⟩

/-- Two criteria, and between them an `and` that was copied with its link, which leads back to the root. -/
def withCopy : List Node :=
  let a := Criterion.pattern .test ⟨"t", by decide⟩ false
  [(Part.criterion a).node 0, { (Part.connector .and).node 1 with child := ⟨some 0⟩ }, (Part.criterion a).node 2]

theorem grown_withCopy : (∀ n ∈ withCopy, n.Made) ∧ (grown withCopy).size = 3 ∧
    (∀ m, ∃ e, (grown withCopy).attach m = .error e) ∧ ∀ id, ∃ e, (grown withCopy).compile id = .error e := by
  have hmade : ∀ n ∈ withCopy, n.Made := by
    simp only [withCopy, List.forall_mem_cons]
    generalize Criterion.pattern _ _ _ = a
    exact ⟨Part.made_node (.criterion a) 0 {}, Part.made_node (.connector .and) 1 ⟨some 0⟩,
      Part.made_node (.criterion a) 2 {}, by simp⟩
  obtain ⟨-, -, -, -, -, -, hcopy⟩ := grown_is_simple withCopy hmade
  exact ⟨hmade, by decide, hcopy [_] _ [_] rfl rfl ⟨_, rfl⟩⟩

end Chain

end TestSelection
