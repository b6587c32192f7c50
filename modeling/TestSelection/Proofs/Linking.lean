import Mathlib.Data.List.Chain
import Mathlib.Data.List.Nodup
import Mathlib.Data.List.Perm.Subperm
import TestSelection.Proofs.Arena
import TestSelection.Proofs.Phrases

/-! Which arenas can be read. Nodes may be linked in any way: links may dangle, cross, run in circles or lead
    to several roots. An arena can be read from a leaf exactly if a route leads to the leaf from a root,
    over links that agree in both directions and kinds that read a filter (`Chain.Route`). One direction
    inverts the walk up (`Chain.reaches_of_ascend`), the other one walks the route back. Only the nodes of
    the route matter, and a wrong child link on it is found out (`Chain.ascend_of_relinked`). -/

namespace TestSelection

theorem Kind.mayPrecede_root (k : Kind) : k.mayPrecede .root = false := by
  cases k <;> rfl

theorem Kind.isConnector_of_mayPrecede {j k : Kind} (hj : j.isCriterion = true) (h : j.mayPrecede k = true) :
    k.isConnector = true := by
  cases j
  case root | and | or | not => cases hj
  all_goals exact h

theorem Kind.isConnector_eq_false {k : Kind} (h : k.isCriterion = true) : k.isConnector = false := by
  cases k
  case and | or => cases h
  all_goals rfl

theorem Node.part?_of_isCriterion {n : Node} (h : n.kind.isCriterion = true) : n.part? = n.criterion.map .criterion := by
  unfold part?
  cases hk : n.kind
  case root | and | or | not =>
    rw [hk] at h
    cases h
  all_goals rfl

/-! ### Passages -/

namespace Passage

def parts (p : Passage) : List Part :=
  (p.head.map Term.parts).getD [] ++ p.rest.flatMap fun l => .connector l.1 :: l.2.parts

/-- The passage may be what was read below a node of some kind. -/
structure Fits (p : Passage) (k : Kind) : Prop where
  criterion : k.isCriterion = true → p.head = none
  root : k = .root → p.head = none → p.rest = []

section
variable {below above : Passage} {n : Node} {id : NodeId} {k : Kind}

theorem fits_empty : Fits {} k := ⟨fun _ => rfl, fun _ _ => rfl⟩

theorem parts_filter (h : below.head = none → below.rest = []) : below.filter.parts = below.parts := by
  obtain ⟨_ | t, rest⟩ := below
  · obtain rfl : rest = [] := h rfl
    rfl
  · rfl

/-- A root adds nothing to a passage, and any other node its part. -/
theorem prepend_cases (h : below.prepend id n = .ok above) :
    (n.kind = .root ∧ above = below) ∨
    (∃ k t, n.part? = some (.connector k) ∧ below.head = some t ∧ above = ⟨none, (k, t) :: below.rest⟩) ∨
    (∃ c, n.part? = some .negation ∧ below.head = some ⟨c, false⟩ ∧ above = ⟨some ⟨c, true⟩, below.rest⟩) ∨
    ∃ c, n.part? = some (.criterion c) ∧ above = ⟨some ⟨c, false⟩, below.rest⟩ := by
  have hconnect : ∀ {k : Connector}, below.connect k = .ok above →
      ∃ t, below.head = some t ∧ above = ⟨none, (k, t) :: below.rest⟩ := by
    intro k h
    unfold connect at h
    split at h <;> cases h
    exact ⟨_, by assumption, rfl⟩
  unfold prepend at h
  split at h
  · cases h
    exact Or.inl ⟨by assumption, rfl⟩
  · rename_i hkind
    obtain ⟨t, ht, habove⟩ := hconnect h
    exact Or.inr (Or.inl ⟨.and, t, by rw [Node.part?, hkind], ht, habove⟩)
  · rename_i hkind
    obtain ⟨t, ht, habove⟩ := hconnect h
    exact Or.inr (Or.inl ⟨.or, t, by rw [Node.part?, hkind], ht, habove⟩)
  · rename_i hkind
    split at h <;> cases h
    rename_i c hc
    exact Or.inr (Or.inr (Or.inl ⟨c, by rw [Node.part?, hkind], hc, rfl⟩))
  · rename_i hroot hand hor hnot
    split at h <;> cases h
    rename_i c hc
    have hkind : n.kind.isCriterion = true := by
      cases hk : n.kind
      case root => exact absurd hk hroot
      case and => exact absurd hk hand
      case or => exact absurd hk hor
      case not => exact absurd hk hnot
      all_goals rfl
    exact Or.inr (Or.inr (Or.inr ⟨c, by rw [Node.part?_of_isCriterion hkind, hc, Option.map_some], rfl⟩))

theorem parts_of_prepend (hfits : below.Fits n.kind) (hne : n.kind ≠ .root) (h : below.prepend id n = .ok above) :
    ∃ p, n.part? = some p ∧ above.parts = p :: below.parts := by
  rcases prepend_cases h with ⟨hroot, -⟩ | ⟨k, t, hpart, ht, rfl⟩ | ⟨c, hpart, hc, rfl⟩ | ⟨c, hpart, rfl⟩
  · exact absurd hroot hne
  · exact ⟨_, hpart, by simp [parts, ht]⟩
  · exact ⟨_, hpart, by simp [parts, hc, Term.parts]⟩
  · have hnone := hfits.criterion (Node.kind_of_criterion hpart).1
    exact ⟨_, hpart, by simp [parts, hnone, Term.parts]⟩

/-- What is read at a node fits a kind that may come before this node. -/
theorem fits_of_prepend (h : below.prepend id n = .ok above) (hlegal : k.mayPrecede n.kind = true) : above.Fits k := by
  rcases prepend_cases h with ⟨hroot, -⟩ | ⟨j, t, hpart, -, rfl⟩ | ⟨c, hpart, -, rfl⟩ | ⟨c, hpart, rfl⟩
  · rw [hroot, Kind.mayPrecede_root] at hlegal
    cases hlegal
  · refine ⟨fun _ => rfl, fun hk _ => ?_⟩
    rw [hk, Node.kind_of_connector hpart] at hlegal
    cases j <;> cases hlegal
  · refine ⟨fun hk => ?_, fun _ hnone => ?_⟩
    · have := Kind.isConnector_of_mayPrecede hk hlegal
      rw [Node.kind_of_negation hpart] at this
      cases this
    · cases hnone
  · refine ⟨fun hk => ?_, fun _ hnone => ?_⟩
    · have hconnector := Kind.isConnector_of_mayPrecede hk hlegal
      rw [Kind.isConnector_eq_false (Node.kind_of_criterion hpart).1] at hconnector
      cases hconnector
    · cases hnone

end

end Passage

namespace Chain

/-! ### The walk up -/

section
variable {c c' : Chain} {id up : NodeId} {n parent : Node} {below : Passage} {f : Filter} {ps : List Part}

theorem parentOf_eq_ok_iff {kind : Kind} : c.parentOf id kind up = .ok parent ↔
    c.get? up = some parent ∧ parent.child.value = some id ∧ parent.kind.mayPrecede kind = true := by
  refine ⟨fun h => ?_, fun ⟨hparent, hchild, hlegal⟩ => parentOf_eq hparent hchild hlegal⟩
  unfold parentOf at h
  split at h
  · cases h
  · rename_i m hm
    split at h
    · cases h
    · rename_i child hchild
      split at h
      · cases h
      · rename_i heq
        split at h <;> cases h
        rw [ne_eq, not_not] at heq
        exact ⟨hm, heq ▸ hchild, by assumption⟩

/-- The walk stops at a root without a parent, and else goes on from a parent whose link back is right. -/
theorem ascend_cases {moves : Nat} (h : c.ascend moves id n below = .ok f) : ∃ above, below.prepend id n = .ok above ∧
    ((n.parent = none ∧ n.kind = .root ∧ f = above.filter) ∨
      ∃ up parent m, n.parent = some up ∧ c.parentOf id n.kind up = .ok parent ∧ moves = m + 1 ∧
        c.ascend m up parent above = .ok f) := by
  rw [ascend.eq_def] at h
  obtain ⟨above, hpre, hup⟩ := bind_eq_ok_iff.mp h
  refine ⟨above, hpre, ?_⟩
  split at hup
  · split at hup <;> cases hup
    exact Or.inl ⟨by assumption, by assumption, rfl⟩
  · rename_i up hsome
    obtain ⟨parent, hparent, hrest⟩ := bind_eq_ok_iff.mp hup
    cases moves with
    | zero => cases hrest
    | succ m => exact Or.inr ⟨up, parent, m, hsome, hparent, rfl, hrest⟩

/-- Whatever was read came over links that lead down from a root. -/
theorem reaches_of_ascend {moves : Nat} {id : NodeId} {n : Node} {below : Passage} (hn : c.get? id = some n)
    (hfits : below.Fits n.kind) (h : c.ascend moves id n below = .ok f) :
    ∃ ps, c.Reaches id n ps ∧ f.parts = ps ++ below.parts := by
  obtain ⟨above, hpre, ⟨hnone, hroot, rfl⟩ | ⟨up, parent, m, hup, hparent, rfl, hasc⟩⟩ := ascend_cases h
  · refine ⟨[], .root hn hroot hnone, ?_⟩
    have habove : above = below := by simpa [Passage.prepend, hroot] using hpre.symm
    rw [habove, Passage.parts_filter (hfits.root hroot), List.nil_append]
  · obtain ⟨hget, hchild, hlegal⟩ := parentOf_eq_ok_iff.mp hparent
    obtain ⟨ps, hreach, hparts⟩ := reaches_of_ascend hget (Passage.fits_of_prepend hpre hlegal) hasc
    have hne : n.kind ≠ .root := fun hroot => by simp [hroot, Kind.mayPrecede_root] at hlegal
    obtain ⟨p, hp, habove⟩ := Passage.parts_of_prepend hfits hne hpre
    refine ⟨ps ++ [p], hreach.step hchild hn hup hp, ?_⟩
    rw [hparts, habove, List.append_assoc, List.singleton_append]
  termination_by moves

/-- Reading walks up from a node without a child that is no connector and no negation. -/
theorem read_cases (h : c.read id = .ok f) : ∃ n, c.get? id = some n ∧ n.child.value = none ∧
    ¬(n.kind.isConnector = true ∨ n.kind = .not) ∧ c.ascend c.size id n {} = .ok f := by
  unfold read at h
  split at h
  · cases h
  · rename_i n hn
    split at h
    · cases h
    · rename_i hset
      split at h
      · cases h
      · exact ⟨n, hn, by simpa [Slot.isSet] using hset, by assumption, h⟩

theorem read_eq_ascend (hn : c.get? id = some n) (hfree : n.child.value = none)
    (hend : ¬(n.kind.isConnector = true ∨ n.kind = .not)) : c.read id = c.ascend c.size id n {} := by
  simp only [read, hn, Slot.isSet, hfree, Option.isSome_none, Bool.false_eq_true, if_false, hend]

theorem reaches_of_read (h : c.read id = .ok f) : ∃ n, c.Reaches id n f.parts ∧ n.child.value = none := by
  obtain ⟨n, hn, hfree, -, hasc⟩ := read_cases h
  obtain ⟨ps, hreach, hparts⟩ := reaches_of_ascend hn Passage.fits_empty hasc
  rw [show Passage.parts {} = [] from rfl, List.append_nil] at hparts
  exact ⟨n, hparts ▸ hreach, hfree⟩

theorem Reaches.unique {m : Node} {qs : List Part} (h : c.Reaches id n ps) (h' : c.Reaches id m qs) : ps = qs := by
  induction h generalizing m qs with
  | root hn _ hparent =>
    cases h' with
    | root => rfl
    | step _ _ hm hup _ =>
      obtain rfl := Option.some.inj (hn.symm.trans hm)
      rw [hparent] at hup
      cases hup
  | step _ _ hn hup hp ih =>
    cases h' with
    | root hm _ hparent =>
      obtain rfl := Option.some.inj (hn.symm.trans hm)
      rw [hparent] at hup
      cases hup
    | step h' _ hm hup' hq =>
      obtain rfl := Option.some.inj (hn.symm.trans hm)
      obtain rfl := Option.some.inj (hup.symm.trans hup')
      obtain rfl := Option.some.inj (hp.symm.trans hq)
      rw [ih h']

end

/-! ### Routes -/

/-- Every node is one that the constructors make, wherever its links lead. -/
def Made (c : Chain) : Prop := ∀ n ∈ c.nodes, n.Made

def nodesAt (c : Chain) (ids : List NodeId) : List Node := ids.filterMap c.get?

/-- Distinct places in the chain lead from a root down to a leaf whose slot is free. Each one is the parent
    of the next one, which is its child, and the kinds on the way read a filter. -/
structure Route (c : Chain) (ids : List NodeId) (leaf : NodeId) : Prop where
  distinct : ids.Nodup
  present : ∀ id ∈ ids, id < c.size
  last : ids.getLast? = some leaf
  linked : ids.IsChain c.Linked
  free : c.isLeaf leaf = true
  reads : ReadsFilter ((c.nodesAt ids).map (·.kind))

section
variable {c c' : Chain} {id up leaf : NodeId} {ids : List NodeId} {n : Node} {f : Filter} {ps : List Part}

theorem nodesAt_concat (hn : c.get? id = some n) : c.nodesAt (ids ++ [id]) = c.nodesAt ids ++ [n] := by
  simp [nodesAt, hn]

theorem Made.node (hc : c.Made) (hn : c.get? id = some n) : n.Made := hc n (Array.mem_of_getElem? hn)

theorem Made.kind_eq {p : Part} (hc : c.Made) (hn : c.get? id = some n) (hp : n.part? = some p) : n.kind = p.kind := by
  rcases (hc.node hn).cases with ⟨hroot, -⟩ | ⟨q, -, hq, hkind, -⟩
  · rw [Node.part?_of_root hroot] at hp
    cases hp
  · obtain rfl := Option.some.inj (hq.symm.trans hp)
    exact hkind

/-- The places that the links lead over are distinct, since the way up from each one is shorter than the way
    up from the next one. -/
theorem Reaches.exists_places (hc : c.Made) (h : c.Reaches id n ps) : ∃ ids : List NodeId, ids.Nodup ∧
    (∀ x ∈ ids, ∃ m qs, c.Reaches x m qs ∧ qs.length ≤ ps.length) ∧ ids.getLast? = some id ∧
    ids.IsChain c.Linked ∧ (c.nodesAt ids).map (·.kind) = .root :: ps.map Part.kind := by
  induction h with
  | @root id n hn hkind hparent =>
    refine ⟨[id], List.nodup_singleton id, fun x hx => ?_, rfl, .singleton id, by simp [nodesAt, hn, hkind]⟩
    rw [List.mem_singleton.mp hx]
    exact ⟨n, [], .root hn hkind hparent, Nat.le_refl _⟩
  | @step up id parent n ps p h hchild hn hparent hp ih =>
    obtain ⟨ids, hdistinct, hways, hlast, hlinked, hkinds⟩ := ih
    have hreach := h.step hchild hn hparent hp
    refine ⟨ids ++ [id], ?_, fun x hx => ?_, by simp, ?_, ?_⟩
    · refine List.nodup_append.mpr ⟨hdistinct, List.nodup_singleton id, fun x hx y hy => ?_⟩
      rw [List.mem_singleton.mp hy]
      rintro rfl
      obtain ⟨m, qs, hm, hle⟩ := hways x hx
      rw [hm.unique hreach, List.length_append] at hle
      exact absurd hle (Nat.not_succ_le_self _)
    · rcases List.mem_append.mp hx with hx | hx
      · obtain ⟨m, qs, hm, hle⟩ := hways x hx
        exact ⟨m, qs, hm, by rw [List.length_append]; exact Nat.le_add_right_of_le hle⟩
      · rw [List.mem_singleton.mp hx]
        exact ⟨n, _, hreach, Nat.le_refl _⟩
    · refine List.isChain_append.mpr ⟨hlinked, .singleton id, fun x hx y hy => ?_⟩
      rw [hlast, Option.mem_some_iff] at hx
      rw [List.head?_cons, Option.mem_some_iff] at hy
      subst hx hy
      exact ⟨by simp [hn, hparent], by simp [child?, h.get?, hchild]⟩
    · rw [nodesAt_concat hn, List.map_append, hkinds, List.map_append]
      simp [hc.kind_eq hn hp]

theorem exists_route_of_read (hc : c.Made) (h : c.read leaf = .ok f) : ∃ ids, c.Route ids leaf := by
  obtain ⟨n, hreach, hfree⟩ := reaches_of_read h
  obtain ⟨ids, hdistinct, hways, hlast, hlinked, hkinds⟩ := hreach.exists_places hc
  refine ⟨ids, hdistinct, fun x hx => ?_, hlast, hlinked, isLeaf_eq_true_iff.mpr ⟨n, hreach.get?, hfree⟩, ?_⟩
  · obtain ⟨m, qs, hm, -⟩ := hways x hx
    exact lt_size_of_get? hm.get?
  · rw [hkinds]
    exact f.reads

/-- Links that agree lead down from a root over the parts of the nodes on the way. -/
theorem reaches_of_linked {first : NodeId} {root : Node} (hmade : ∀ id ∈ first :: ids, ∃ n, c.get? id = some n ∧ n.Made)
    (hfirst : c.get? first = some root) (hroot : root.kind = .root) (hlinked : (first :: ids).IsChain c.Linked) :
    ∀ {last}, (first :: ids).getLast? = some last → ∃ n, c.Reaches last n ((c.nodesAt ids).filterMap Node.part?) ∧
      (c.nodesAt ids).map (·.kind) = ((c.nodesAt ids).filterMap Node.part?).map Part.kind := by
  induction ids using List.reverseRecOn with
  | nil =>
    intro last hlast
    cases hlast
    obtain ⟨n, hn, hmade⟩ := hmade first List.mem_cons_self
    obtain rfl := Option.some.inj (hfirst.symm.trans hn)
    exact ⟨root, .root hfirst hroot (hmade.kind_eq_root_iff.mp hroot), rfl⟩
  | append_singleton ids id ih =>
    intro last hlast
    rw [← List.cons_append] at hmade hlinked hlast
    rw [List.getLast?_concat] at hlast
    cases hlast
    obtain ⟨hids, -, hlink⟩ := List.isChain_append.mp hlinked
    obtain ⟨up, hup⟩ : ∃ up, (first :: ids).getLast? = some up :=
      ⟨_, List.getLast?_eq_some_getLast (List.cons_ne_nil first ids)⟩
    obtain ⟨hback, hforth⟩ := hlink up hup id rfl
    obtain ⟨n, hn, hmaden⟩ := hmade id (by simp)
    obtain ⟨parent, hreach, hkinds⟩ := ih (fun x hx => hmade x (List.mem_append_left _ hx)) hids hup
    have hparent : n.parent = some up := by simpa [hn] using hback
    have hchild : parent.child.value = some id := by simpa [child?, hreach.get?] using hforth
    rcases hmaden.cases with ⟨-, hnone⟩ | ⟨p, -, hp, hkind, -⟩
    · rw [hparent] at hnone
      cases hnone
    · rw [nodesAt_concat hn, List.filterMap_append, List.map_append, List.map_append, hkinds]
      simp only [List.filterMap_cons_some hp, List.filterMap_nil]
      exact ⟨n, hreach.step hchild hn hparent hp, by simp [hkind]⟩

/-- The parts on the way, if the first node is a root. -/
def partsAt (c : Chain) (ids : List NodeId) : List Part := (c.nodesAt ids).filterMap Node.part?

namespace Route

theorem length_le (h : c.Route ids leaf) : ids.length ≤ c.size := by
  have hsub : ids ⊆ List.range c.size := fun x hx => List.mem_range.mpr (h.present x hx)
  have hle := (h.distinct.subperm hsub).length_le
  rwa [List.length_range] at hle

theorem mem_leaf (h : c.Route ids leaf) : leaf ∈ ids := List.mem_of_getLast? h.last

theorem exists_node (h : c.Route ids leaf) (hid : id ∈ ids) : ∃ n, c.get? id = some n := exists_get? (h.present id hid)

theorem reaches (h : c.Route ids leaf) (hmade : ∀ id ∈ ids, ∀ n, c.get? id = some n → n.Made) :
    (∃ f : Filter, f.parts = c.partsAt ids) ∧ (c.partsAt ids).length ≤ c.size ∧ ∃ n, c.Reaches leaf n (c.partsAt ids) := by
  have hnodes : ∀ id ∈ ids, ∃ n, c.get? id = some n ∧ n.Made := fun id hid => by
    obtain ⟨n, hn⟩ := h.exists_node hid
    exact ⟨n, hn, hmade id hid n hn⟩
  cases hids : ids with
  | nil =>
    have := h.last
    rw [hids] at this
    cases this
  | cons first rest =>
    rw [hids] at hnodes
    obtain ⟨root, hfirst, hroot⟩ := hnodes first List.mem_cons_self
    have hreads := h.reads
    have hcons : c.nodesAt (first :: rest) = root :: c.nodesAt rest := List.filterMap_cons_some hfirst
    rw [hids, hcons, List.map_cons] at hreads
    have hkind : root.kind = .root := by
      generalize hks : root.kind :: (c.nodesAt rest).map (·.kind) = ks at hreads
      cases hreads <;> exact (List.cons.inj hks).1
    have hparts : c.partsAt (first :: rest) = (c.nodesAt rest).filterMap Node.part? := by
      rw [partsAt, hcons, List.filterMap_cons_none (Node.part?_of_root hkind)]
    obtain ⟨n, hreach, hkinds⟩ := reaches_of_linked hnodes hfirst hkind (hids ▸ h.linked) (hids ▸ h.last)
    rw [hkind, hkinds] at hreads
    obtain ⟨f, hf⟩ := hreads.exists_filter
    refine ⟨⟨f, by rw [hparts, hf]⟩, ?_, n, by rwa [hparts]⟩
    rw [hparts]
    refine Nat.le_trans (List.length_filterMap_le _ _) (Nat.le_trans (List.length_filterMap_le _ _) ?_)
    have := h.length_le
    rw [hids, List.length_cons] at this
    omega

theorem read (h : c.Route ids leaf) (hmade : ∀ id ∈ ids, ∀ n, c.get? id = some n → n.Made) (hf : f.parts = c.partsAt ids) :
    c.read leaf = .ok f := by
  obtain ⟨-, hsize, n, hreach⟩ := h.reaches hmade
  rw [← hf] at hreach hsize
  obtain ⟨m, hm, hfree⟩ := isLeaf_eq_true_iff.mp h.free
  obtain rfl := Option.some.inj (hm.symm.trans hreach.get?)
  exact read_of_reaches hreach hfree hsize

/-- A route stays a route where the nodes on it stay the same. -/
theorem congr (h : c.Route ids leaf) (hsame : ∀ id ∈ ids, c'.get? id = c.get? id) : c'.Route ids leaf where
  distinct := h.distinct
  present id hid := by
    obtain ⟨n, hn⟩ := h.exists_node hid
    exact lt_size_of_get? ((hsame id hid).trans hn)
  last := h.last
  linked := h.linked.imp_of_mem_imp fun up id hup hid hlink => by
    rwa [Linked, child?, hsame up hup, hsame id hid]
  free := by
    have := h.free
    rwa [isLeaf, hsame leaf h.mem_leaf]
  reads := by
    have := h.reads
    rwa [nodesAt, List.filterMap_congr hsame]

end Route

/-! ### Wrong child links -/

def relinkAll (c : Chain) (links : List (NodeId × Option NodeId)) : Chain :=
  links.foldl (fun c l => c.relink l.1 l.2) c

/-- The chains differ in child links only. -/
def Relinked (c c' : Chain) : Prop := ∀ id n, c.get? id = some n → ∃ child, c'.get? id = some { n with child }

theorem get?_relink {child : Option NodeId} : (c.relink up child).get? id =
    if up = id then (c.get? id).map fun n => { n with child := ⟨child⟩ } else c.get? id :=
  Array.getElem?_modify

theorem child?_relink {child : Option NodeId} (hid : id < c.size) : (c.relink id child).child? id = child := by
  obtain ⟨n, hn⟩ := exists_get? hid
  rw [child?, get?_relink, if_pos rfl, hn]
  rfl

theorem relinked_relink {child : Option NodeId} : c.Relinked (c.relink up child) := by
  intro id n hn
  rw [get?_relink, hn]
  split
  · exact ⟨⟨child⟩, rfl⟩
  · exact ⟨n.child, rfl⟩

theorem Relinked.trans {d : Chain} (h : c.Relinked c') (h' : c'.Relinked d) : c.Relinked d := by
  intro id n hn
  obtain ⟨child, hchild⟩ := h id n hn
  obtain ⟨child', hchild'⟩ := h' id _ hchild
  exact ⟨child', hchild'⟩

section
variable {links : List (NodeId × Option NodeId)} {l : NodeId × Option NodeId}

theorem relinkAll_concat : c.relinkAll (links ++ [l]) = (c.relinkAll links).relink l.1 l.2 := by
  simp [relinkAll]

theorem size_relinkAll : (c.relinkAll links).size = c.size := by
  induction links using List.reverseRecOn with
  | nil => rfl
  | append_singleton links l ih =>
    rw [relinkAll_concat, ← ih]
    exact Array.size_modify

theorem relinked_relinkAll : c.Relinked (c.relinkAll links) := by
  induction links using List.reverseRecOn with
  | nil => exact fun id n hn => ⟨n.child, hn⟩
  | append_singleton links l ih =>
    rw [relinkAll_concat]
    exact ih.trans relinked_relink

theorem get?_relinkAll (h : ∀ l ∈ links, l.1 ≠ id) : (c.relinkAll links).get? id = c.get? id := by
  induction links using List.reverseRecOn with
  | nil => rfl
  | append_singleton links l ih =>
    obtain ⟨hlinks, hl⟩ := List.forall_mem_append.mp h
    rw [relinkAll_concat, get?_relink, if_neg (hl l List.mem_cons_self), ih hlinks]

end

theorem parentOf_of_child (kind : Kind) {parent : Node} (hparent : c.get? up = some parent)
    (hchild : parent.child.value ≠ some id) : ∃ e, c.parentOf id kind up = .error e ∧ e.category = .inconsistent := by
  cases hvalue : parent.child.value with
  | none => exact ⟨.childMissing up id, by simp [parentOf, hparent, hvalue], rfl⟩
  | some child =>
    have hne : child ≠ id := fun heq => hchild (heq ▸ hvalue)
    exact ⟨.childElsewhere up child id, by simp [parentOf, hparent, hvalue, hne], rfl⟩

theorem ascend_of_parentOf {moves : Nat} {below above : Passage} {e : FilterError} (hpre : below.prepend id n = .ok above)
    (hup : n.parent = some up) (hparent : c.parentOf id n.kind up = .error e) : c.ascend moves id n below = .error e := by
  rw [ascend.eq_def, hpre]
  simp only [bind, Except.bind, hup, hparent]

/-- With a wrong child link above it, a walk that went through before ends in an inconsistency: up to the
    lowest wrong link it goes on as before. -/
theorem ascend_of_relinked (hrel : c.Relinked c') (child : Slot NodeId) {moves : Nat} {below : Passage}
    (hasc : c.ascend moves id n below = .ok f) (hn : c.get? id = some n) (hlinked : (ids ++ [id]).IsChain c.Linked)
    (hwrong : ∃ x ∈ ids, c'.child? x ≠ c.child? x) :
    ∃ e, c'.ascend moves id { n with child } below = .error e ∧ e.category = .inconsistent := by
  induction ids using List.reverseRecOn generalizing id n child moves below with
  | nil =>
    obtain ⟨x, hx, -⟩ := hwrong
    cases hx
  | append_singleton ids up ih =>
    obtain ⟨hids, -, hlink⟩ := List.isChain_append.mp hlinked
    obtain ⟨hback, -⟩ := hlink up List.getLast?_concat id rfl
    have hup : n.parent = some up := by simpa [hn] using hback
    obtain ⟨above, hpre, ⟨hnone, -⟩ | ⟨up', parent, m, hup', hparent, rfl, hasc⟩⟩ := ascend_cases hasc
    · rw [hup] at hnone
      cases hnone
    · obtain rfl := Option.some.inj (hup.symm.trans hup')
      obtain ⟨hget, hchild, hlegal⟩ := parentOf_eq_ok_iff.mp hparent
      obtain ⟨slot, hget'⟩ := hrel up parent hget
      by_cases hslot : slot.value = some id
      · have hparent' : c'.parentOf id n.kind up = .ok { parent with child := slot } := parentOf_eq hget' hslot hlegal
        have hsame : c'.child? up = c.child? up := by simp [child?, hget, hget', hchild, hslot]
        obtain ⟨x, hx, hne⟩ := hwrong
        have hx' : x ∈ ids := by
          rcases List.mem_append.mp hx with hx | hx
          · exact hx
          · exact absurd (List.mem_singleton.mp hx ▸ hsame) hne
        obtain ⟨e, he, hcategory⟩ := ih slot hasc hget hids ⟨x, hx', hne⟩
        exact ⟨e, (ascend_succ (n := { n with child }) hpre hup hparent').trans he, hcategory⟩
      · obtain ⟨e, he, hcategory⟩ := parentOf_of_child n.kind hget' hslot
        exact ⟨e, ascend_of_parentOf (n := { n with child }) hpre hup he, hcategory⟩

end

section
variable {c c' : Chain} {leaf : NodeId} {ids : List NodeId}

theorem Route.compile_relinkAll {links : List (NodeId × Option NodeId)} {f : Filter} (h : c.Route ids leaf)
    (hread : c.read leaf = .ok f) (hne : links ≠ []) (hlinks : ∀ l ∈ links, l.1 ∈ ids.dropLast ∧ l.2 ≠ c.child? l.1) :
    ∃ e, (c.relinkAll links).compile leaf = .error e ∧ e.category = .inconsistent := by
  have hsplit : ids.dropLast ++ [leaf] = ids := List.dropLast_append_getLast? leaf h.last
  have hleaf : leaf ∉ ids.dropLast := fun hmem => by
    have := h.distinct
    rw [← hsplit] at this
    exact (List.nodup_append.mp this).2.2 leaf hmem leaf (List.mem_singleton_self leaf) rfl
  obtain ⟨n, hn, hfree, hend, hasc⟩ := read_cases hread
  have hn' : (c.relinkAll links).get? leaf = some n := by
    rw [get?_relinkAll fun l hl (heq : l.1 = leaf) => hleaf (heq ▸ (hlinks l hl).1), hn]
  have hwrong : ∃ x ∈ ids.dropLast, (c.relinkAll links).child? x ≠ c.child? x := by
    obtain ⟨init, l, rfl⟩ := List.eq_nil_or_concat links |>.resolve_left hne
    obtain ⟨hmem, hchild⟩ := hlinks l (by simp)
    refine ⟨l.1, hmem, ?_⟩
    have hpresent := h.present l.1 (List.dropLast_subset ids hmem)
    rw [List.concat_eq_append, relinkAll_concat, child?_relink (by rwa [size_relinkAll])]
    exact hchild
  obtain ⟨e, he, hcategory⟩ := ascend_of_relinked relinked_relinkAll n.child hasc hn (hsplit.symm ▸ h.linked) hwrong
  refine ⟨e, ?_, hcategory⟩
  rw [compile, read_eq_ascend hn' hfree hend, size_relinkAll, he]
  rfl

/-- Over nodes that are made by the constructors, however they are linked, compiling succeeds from a leaf
    exactly if there is a route to it. The text depends on the nodes of the route alone, and it is refused
    as inconsistent once some child links on the route above the leaf are overwritten with wrong ones. -/
theorem Made.compile_iff_route (hc : c.Made) (leaf : NodeId) :
    ((∃ body, c.compile leaf = .ok body) ↔ ∃ ids, c.Route ids leaf) ∧ ∀ ids, c.Route ids leaf →
      (∀ c' : Chain, (∀ id ∈ ids, c'.get? id = c.get? id) → c'.compile leaf = c.compile leaf) ∧
      ∀ links : List (NodeId × Option NodeId), links ≠ [] → (∀ l ∈ links, l.1 ∈ ids.dropLast ∧ l.2 ≠ c.child? l.1) →
        ∃ e, (c.relinkAll links).compile leaf = .error e ∧ e.category = .inconsistent := by
  have hread : ∀ {ids}, c.Route ids leaf → ∃ f : Filter, f.parts = c.partsAt ids ∧ c.read leaf = .ok f := by
    intro ids h
    obtain ⟨⟨f, hf⟩, -⟩ := h.reaches fun _ _ _ => hc.node
    exact ⟨f, hf, h.read (fun _ _ _ => hc.node) hf⟩
  refine ⟨⟨?_, ?_⟩, fun ids h => ?_⟩
  · rintro ⟨body, hbody⟩
    obtain ⟨f, hf, -⟩ := map_eq_ok_iff.mp hbody
    exact exists_route_of_read hc hf
  · rintro ⟨ids, h⟩
    obtain ⟨f, -, hf⟩ := hread h
    exact ⟨f.body, by rw [compile, hf]; rfl⟩
  · obtain ⟨f, hparts, hf⟩ := hread h
    refine ⟨fun c' hsame => ?_, fun links => h.compile_relinkAll hf⟩
    have hparts' : f.parts = c'.partsAt ids := by rw [hparts, partsAt, partsAt, nodesAt, nodesAt, List.filterMap_congr hsame]
    have hf' := (h.congr hsame).read (fun id hid n hn => hc.node ((hsame id hid).symm.trans hn)) hparts'
    rw [compile, compile, hf, hf']

/-- An arena with a second root and a node that is its own child. One filter runs through it. -/
def crossed : Chain :=
  let a := Criterion.pattern .test ⟨"u", by decide⟩ false
  ⟨#[{ Node.root with child := ⟨some 2⟩ }, Node.root, { (Part.criterion a).node 0 with child := ⟨some 4⟩ },
    { (Part.connector .and).node 9 with child := ⟨some 3⟩ }, { (Part.connector .or).node 2 with child := ⟨some 5⟩ },
    (Part.criterion a).node 4]⟩

theorem compile_crossed : crossed.Made ∧ crossed.Route [0, 2, 4, 5] 5 ∧ (∃ body, crossed.compile 5 = .ok body) ∧
    ∃ e, (crossed.relinkAll [(2, some 3), (4, none)]).compile 5 = .error e ∧ e.category = .inconsistent := by
  have hmade : crossed.Made := by
    simp only [Made, crossed, List.mem_toArray, List.forall_mem_cons]
    generalize Criterion.pattern _ _ _ = a
    exact ⟨.root ⟨some 2⟩, .root {}, Part.made_node (.criterion a) 0 ⟨some 4⟩, Part.made_node (.connector .and) 9 ⟨some 3⟩,
      Part.made_node (.connector .or) 2 ⟨some 5⟩, Part.made_node (.criterion a) 4 {}, by simp⟩
  have hroute : crossed.Route [0, 2, 4, 5] 5 :=
    ⟨by decide, by decide, rfl, .cons_cons ⟨rfl, rfl⟩ (.cons_cons ⟨rfl, rfl⟩ (.cons_cons ⟨rfl, rfl⟩ (.singleton 5))), rfl,
      .clause (.link (.term (.criterion rfl)) .or (.criterion rfl))⟩
  obtain ⟨hiff, hroutes⟩ := Made.compile_iff_route hmade 5
  exact ⟨hmade, hroute, hiff.mpr ⟨_, hroute⟩, (hroutes _ hroute).2 _ (List.cons_ne_nil _ _) (by decide)⟩

end

end Chain

end TestSelection
