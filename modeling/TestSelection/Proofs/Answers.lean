import TestSelection.Proofs.Arena
import TestSelection.Proofs.Creation
import TestSelection.Proofs.Phrases

/-! What handles answer. A handle can be asked to go on with a part, for a copy of itself, and for the document
    that ends at its node. Where it stands decides about the answer (`Bench.Stands.answers`): the chain goes on
    behind its last node and nowhere else, and a document ends there, at a root or a criterion. -/

namespace TestSelection

/-! ### Places and kinds -/

section
variable {ps : List Part} {place : Place} {p : Part} {n : Node}

theorem nodeAt_length : nodeAt (ps ++ [p]) (ps ++ [p]).length = some (p.node ps.length) := by
  rw [nodeAt_append, List.length_append, List.length_singleton, if_pos rfl]

theorem Fluent.kind_iff (h : Fluent ps place) (hn : nodeAt ps ps.length = some n) :
    (n.kind = .root ∨ n.kind.isCriterion = true) ↔ place = .root ∨ place = .criterion := by
  cases h with
  | root =>
    cases hn
    exact ⟨fun _ => Or.inl rfl, fun _ => Or.inl rfl⟩
  | criterion _ _ c =>
    rw [nodeAt_length] at hn
    cases hn
    exact ⟨fun _ => Or.inr rfl, fun _ => Or.inr c.isCriterion_kind⟩
  | negation =>
    rw [nodeAt_length] at hn
    cases hn
    simp [Part.node, Part.kind, Kind.isCriterion, Kind.isStructural]
  | connector _ _ k =>
    rw [nodeAt_length] at hn
    cases hn
    cases k <;> simp [Part.node, Part.kind, Connector.kind, Kind.isCriterion, Kind.isStructural]

theorem Kind.isConnector_or_eq_not {k : Kind} (h : ¬(k = .root ∨ k.isCriterion = true)) : k.isConnector = true ∨ k = .not := by
  cases k
  case and | or => exact Or.inl rfl
  case not => exact Or.inr rfl
  case root => exact absurd (Or.inl rfl) h
  all_goals exact absurd (Or.inr rfl) h

end

/-! ### Attaching at a handle -/

namespace Chain
variable {c c' : Chain} {ps : List Part} {p : Part} {n : Node} {id up : Nat}

/-- The chain has one node more, which holds a part and is the child of the node at `up`. -/
structure ExtendedBy (c : Chain) (p : Part) (up : NodeId) (c' : Chain) : Prop where
  size : c'.size = c.size + 1
  added : c'.get? c.size = some (p.node up)
  parent : ∀ n, c.get? up = some n → c'.get? up = some { n with child := ⟨some c.size⟩ }
  others : ∀ id, id ≠ c.size → id ≠ up → c'.get? id = c.get? id

theorem extendedBy_attached {parent : Node} (hparent : c.get? up = some parent) :
    c.ExtendedBy p up ⟨(c.nodes.setIfInBounds up { parent with child := ⟨some c.size⟩ }).push (p.node up)⟩ := by
  have hget := fun j => get?_attached (n := p.node up) (m := { parent with child := ⟨some c.size⟩ }) hparent j
  have hne : up ≠ c.size := Nat.ne_of_lt (lt_size_of_get? hparent)
  refine ⟨size_attached, ?_, fun n hn => ?_, fun j hj hjup => ?_⟩
  · rw [hget, if_pos rfl]
  · rw [hget, if_neg hne, if_pos rfl, Option.some.inj (hparent.symm.trans hn)]
  · rw [hget, if_neg hj, if_neg hjup]

theorem attach_of_set (hup : n.parent = some up) {parent : Node} (hparent : c.get? up = some parent)
    (hset : parent.child.value ≠ none) : c.attach n = .error (.childAlreadySet parent.kind) := by
  obtain ⟨child, hchild⟩ := Option.ne_none_iff_exists'.mp hset
  simp [attach, hup, hparent, Slot.set, hchild]

theorem Spells.eq_last_iff (h : c.Spells ps) (hn : c.get? id = some n) : id + 1 = c.size ↔ n.child.value = none := by
  have hnode : nodeAt ps id = some n := (h id).symm.trans hn
  have hle : id ≤ ps.length := nodeAt_isSome.mp (by rw [hnode]; rfl)
  rw [h.size, child_of_nodeAt hnode, linkAt]
  simp
  omega

end Chain

/-! ### Requests -/

inductive Request where
  | negate
  | connect (k : Connector)
  | attach (c : Criterion)
  | create (r : Creator)
  | copy
  | build

inductive Answer where
  | handle (h : Handle)
  | document (d : Document)
  deriving DecidableEq

def Part.place : Part → Place
  | negation => .negation
  | connector _ => .group
  | criterion _ => .criterion

/-- Whether a part may follow a handle that stands at a place. -/
@[reducible] def Part.follows : Part → Place → Bool
  | negation, place => place.takesNegation
  | connector _, place => place.takesConnector
  | criterion _, place => place.takesCriterion

namespace Request

/-- Whether a handle that stands at a place can be asked at all. -/
@[reducible] def fits : Request → Place → Bool
  | negate, place => place.takesNegation
  | connect _, place => place.takesConnector
  | attach _, place | create _, place => place.takesCriterion
  | copy, _ | build, _ => true

/-- Whether the chain is to go on behind the handle. -/
def goesOn : Request → Bool
  | negate | connect _ | attach _ | create _ => true
  | copy | build => false

/-- Why the arguments are refused, if they are. -/
def refusal? : Request → Option FilterError
  | create r => r.refusal?
  | _ => none

def part? : Request → Option Part
  | negate => some .negation
  | connect k => some (.connector k)
  | attach c => some (.criterion c)
  | create r => r.recipe.make.toOption.map .criterion
  | copy | build => none

theorem exists_part? {r : Request} (h : r.goesOn = true) (hrefusal : r.refusal? = none) : ∃ p, r.part? = some p := by
  cases r with
  | negate => exact ⟨_, rfl⟩
  | connect k => exact ⟨_, rfl⟩
  | attach c => exact ⟨_, rfl⟩
  | create r =>
    rcases r.make_cases with ⟨e, he, -⟩ | ⟨-, c, hc⟩
    · rw [refusal?, he] at hrefusal
      cases hrefusal
    · exact ⟨.criterion c, by rw [part?, hc]; rfl⟩
  | copy | build => cases h

theorem follows_of_fits {r : Request} {p : Part} {place : Place} (hr : r.fits place = true) (hp : r.part? = some p) :
    p.follows place = true := by
  cases r with
  | negate | connect | attach =>
    cases hp
    exact hr
  | create r =>
    obtain ⟨c, -, rfl⟩ := Option.map_eq_some_iff.mp hp
    exact hr
  | copy | build => cases hp

theorem category_of_refusal {r : Request} {e : FilterError} (h : r.refusal? = some e) : e.category = .validation := by
  cases r with
  | create r => exact Creator.category_of_refusal h
  | negate | connect | attach | copy | build => cases h

end Request

namespace Bench

/-- What becomes of the bench when a handle is asked, and the answer. -/
def answer (b : Bench) (h : Handle) : (r : Request) → r.fits h.place = true → Except FilterError (Bench × Answer)
  | .negate, hr => (b.negation h hr).map fun a => (a.1, .handle a.2)
  | .connect k, hr => (b.connector h k hr).map fun a => (a.1, .handle a.2)
  | .attach c, hr => (b.criterion h c hr).map fun a => (a.1, .handle a.2)
  | .create r, hr => (b.create h r.recipe hr).map fun a => (a.1, .handle a.2)
  | .copy, _ => .ok (b, .handle h)
  | .build, _ => (b.build h).map fun d => (b, .document d)

section
variable {b b' : Bench} {h h' : Handle} {hs : List Handle} {c : Chain} {n : Node} {r : Request} {p : Part} {e : FilterError}

theorem create_of_make {r : Criterion.Recipe} {c : Criterion} {hp : h.place.takesCriterion = true} (hc : r.make = .ok c) :
    b.create h r hp = b.criterion h c hp := by
  rw [create, hc]
  rfl

theorem create_of_refusal {r : Criterion.Recipe} {hp : h.place.takesCriterion = true} (he : r.make = .error e) :
    b.create h r hp = .error e := by
  rw [create, he]
  rfl

theorem answer_of_part (hr : r.fits h.place = true) (hp : r.part? = some p) :
    b.answer h r hr = (b.attach h (p.node h.node) p.place).map fun a => (a.1, .handle a.2) := by
  cases r with
  | negate =>
    cases hp
    rw [answer, negation_eq]
    rfl
  | connect k =>
    cases hp
    rw [answer, connector_eq]
    rfl
  | attach c =>
    cases hp
    rw [answer, criterion_eq]
    rfl
  | create r =>
    rw [Request.part?] at hp
    cases hc : r.recipe.make with
    | error e =>
      rw [hc] at hp
      cases hp
    | ok c =>
      rw [hc] at hp
      cases hp
      rw [answer, create_of_make hc, criterion_eq]
      rfl
  | copy | build => cases hp

theorem answer_of_refusal (hr : r.fits h.place = true) (he : r.refusal? = some e) : b.answer h r hr = .error e := by
  cases r with
  | create r =>
    rcases r.make_cases with ⟨e', he', hmake⟩ | ⟨hnone, -⟩
    · obtain rfl := Option.some.inj (he.symm.trans he')
      rw [answer, create_of_refusal hmake]
      rfl
    · rw [Request.refusal?, hnone] at he
      cases he
  | negate | connect | attach | copy | build => cases he

/-- A request that succeeds puts its part behind the node of the handle, or it leaves the bench as it is. -/
theorem answer_cases {a : Answer} (hr : r.fits h.place = true) (ha : b.answer h r hr = .ok (b', a)) :
    (∃ p h', r.part? = some p ∧ b.attach h (p.node h.node) p.place = .ok (b', h') ∧ a = .handle h') ∨
    (b' = b ∧ (a = .handle h ∨ ∃ d, a = .document d)) := by
  cases hp : r.part? with
  | some p =>
    rw [answer_of_part hr hp] at ha
    obtain ⟨g, hatt, heq⟩ := map_eq_ok_iff.mp ha
    cases heq
    exact Or.inl ⟨p, g.2, rfl, hatt, rfl⟩
  | none =>
    cases r with
    | negate | connect | attach => cases hp
    | create r =>
      cases hrefusal : r.refusal? with
      | some e =>
        rw [answer_of_refusal hr hrefusal] at ha
        cases ha
      | none =>
        obtain ⟨p, hsome⟩ := Request.exists_part? (r := .create r) rfl hrefusal
        rw [hsome] at hp
        cases hp
    | copy =>
      cases ha
      exact Or.inr ⟨rfl, Or.inl rfl⟩
    | build =>
      obtain ⟨d, -, heq⟩ := map_eq_ok_iff.mp ha
      cases heq
      exact Or.inr ⟨rfl, Or.inr ⟨d, rfl⟩⟩

theorem Reachable.attach (r : b.Reachable hs) (hh : h ∈ hs) (hp : p.follows h.place = true)
    (ha : b.attach h (p.node h.node) p.place = .ok (b', h')) : b'.Reachable (h' :: hs) := by
  cases p with
  | negation => exact r.negation hp hh (negation_eq ▸ ha)
  | connector k => exact r.connector hp hh (connector_eq ▸ ha)
  | criterion c => exact r.criterion hp hh (criterion_eq ▸ ha)

end

/-! ### How a handle answers -/

section
variable {b b' : Bench} {h : Handle} {c : Chain} {n : Node} {r : Request} {p : Part} {place : Place}

theorem Stands.exists_node (hst : b.Stands h) : ∃ c n, b.chains[h.chain]? = some c ∧ c.get? h.node = some n := by
  obtain ⟨c, ps, hc, hps, hle, -⟩ := hst
  obtain ⟨n, hn⟩ := Option.isSome_iff_exists.mp (nodeAt_isSome.mpr hle)
  exact ⟨c, n, hc, (hps h.node).trans hn⟩

/-- A part goes behind the last node of a chain and behind no other one. -/
theorem Stands.attach_cases (hst : b.Stands h) (hc : b.chains[h.chain]? = some c) (hn : c.get? h.node = some n) (p : Part)
    (place : Place) :
    (h.node + 1 = c.size ∧ ∃ c', c.ExtendedBy p h.node c' ∧
      b.attach h (p.node h.node) place = .ok (⟨b.chains.setIfInBounds h.chain c'⟩, ⟨place, h.chain, c.size⟩)) ∨
    (h.node + 1 ≠ c.size ∧ b.attach h (p.node h.node) place = .error (.childAlreadySet n.kind)) := by
  obtain ⟨d, ps, hd, hps, -, -⟩ := hst
  obtain rfl := Option.some.inj (hc.symm.trans hd)
  rw [attach, chainOf_eq hc]
  by_cases hfree : n.child.value = none
  · have ha : c.attach (p.node h.node) = .ok (_, c.size) :=
      Chain.attach_eq_ok_iff.mpr ⟨h.node, n, rfl, hn, hfree, rfl, rfl⟩
    exact Or.inl ⟨(hps.eq_last_iff hn).mpr hfree, _, Chain.extendedBy_attached hn, by rw [ha]; rfl⟩
  · refine Or.inr ⟨mt (hps.eq_last_iff hn).mp hfree, ?_⟩
    rw [Chain.attach_of_set rfl hn hfree]
    rfl

theorem Stands.build_cases (hst : b.Stands h) (hc : b.chains[h.chain]? = some c) (hn : c.get? h.node = some n) :
    (h.node + 1 = c.size ∧ (n.kind = .root ∨ n.kind.isCriterion = true) ∧ ∃ d, b.build h = .ok d) ∨
    (¬(h.node + 1 = c.size ∧ (n.kind = .root ∨ n.kind.isCriterion = true)) ∧
      ∃ e, b.build h = .error e ∧ e.category = .validation ∧ e.argument? = some "leaf") := by
  obtain ⟨d, ps, hd, hps, -, hfl⟩ := hst
  obtain rfl := Option.some.inj (hc.symm.trans hd)
  rw [build, chainOf_eq hc, Chain.document]
  by_cases hfree : n.child.value = none
  · have hlast := (hps.eq_last_iff hn).mpr hfree
    by_cases hkind : n.kind = .root ∨ n.kind.isCriterion = true
    · have hnode : h.node = ps.length := Nat.succ.inj (hlast.trans hps.size)
      rw [hps h.node, hnode] at hn
      rw [hnode, List.take_length] at hfl
      obtain ⟨f, rfl⟩ := hfl.exists_filter ((hfl.kind_iff hn).mp hkind)
      exact Or.inl ⟨hlast, hkind, f.document, by rw [hnode, hps.read]; rfl⟩
    · refine Or.inr ⟨fun hand => hkind hand.2, .dangling n.kind, ?_, rfl, rfl⟩
      simp only [Chain.read, hn, Slot.isSet, hfree, Option.isSome_none, Bool.false_eq_true, if_false,
        if_pos (Kind.isConnector_or_eq_not hkind)]
      rfl
  · refine Or.inr ⟨fun hand => hfree ((hps.eq_last_iff hn).mp hand.1), .notLeaf, ?_, rfl, rfl⟩
    simp only [Chain.read, hn, Slot.isSet, Option.isSome_iff_ne_none.mpr hfree, if_true]
    rfl

/-- How a handle answers that stands on a node of a chain. -/
structure Answers (b : Bench) (h : Handle) (c : Chain) (n : Node) : Prop where
  /-- The chain goes on behind its last node, and only there. -/
  goes_on : ∀ (r : Request) (hr : r.fits h.place = true), r.goesOn = true → r.refusal? = none → ∃ p, r.part? = some p ∧
    ((h.node + 1 = c.size ∧ ∃ c', c.ExtendedBy p h.node c' ∧
      b.answer h r hr = .ok (⟨b.chains.setIfInBounds h.chain c'⟩, .handle ⟨p.place, h.chain, c.size⟩)) ∨
    (h.node + 1 ≠ c.size ∧ b.answer h r hr = .error (.childAlreadySet n.kind)))
  refuses : ∀ (r : Request) (hr : r.fits h.place = true) (e : FilterError), r.refusal? = some e →
    b.answer h r hr = .error e ∧ e.category = .validation
  copies : b.answer h .copy rfl = .ok (b, .handle h)
  builds : (h.node + 1 = c.size ∧ (n.kind = .root ∨ n.kind.isCriterion = true) ∧
      ∃ d, b.answer h .build rfl = .ok (b, .document d)) ∨
    (¬(h.node + 1 = c.size ∧ (n.kind = .root ∨ n.kind.isCriterion = true)) ∧
      ∃ e, b.answer h .build rfl = .error e ∧ e.category = .validation ∧ e.argument? = some "leaf")

theorem Stands.answers (hst : b.Stands h) (hc : b.chains[h.chain]? = some c) (hn : c.get? h.node = some n) :
    b.Answers h c n where
  goes_on r hr hgo hrefusal := by
    obtain ⟨p, hp⟩ := Request.exists_part? hgo hrefusal
    refine ⟨p, hp, ?_⟩
    rw [answer_of_part hr hp]
    rcases hst.attach_cases hc hn p p.place with ⟨hlast, c', hext, ha⟩ | ⟨hne, ha⟩
    · exact Or.inl ⟨hlast, c', hext, by rw [ha]; rfl⟩
    · exact Or.inr ⟨hne, by rw [ha]; rfl⟩
  refuses r hr e he := ⟨answer_of_refusal hr he, Request.category_of_refusal he⟩
  copies := rfl
  builds := by
    rcases hst.build_cases hc hn with ⟨hlast, hkind, d, hd⟩ | ⟨hnot, e, he, hcategory⟩
    · exact Or.inl ⟨hlast, hkind, d, by rw [answer, hd]; rfl⟩
    · exact Or.inr ⟨hnot, e, by rw [answer, he]; rfl, hcategory⟩

end

end Bench

end TestSelection
