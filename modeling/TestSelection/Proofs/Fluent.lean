import Mathlib.Data.List.Induction
import TestSelection.Proofs.Spelling
import TestSelection.Results

/-! Chains put together by calls on handles. Calls may be made in any order and through any handle that an
    earlier call gave out, however old it is, on any number of chains. Wherever they lead, each handle
    stands on a chain that spells some parts, and its place is the one that the parts up to its node lead
    to (`Reachable.stands`). A handle is finished on a filter if it stands at the end of a chain whose
    nodes spell that filter; each handle on a root or a criterion at the end of its chain is
    (`Reachable.exists_filter`), and there is such a handle for every filter (`exists_finished`). -/

namespace TestSelection

/-! ### What may follow what -/

/-- The parts that calls can put behind a root, with the place of the handle that they lead to. -/
inductive Fluent : List Part → Place → Prop where
  | root : Fluent [] .root
  | criterion {ps : List Part} {place : Place} (h : Fluent ps place) (hp : place.takesCriterion = true)
      (c : Criterion) : Fluent (ps ++ [.criterion c]) .criterion
  | negation {ps : List Part} {place : Place} (h : Fluent ps place) (hp : place.takesNegation = true) :
      Fluent (ps ++ [.negation]) .negation
  | connector {ps : List Part} {place : Place} (h : Fluent ps place) (hp : place.takesConnector = true)
      (k : Connector) : Fluent (ps ++ [.connector k]) .group

theorem Fluent.term {ps : List Part} {place : Place} (h : Fluent ps place) (hp : place.takesNegation = true)
    (t : Term) : Fluent (ps ++ t.parts) .criterion := by
  obtain ⟨c, _ | _⟩ := t
  · exact h.criterion (by cases place <;> simp_all [Place.takesNegation, Place.takesCriterion]) c
  · have := (h.negation hp).criterion rfl c
    simpa [Term.parts] using this

theorem Fluent.clause (c : Clause) : Fluent c.parts .criterion := by
  obtain ⟨first, rest⟩ := c
  induction rest using List.reverseRecOn with
  | nil => simpa [Clause.parts] using Fluent.root.term rfl first
  | append_singleton rest l ih =>
    have := (ih.connector rfl l.1).term rfl l.2
    simpa [Clause.parts] using this

theorem Fluent.filter (f : Filter) : ∃ place, Fluent f.parts place := by
  cases f with
  | everything => exact ⟨_, .root⟩
  | clause c => exact ⟨_, .clause c⟩

/-- Some parts that a term may follow: none at all, or those of a clause and a connector. -/
def TakesTerm (ps : List Part) : Prop := ps = [] ∨ ∃ (c : Clause) (k : Connector), ps = c.parts ++ [.connector k]

/-- What the parts up to a handle are, by its place. -/
def Place.Shape : Place → List Part → Prop
  | root, ps => ps = []
  | criterion, ps => ∃ c : Clause, ps = c.parts
  | group, ps => TakesTerm ps
  | negation, ps => ∃ qs, ps = qs ++ [.negation] ∧ TakesTerm qs

theorem TakesTerm.exists_clause {ps : List Part} (h : TakesTerm ps) (t : Term) : ∃ c : Clause, ps ++ t.parts = c.parts := by
  rcases h with rfl | ⟨⟨first, rest⟩, k, rfl⟩
  · exact ⟨⟨t, []⟩, by simp [Clause.parts]⟩
  · exact ⟨⟨first, rest ++ [(k, t)]⟩, (Clause.parts_concat first rest (k, t)).symm⟩

theorem Fluent.shape {ps : List Part} {place : Place} (h : Fluent ps place) : place.Shape ps := by
  induction h with
  | root => rfl
  | @criterion ps place _ hp c ih =>
    cases place with
    | root => exact TakesTerm.exists_clause (Or.inl ih) ⟨c, false⟩
    | group => exact TakesTerm.exists_clause ih ⟨c, false⟩
    | negation =>
      obtain ⟨qs, rfl, hqs⟩ := ih
      obtain ⟨clause, hclause⟩ := hqs.exists_clause ⟨c, true⟩
      exact ⟨clause, by simpa [Term.parts] using hclause⟩
    | criterion => cases hp
  | @negation ps place _ hp ih =>
    cases place with
    | root => exact ⟨ps, rfl, Or.inl ih⟩
    | group => exact ⟨ps, rfl, ih⟩
    | negation | criterion => cases hp
  | @connector ps place _ hp k ih =>
    cases place with
    | criterion =>
      obtain ⟨c, rfl⟩ := ih
      exact Or.inr ⟨c, k, rfl⟩
    | root | group | negation => cases hp

/-- Where calls lead to a root or a criterion, the parts are those of a filter. -/
theorem Fluent.exists_filter {ps : List Part} {place : Place} (h : Fluent ps place) (hplace : place = .root ∨ place = .criterion) :
    ∃ f : Filter, ps = f.parts := by
  have hshape := h.shape
  rcases hplace with rfl | rfl
  · exact ⟨.everything, hshape⟩
  · obtain ⟨c, hc⟩ := hshape
    exact ⟨.clause c, hc⟩

namespace Bench

/-! ### Runs of calls -/

/-- The benches that calls lead to, with all handles that the calls gave out. A call that fails and a call
    that only looks change nothing, and a copy of a handle is the same handle. -/
inductive Reachable : Bench → List Handle → Prop where
  | empty : Reachable {} []
  | begin {b : Bench} {hs : List Handle} (r : Reachable b hs) : Reachable b.begin.1 (b.begin.2 :: hs)
  | criterion {b b' : Bench} {hs : List Handle} {h h' : Handle} {c : Criterion} (hp : h.place.takesCriterion = true)
      (r : Reachable b hs) (hh : h ∈ hs) (hc : b.criterion h c hp = .ok (b', h')) : Reachable b' (h' :: hs)
  | negation {b b' : Bench} {hs : List Handle} {h h' : Handle} (hp : h.place.takesNegation = true)
      (r : Reachable b hs) (hh : h ∈ hs) (hc : b.negation h hp = .ok (b', h')) : Reachable b' (h' :: hs)
  | connector {b b' : Bench} {hs : List Handle} {h h' : Handle} {k : Connector} (hp : h.place.takesConnector = true)
      (r : Reachable b hs) (hh : h ∈ hs) (hc : b.connector h k hp = .ok (b', h')) : Reachable b' (h' :: hs)

/-- The chain of the handle is there and spells some parts, and the parts up to the handle lead to its
    place. -/
def Stands (b : Bench) (h : Handle) : Prop :=
  ∃ c ps, b.chains[h.chain]? = some c ∧ c.Spells ps ∧ h.node ≤ ps.length ∧ Fluent (ps.take h.node) h.place

section
variable {b b' : Bench} {hs : List Handle} {h h' : Handle} {p : Part} {place : Place} {f : Filter}

theorem chainOf_eq {c : Chain} (hc : b.chains[h.chain]? = some c) : b.chainOf h = c := by
  simp [chainOf, hc]

theorem criterion_eq {c : Criterion} {hp : h.place.takesCriterion = true} :
    b.criterion h c hp = b.attach h ((Part.criterion c).node h.node) .criterion := by
  rw [criterion, Part.ofCriterion_eq]
  rfl

theorem negation_eq {hp : h.place.takesNegation = true} :
    b.negation h hp = b.attach h (Part.negation.node h.node) .negation := by
  rw [negation, Part.structural_not]
  rfl

theorem connector_eq {k : Connector} {hp : h.place.takesConnector = true} :
    b.connector h k hp = b.attach h ((Part.connector k).node h.node) .group := by
  rw [connector, Part.structural_connector]
  rfl

theorem attach_eq_ok_iff {n : Node} : b.attach h n place = .ok (b', h') ↔
    ∃ c id, (b.chainOf h).attach n = .ok (c, id) ∧ b' = ⟨b.chains.setIfInBounds h.chain c⟩ ∧
      h' = ⟨place, h.chain, id⟩ := by
  rw [attach, map_eq_ok_iff]
  constructor
  · rintro ⟨⟨c, id⟩, hc, heq⟩
    cases heq
    exact ⟨c, id, hc, rfl, rfl⟩
  · rintro ⟨c, id, hc, rfl, rfl⟩
    exact ⟨_, hc, rfl⟩

/-- A call that puts a part behind the node of a handle leaves every handle where it stands. -/
theorem Stands.of_attach {g : Handle} (hg : b.Stands g) (hh : b.Stands h)
    (ha : b.attach h (p.node h.node) place = .ok (b', h')) : b'.Stands g := by
  obtain ⟨c, ps, hc, hps, -, -⟩ := hh
  obtain ⟨c', id, hatt, rfl, rfl⟩ := attach_eq_ok_iff.mp ha
  rw [chainOf_eq hc] at hatt
  obtain ⟨-, -, hps'⟩ := hps.of_attach hatt
  obtain ⟨d, qs, hd, hqs, hle, hfl⟩ := hg
  by_cases hi : h.chain = g.chain
  · -- On the same chain the handle sees the same parts, of which there is one more behind them.
    rw [hi] at hc
    obtain rfl : c = d := Option.some.inj (hc.symm.trans hd)
    obtain rfl : ps = qs := hps.parts.symm.trans hqs.parts
    have hlt := (Array.getElem?_eq_some_iff.mp hc).1
    refine ⟨c', ps ++ [p], by simp [hi, hlt], hps', ?_, ?_⟩
    · rw [List.length_append]
      exact Nat.le_add_right_of_le hle
    · rwa [List.take_append_of_le_length hle]
  · exact ⟨d, qs, by simpa [hi] using hd, hqs, hle, hfl⟩

theorem stands_of_attach (hh : b.Stands h) (ha : b.attach h (p.node h.node) place = .ok (b', h'))
    (hfl : ∀ ps, Fluent ps h.place → Fluent (ps ++ [p]) place) : b'.Stands h' := by
  obtain ⟨c, ps, hc, hps, -, hplace⟩ := hh
  obtain ⟨c', id, hatt, rfl, rfl⟩ := attach_eq_ok_iff.mp ha
  rw [chainOf_eq hc] at hatt
  obtain ⟨hlast, rfl, hps'⟩ := hps.of_attach hatt
  have hlt := (Array.getElem?_eq_some_iff.mp hc).1
  refine ⟨c', ps ++ [p], by simp [hlt], hps', by simp, ?_⟩
  have := hfl _ hplace
  rw [hlast, List.take_length] at this
  simpa [List.take_of_length_le] using this

/-- Wherever calls lead, each handle stands. -/
theorem Reachable.stands (r : b.Reachable hs) : ∀ h ∈ hs, b.Stands h := by
  have step : ∀ {b b' : Bench} {hs : List Handle} {h h' : Handle} {p : Part} {place : Place},
      (∀ g ∈ hs, b.Stands g) → h ∈ hs → b.attach h (p.node h.node) place = .ok (b', h') →
      (∀ ps, Fluent ps h.place → Fluent (ps ++ [p]) place) → ∀ g ∈ h' :: hs, b'.Stands g := by
    intro b b' hs h h' p place ih hh ha hfl g hg
    rcases List.mem_cons.mp hg with rfl | hg
    · exact stands_of_attach (ih h hh) ha hfl
    · exact (ih g hg).of_attach (ih h hh) ha
  induction r with
  | empty => simp
  | @begin b hs _ ih =>
    intro g hg
    rcases List.mem_cons.mp hg with rfl | hg
    · exact ⟨Chain.fresh, [], by simp [Bench.begin], Chain.fresh_spells, Nat.le_refl 0, .root⟩
    · obtain ⟨c, ps, hc, hps, hle, hfl⟩ := ih g hg
      have hlt := (Array.getElem?_eq_some_iff.mp hc).1
      refine ⟨c, ps, ?_, hps, hle, hfl⟩
      simpa [Bench.begin, Array.getElem?_push, Nat.ne_of_lt hlt] using hc
  | @criterion b b' hs h h' c hp _ hh hc ih =>
    exact step ih hh (criterion_eq ▸ hc) fun _ hfl => hfl.criterion hp c
  | @negation b b' hs h h' hp _ hh hc ih =>
    exact step ih hh (negation_eq ▸ hc) fun _ hfl => hfl.negation hp
  | @connector b b' hs h h' k hp _ hh hc ih =>
    exact step ih hh (connector_eq ▸ hc) fun _ hfl => hfl.connector hp k

/-- Wherever calls lead, each chain spells parts that calls can put behind a root. -/
theorem Reachable.fluent (r : b.Reachable hs) : ∀ {i : Nat} {c : Chain}, b.chains[i]? = some c →
    ∃ ps place, c.Spells ps ∧ Fluent ps place := by
  have step : ∀ {b b' : Bench} {hs : List Handle} {h h' : Handle} {p : Part} {place : Place}, b.Reachable hs → h ∈ hs →
      b.attach h (p.node h.node) place = .ok (b', h') →
      (∀ {i : Nat} {c : Chain}, b.chains[i]? = some c → ∃ ps place, c.Spells ps ∧ Fluent ps place) →
      (∀ ps, Fluent ps h.place → Fluent (ps ++ [p]) place) →
      ∀ {i : Nat} {c : Chain}, b'.chains[i]? = some c → ∃ ps place, c.Spells ps ∧ Fluent ps place := by
    intro b b' hs h h' p place r hh ha ih hfl i c hc
    obtain ⟨d, ps, hd, hps, -, hplace⟩ := r.stands h hh
    obtain ⟨d', id, hatt, rfl, rfl⟩ := attach_eq_ok_iff.mp ha
    rw [chainOf_eq hd] at hatt
    obtain ⟨hlast, -, hps'⟩ := hps.of_attach hatt
    rw [Array.getElem?_setIfInBounds] at hc
    split at hc
    · split at hc <;> cases hc
      rw [hlast, List.take_length] at hplace
      exact ⟨ps ++ [p], place, hps', hfl ps hplace⟩
    · exact ih hc
  induction r with
  | empty => simp
  | begin _ ih =>
    intro i c hc
    rw [Bench.begin, Array.getElem?_push] at hc
    split at hc
    · cases hc
      exact ⟨[], .root, Chain.fresh_spells, .root⟩
    · exact ih hc
  | criterion hp r hh ha ih => exact step r hh (criterion_eq ▸ ha) ih fun _ hfl => hfl.criterion hp _
  | negation hp r hh ha ih => exact step r hh (negation_eq ▸ ha) ih fun _ hfl => hfl.negation hp
  | connector hp r hh ha ih => exact step r hh (connector_eq ▸ ha) ih fun _ hfl => hfl.connector hp _

/-! ### Finished chains -/

/-- Calls led to this bench and this handle, which stands at the end of a chain whose nodes, one after the
    other, are the root and the parts of the filter. -/
structure Finished (b : Bench) (h : Handle) (f : Filter) : Prop where
  reachable : ∃ hs, b.Reachable hs ∧ h ∈ hs
  leaf : b.isLeaf h = true
  parts : (b.chainOf h).parts = f.parts

theorem Finished.spells (hf : b.Finished h f) : (b.chainOf h).Spells f.parts ∧ h.node = f.parts.length := by
  obtain ⟨hs, r, hh⟩ := hf.reachable
  obtain ⟨c, ps, hc, hps, hle, -⟩ := r.stands h hh
  have hparts := hf.parts
  have hleaf := hf.leaf
  rw [chainOf_eq hc, hps.parts] at hparts
  rw [isLeaf, chainOf_eq hc, hps.isLeaf_iff hle] at hleaf
  subst hparts
  rw [chainOf_eq hc]
  exact ⟨hps, hleaf⟩

/-- A handle on a root or a criterion without a child is finished on some filter. -/
theorem Reachable.exists_filter (r : b.Reachable hs) (hh : h ∈ hs) (hleaf : b.isLeaf h = true)
    (hplace : h.place = .root ∨ h.place = .criterion) : ∃ f, b.Finished h f := by
  obtain ⟨c, ps, hc, hps, hle, hfl⟩ := r.stands h hh
  have hnode : h.node = ps.length := (hps.isLeaf_iff hle).mp (by rwa [isLeaf, chainOf_eq hc] at hleaf)
  have hchain : (b.chainOf h).parts = ps := by rw [chainOf_eq hc, hps.parts]
  rw [hnode, List.take_length] at hfl
  obtain ⟨f, hf⟩ := hfl.exists_filter hplace
  exact ⟨f, ⟨hs, r, hh⟩, hleaf, hchain.trans hf⟩

/-- A call that goes on from the end of a chain succeeds. -/
theorem exists_attach {c : Chain} {ps : List Part} (hc : b.chains[h.chain]? = some c) (hps : c.Spells ps)
    (hnode : h.node = ps.length) (p : Part) (place : Place) :
    ∃ b' h' c', b.attach h (p.node h.node) place = .ok (b', h') ∧ h'.place = place ∧
      b'.chains[h'.chain]? = some c' ∧ c'.Spells (ps ++ [p]) ∧ h'.node = (ps ++ [p]).length := by
  obtain ⟨c', ha, hps'⟩ := hps.attach p
  have hlt := (Array.getElem?_eq_some_iff.mp hc).1
  refine ⟨_, _, c', attach_eq_ok_iff.mpr ⟨c', ps.length + 1, ?_, rfl, rfl⟩, rfl, ?_, hps', by simp⟩
  · rw [chainOf_eq hc, hnode, ha]
  · simp [hlt]

theorem exists_reachable {ps : List Part} (hfl : Fluent ps place) : ∃ b hs h c, Reachable b hs ∧ h ∈ hs ∧
    h.place = place ∧ b.chains[h.chain]? = some c ∧ c.Spells ps ∧ h.node = ps.length := by
  induction hfl with
  | root =>
    exact ⟨_, _, _, Chain.fresh, Reachable.empty.begin, List.mem_cons_self, rfl, rfl, Chain.fresh_spells, rfl⟩
  | criterion _ hp c ih =>
    obtain ⟨b, hs, h, d, r, hh, rfl, hd, hps, hnode⟩ := ih
    obtain ⟨b', h', d', ha, hrest⟩ := exists_attach hd hps hnode (.criterion c) .criterion
    exact ⟨b', _, h', d', r.criterion hp hh (criterion_eq ▸ ha), List.mem_cons_self, hrest⟩
  | negation _ hp ih =>
    obtain ⟨b, hs, h, d, r, hh, rfl, hd, hps, hnode⟩ := ih
    obtain ⟨b', h', d', ha, hrest⟩ := exists_attach hd hps hnode .negation .negation
    exact ⟨b', _, h', d', r.negation hp hh (negation_eq ▸ ha), List.mem_cons_self, hrest⟩
  | connector _ hp k ih =>
    obtain ⟨b, hs, h, d, r, hh, rfl, hd, hps, hnode⟩ := ih
    obtain ⟨b', h', d', ha, hrest⟩ := exists_attach hd hps hnode (.connector k) .group
    exact ⟨b', _, h', d', r.connector hp hh (connector_eq ▸ ha), List.mem_cons_self, hrest⟩

/-- Every filter can be put together by calls. -/
theorem exists_finished (f : Filter) : ∃ b h, Finished b h f := by
  obtain ⟨place, hfl⟩ := Fluent.filter f
  obtain ⟨b, hs, h, c, r, hh, -, hc, hps, hnode⟩ := exists_reachable hfl
  refine ⟨b, h, ⟨hs, r, hh⟩, ?_, ?_⟩
  · rw [isLeaf, chainOf_eq hc, hps.isLeaf_iff (Nat.le_of_eq hnode)]
    exact hnode
  · rw [chainOf_eq hc, hps.parts]

end

end Bench

end TestSelection
