import Mathlib.Data.Fintype.Pigeonhole
import TestSelection.Proofs.Arena

/-! Where child links lead. Any slot may have been overwritten, so the links from a place may leave the arena, come to a
    free slot or run in a circle. Links that go on for more moves than the arena has nodes come to some place twice
    (`Leads.circles`), and from a circle they never come to an end (`Circles.not_ends`). So the limit on moves
    cuts circles short and nothing else. Main statement: `leaf_exact`. -/

namespace TestSelection.Chain

/-! ### Following links -/

/-- So many child links lead from one place to another one. -/
inductive Leads (c : Chain) (start : NodeId) : Nat → NodeId → Prop where
  | here : Leads c start 0 start
  | onward {n : Nat} {id next : NodeId} (h : Leads c start n id) (hnext : c.child? id = some next) :
      Leads c start (n + 1) next

/-- A place where child links end: one outside of the arena, or one whose slot is free. -/
def Ends (c : Chain) (id : NodeId) : Prop := c.size ≤ id ∨ c.isLeaf id = true

/-- Child links lead from a place into a circle. -/
def Circles (c : Chain) (start : NodeId) : Prop := ∃ n k id, c.Leads start n id ∧ c.Leads id (k + 1) id

section
variable {c : Chain} {start id next : NodeId} {m n moves : Nat}

theorem lt_size_of_child? (h : c.child? id = some next) : id < c.size := by
  obtain ⟨n, hn, -⟩ := Option.bind_eq_some_iff.mp h
  exact lt_size_of_get? hn

theorem ends_iff : c.Ends id ↔ c.child? id = none := by
  by_cases hid : id < c.size
  · rw [Ends, isLeaf_iff_child?_eq_none hid, or_iff_right (Nat.not_le.mpr hid)]
  · refine ⟨fun _ => Option.eq_none_iff_forall_ne_some.mpr fun next hnext => ?_, fun _ => Or.inl (Nat.not_lt.mp hid)⟩
    exact hid (lt_size_of_child? hnext)

theorem exists_child (h : ¬c.Ends id) : ∃ next, c.child? id = some next :=
  Option.ne_none_iff_exists'.mp fun hnone => h (ends_iff.mpr hnone)

namespace Leads

theorem trans {mid last : NodeId} (h : c.Leads start m mid) (h' : c.Leads mid n last) : c.Leads start (m + n) last := by
  induction h' with
  | here => exact h
  | onward _ hnext ih => exact ih.onward hnext

theorem split {last : NodeId} (h : c.Leads start (m + n) last) : ∃ mid, c.Leads start m mid ∧ c.Leads mid n last := by
  induction n generalizing last with
  | zero => exact ⟨last, h, .here⟩
  | succ n ih =>
    cases h with
    | onward h hnext =>
      obtain ⟨mid, hmid, hlast⟩ := ih h
      exact ⟨mid, hmid, hlast.onward hnext⟩

theorem unique {last : NodeId} (h : c.Leads start n id) (h' : c.Leads start n last) : id = last := by
  induction h generalizing last with
  | here =>
    cases h'
    rfl
  | onward _ hnext ih =>
    cases h' with
    | onward h' hnext' =>
      rw [← ih h', hnext] at hnext'
      exact Option.some.inj hnext'

/-- Links do not end at a place that they lead on from. -/
theorem child_of_lt {last : NodeId} (h : c.Leads start n last) (hid : c.Leads start m id) (hlt : m < n) :
    ∃ next, c.child? id = some next := by
  obtain ⟨k, rfl⟩ := Nat.exists_eq_add_of_lt hlt
  rw [Nat.add_right_comm] at h
  obtain ⟨next, hnext, -⟩ := h.split
  cases hnext with
  | onward h hnext => exact ⟨next, hid.unique h ▸ hnext⟩

theorem le_of_ends {last : NodeId} (h : c.Leads start n last) (hid : c.Leads start m id) (hend : c.Ends id) : n ≤ m := by
  refine Nat.not_lt.mp fun hlt => ?_
  obtain ⟨next, hnext⟩ := h.child_of_lt hid hlt
  rw [ends_iff.mp hend] at hnext
  cases hnext

/-! ### Circles -/

/-- Each place that is led on from is in the arena, so with more moves than the arena has nodes one of them is come to
    twice. -/
theorem circles {last : NodeId} (h : c.Leads start n last) (hn : c.size < n) : c.Circles start := by
  have places : ∀ i : Fin n, ∃ id : Fin c.size, c.Leads start i id := by
    intro i
    obtain ⟨k, hk⟩ := Nat.exists_eq_add_of_le i.isLt.le
    obtain ⟨id, hid, -⟩ := (hk ▸ h).split
    obtain ⟨next, hnext⟩ := h.child_of_lt hid i.isLt
    exact ⟨⟨id, lt_size_of_child? hnext⟩, hid⟩
  choose place hplace using places
  have circle : ∀ i j : Fin n, i < j → place i = place j → c.Circles start := by
    intro i j hij heq
    obtain ⟨k, hk⟩ := Nat.exists_eq_add_of_lt hij
    have hj := hplace j
    rw [← heq, hk, Nat.add_assoc] at hj
    obtain ⟨id, hid, hround⟩ := hj.split
    exact ⟨i, k, place i, hplace i, (hplace i).unique hid ▸ hround⟩
  obtain ⟨i, j, hne, heq⟩ := Fintype.exists_ne_map_eq_of_card_lt place (by simpa using hn)
  rcases lt_or_gt_of_ne hne with hij | hji
  · exact circle i j hij heq
  · exact circle j i hji heq.symm

end Leads

theorem Circles.not_ends (h : c.Circles start) (hid : c.Leads start n id) : ¬c.Ends id := by
  obtain ⟨m, k, mid, hmid, hround⟩ := h
  have rounds : ∀ r, c.Leads mid (r * (k + 1)) mid := by
    intro r
    induction r with
    | zero => simpa using Leads.here
    | succ r ih =>
      rw [Nat.succ_mul]
      exact ih.trans hround
  -- After one round more than there were moves, the links are past any end that they could have come to.
  intro hend
  have hle := (hmid.trans (rounds (n + 1))).le_of_ends hid hend
  have hlong : n + 1 ≤ (n + 1) * (k + 1) := Nat.le_mul_of_pos_right (n + 1) (Nat.succ_pos k)
  omega

/-! ### The descent -/

/-- The descent, with its moves counted. -/
def descendCounting (c : Chain) : Nat → NodeId → Nat × NodeId
  | 0, id => (0, id)
  | moves + 1, id =>
    match c.child? id with
    | none => (0, id)
    | some next =>
      let (made, last) := c.descendCounting moves next
      (made + 1, last)

/-- The descent makes its moves along links, and it stops at an end of them or with no moves left. -/
theorem descendCounting_eq (c : Chain) (moves : Nat) (id : NodeId) : ∃ made,
    c.descendCounting moves id = (made, c.descend moves id) ∧ c.Leads id made (c.descend moves id) ∧
      (made = moves ∨ made < moves ∧ c.Ends (c.descend moves id)) := by
  induction moves generalizing id with
  | zero => exact ⟨0, rfl, .here, Or.inl rfl⟩
  | succ moves ih =>
    rw [descendCounting, descend]
    cases hnext : c.child? id with
    | none => exact ⟨0, rfl, .here, Or.inr ⟨Nat.succ_pos moves, ends_iff.mpr hnext⟩⟩
    | some next =>
      obtain ⟨made, hmade, hleads, hstop⟩ := ih next
      refine ⟨made + 1, by simp only [hmade], ?_, ?_⟩
      · rw [Nat.add_comm]
        exact (Leads.here.onward hnext).trans hleads
      · exact hstop.imp (congrArg (· + 1)) (And.imp_left Nat.succ_lt_succ)

theorem leaf_of_ends (hid : c.Leads root n id) (hend : c.Ends id) :
    c.leaf = id ∧ c.descendCounting c.size root = (n, id) ∧ n ≤ c.size := by
  have hfit : n ≤ c.size := Nat.not_lt.mp fun hlong => (hid.circles hlong).not_ends hid hend
  obtain ⟨made, hmade, hleads, hstop⟩ := c.descendCounting_eq c.size root
  have hle := hleads.le_of_ends hid hend
  have hge : n ≤ made := by
    rcases hstop with rfl | ⟨-, hleaf⟩
    · exact hfit
    · exact hid.le_of_ends hleads hleaf
  obtain rfl := Nat.le_antisymm hle hge
  obtain rfl := hid.unique hleads
  exact ⟨rfl, hmade, hfit⟩

theorem leaf_of_endless (h : ∀ n id, c.Leads root n id → ¬c.Ends id) :
    c.Leads root c.size c.leaf ∧ c.descendCounting c.size root = (c.size, c.leaf) ∧ c.leaf < c.size ∧ c.Circles root := by
  obtain ⟨made, hmade, hleads, rfl | ⟨-, hleaf⟩⟩ := c.descendCounting_eq c.size root
  · obtain ⟨next, hnext⟩ := exists_child (h _ _ hleads)
    exact ⟨hleads, hmade, lt_size_of_child? hnext, (hleads.onward hnext).circles (Nat.lt_succ_self _)⟩
  · exact absurd hleaf (h _ _ hleads)

end

/-- In an arena with any links, the leaf is the first place along the links from the root at which they end, and it is
    found in as many moves as lead there. If the links never end, they run in a circle, and they are left after just as
    many moves as there are nodes, at a place in the arena. So only a circle is cut short. -/
theorem leaf_exact (c : Chain) :
    (∀ n id, c.Leads root n id → c.Ends id →
      c.leaf = id ∧ c.descendCounting c.size root = (n, id) ∧ n ≤ c.size ∧
        ∀ m mid, m < n → c.Leads root m mid → ¬c.Ends mid) ∧
    ((∀ n id, c.Leads root n id → ¬c.Ends id) →
      c.Leads root c.size c.leaf ∧ c.descendCounting c.size root = (c.size, c.leaf) ∧ c.leaf < c.size ∧ c.Circles root) ∧
    (c.Ends c.leaf ↔ ¬c.Circles root) := by
  refine ⟨fun n id hid hend => ?_, leaf_of_endless, fun hleaf hcircles => ?_, fun hsimple => ?_⟩
  · obtain ⟨hleaf, hcount, hfit⟩ := leaf_of_ends hid hend
    refine ⟨hleaf, hcount, hfit, fun m mid hlt hmid hearly => ?_⟩
    exact absurd hlt (Nat.not_lt.mpr (hid.le_of_ends hmid hearly))
  · obtain ⟨made, -, hleads, -⟩ := c.descendCounting_eq c.size root
    exact hcircles.not_ends hleads hleaf
  · by_contra hleaf
    have hendless : ∀ n id, c.Leads root n id → ¬c.Ends id := by
      intro n id hid hend
      rw [← (leaf_of_ends hid hend).1] at hend
      exact hleaf hend
    exact hsimple (leaf_of_endless hendless).2.2.2

/-- Three nodes whose links lead from the root to the last one, then to the one between, and out of the arena. -/
def straying : Chain :=
  let a := Criterion.pattern .test ⟨"w", by decide⟩ false
  ⟨#[{ Node.root with child := ⟨some 2⟩ }, { (Part.criterion a).node 0 with child := ⟨some 7⟩ },
    { (Part.criterion a).node 1 with child := ⟨some 1⟩ }]⟩

/-- The way out takes as many moves as there are nodes. With the last link bent back, so does giving up. -/
theorem leaf_straying : straying.size = 3 ∧
    (straying.Leads root 3 7 ∧ straying.Ends 7 ∧ straying.leaf = 7 ∧ straying.descendCounting 3 root = (3, 7)) ∧
    ((straying.relink 1 (some 2)).Circles root ∧ ¬(straying.relink 1 (some 2)).Ends (straying.relink 1 (some 2)).leaf ∧
      (straying.relink 1 (some 2)).descendCounting 3 root = (3, 2)) := by
  have hlast : straying.Leads root 1 2 := Leads.here.onward rfl
  have hbetween : straying.Leads root 2 1 := hlast.onward rfl
  have hout : straying.Leads root 3 7 := hbetween.onward rfl
  have hend : straying.Ends 7 := Or.inl (by decide)
  obtain ⟨hleaf, hcount, -⟩ := (leaf_exact straying).1 3 7 hout hend
  have hcircles : (straying.relink 1 (some 2)).Circles root :=
    ⟨1, 1, 2, Leads.here.onward rfl, (Leads.here.onward rfl).onward rfl⟩
  obtain ⟨hends, hendless, hcut⟩ := leaf_exact (straying.relink 1 (some 2))
  have hnot : ¬(straying.relink 1 (some 2)).Ends (straying.relink 1 (some 2)).leaf := fun h => hcut.mp h hcircles
  have hcount' := (hendless fun n id hid hend => hcircles.not_ends hid hend).2.1
  exact ⟨rfl, ⟨hout, hend, hleaf, hcount⟩, hcircles, hnot, hcount'⟩

end TestSelection.Chain
