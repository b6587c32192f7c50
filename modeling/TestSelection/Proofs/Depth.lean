import TestSelection.Proofs.Shown

/-! How deep the elements of a filter are nested. Each change of the connector puts the run so far one level
    deeper, and so does a last run of `or`; the deepest terms are those of the first run
    (`Filter.depth_eq`). -/

namespace TestSelection
open Markup

/-! ### Levels of elements -/

def highest (ns : List Nat) : Nat := ns.foldr max 0

@[simp] theorem highest_nil : highest [] = 0 := rfl

@[simp] theorem highest_cons (n : Nat) (ns : List Nat) : highest (n :: ns) = max n (highest ns) := rfl

theorem highest_append (ns ms : List Nat) : highest (ns ++ ms) = max (highest ns) (highest ms) := by
  induction ns with
  | nil => simp
  | cons n ns ih => rw [List.cons_append, highest_cons, ih, highest_cons, Nat.max_assoc]

theorem highest_le {ns : List Nat} {m : Nat} (h : ∀ n ∈ ns, n ≤ m) : highest ns ≤ m := by
  induction ns with
  | nil => exact Nat.zero_le m
  | cons n ns ih =>
    obtain ⟨hn, hns⟩ := List.forall_mem_cons.mp h
    exact Nat.max_le.mpr ⟨hn, ih hns⟩

/-- How many levels of elements a term is written in. -/
def Term.height (t : Term) : Nat := if t.negated then 2 else 1

theorem Term.height_pos (t : Term) : 1 ≤ t.height := by
  unfold height
  split <;> decide

theorem Term.height_le (t : Term) : t.height ≤ 2 := by
  unfold height
  split <;> decide

theorem highest_terms {ts : List Term} (hne : ts ≠ []) :
    highest (ts.map Term.height) = if ts.any (·.negated) then 2 else 1 := by
  induction ts with
  | nil => exact absurd rfl hne
  | cons t ts ih =>
    rw [List.map_cons, highest_cons, List.any_cons]
    by_cases hts : ts = []
    · subst hts
      simp [Term.height]
    · rw [ih hts, Term.height]
      cases t.negated <;> cases ts.any (·.negated) <;> rfl

namespace Item

def height : Item → Nat := fold Term.height fun _ heights => highest heights + 1

theorem height_group (tag : String) (members : List Item) :
    (group tag members).height = highest (members.map height) + 1 := fold_group _ _ tag members

theorem forall₂_of_shown {R : Item → Element → Prop} {members : List Item} {children : List Element}
    (h : ∀ m ∈ members, ∀ e, m.Shown e → R m e) (hs : List.Forall₂ Shown members children) :
    List.Forall₂ R members children :=
  ((List.forall₂_and_left members children).mpr ⟨h, hs⟩).imp fun _ _ ⟨hm, he⟩ => hm _ he

theorem heightAll_of_forall₂ {members : List Item} {children : List Element}
    (h : List.Forall₂ (fun m e => Element.height e = height m) members children) :
    Element.heightAll children = highest (members.map height) := by
  induction h with
  | nil => rfl
  | cons he _ ih => rw [Element.heightAll, he, ih, List.map_cons, highest_cons]

theorem Grouped.height_eq {item : Item} (h : item.Grouped) : ∀ e, item.Shown e → e.height = item.height := by
  induction h with
  | term t =>
    rintro e (⟨c, span⟩ | ⟨c, outer, span⟩)
    · rfl
    · rfl
  | group k hne hmembers ih =>
    rintro e (_ | _ | ⟨_, span, hchildren⟩)
    rw [Element.height, heightAll_of_forall₂ (forall₂_of_shown ih hchildren), height_group]

end Item

/-! ### The depth of a filter -/

/-- How often the connector changes in some links that follow one with the connector `k`. -/
def changesFrom (k : Connector) : List (Connector × Term) → Nat
  | [] => 0
  | (j, _) :: rest => (if j = k then 0 else 1) + changesFrom j rest

namespace Clause

def changes (c : Clause) : Nat :=
  match c.rest with
  | [] => 0
  | (k, _) :: rest => changesFrom k rest

/-- The terms up to the first change of the connector. -/
def firstRun (c : Clause) : List Term :=
  c.first :: match c.rest with
    | [] => []
    | (k, t) :: rest => t :: (rest.takeWhile (·.1 = k)).map (·.2)

def endsWithOr (c : Clause) : Bool := c.rest.getLast?.map (·.1) == some .or

end Clause

/-- How deep the elements of the document are nested, the root included. -/
def Filter.depth : Filter → Nat
  | everything => 1
  | clause c => 2 + (c.changes + if c.endsWithOr then 1 else 0) + if c.firstRun.any (·.negated) then 1 else 0

section
variable {r : Run Nat} {k : Connector}

def deepen (_ : Connector) (heights : List Nat) : Nat := highest heights + 1

/-- From a run on, each change of the connector adds a level to the members that the run has by then. -/
theorem highest_foldl_join (rest : List (Connector × Term)) (hr : r.connector = some k) (hpos : 1 ≤ highest r.members) :
    highest (rest.foldl (fun r l => r.join deepen l.1 l.2.height) r).members =
      max (highest r.members) (highest ((rest.takeWhile (·.1 = k)).map (·.2.height))) + changesFrom k rest := by
  induction rest generalizing r k with
  | nil => simp [changesFrom]
  | cons l rest ih =>
    obtain ⟨j, t⟩ := l
    have hlow := t.height_le
    rw [List.foldl_cons, changesFrom]
    by_cases hj : j = k
    · subst hj
      have hjoin : r.join deepen j t.height = ⟨some j, r.members ++ [t.height]⟩ := by simp [Run.join, hr]
      have hmembers : highest (r.members ++ [t.height]) = max (highest r.members) t.height := by
        simp [highest_append]
      rw [hjoin, ih rfl (by rw [hmembers]; omega), hmembers]
      simp [Nat.max_assoc]
    · have hjoin : r.join deepen j t.height = ⟨some j, [highest r.members + 1, t.height]⟩ := by
        simp [Run.join, hr, deepen, Ne.symm hj]
      have hmembers : highest [highest r.members + 1, t.height] = highest r.members + 1 := by
        simp only [highest_cons, highest_nil]
        omega
      have hshort : highest ((rest.takeWhile (·.1 = j)).map (·.2.height)) ≤ 2 :=
        highest_le fun n hn => by
          obtain ⟨l, -, rfl⟩ := List.mem_map.mp hn
          exact l.2.height_le
      rw [hjoin, ih rfl (by rw [hmembers]; omega), hmembers]
      simp only [List.takeWhile_cons, hj, decide_false, if_false, List.map_nil, highest_nil, Bool.false_eq_true]
      omega

end

theorem Clause.highest_run (c : Clause) :
    highest (c.run deepen Term.height).members = highest (c.firstRun.map Term.height) + c.changes := by
  obtain ⟨first, _ | ⟨⟨k, t⟩, rest⟩⟩ := c
  · simp [run_nil, firstRun, changes]
  · have hpos := first.height_pos
    have hstart : (⟨first, (k, t) :: rest⟩ : Clause).run deepen Term.height =
        rest.foldl (fun r l => r.join deepen l.1 l.2.height) ⟨some k, [first.height, t.height]⟩ := rfl
    rw [hstart, highest_foldl_join rest rfl (by simp; omega)]
    simp [firstRun, changes, Function.comp_def, Nat.max_assoc]

/-- The items of a filter, within the root element, are as high as its depth says. -/
theorem Filter.depth_eq (f : Filter) : f.depth = highest (f.items.map Item.height) + 1 := by
  cases f with
  | everything => rfl
  | clause c =>
    have hrun : c.run deepen Term.height = ⟨c.itemRun.connector, c.itemRun.members.map Item.height⟩ :=
      c.run_eq_fold fun _ _ => rfl
    have hhighest := c.highest_run
    have hlast : c.itemRun.connector = c.rest.getLast?.map (·.1) := c.connector_run
    have hitems : highest (c.itemRun.items.map Item.height) =
        highest (c.itemRun.members.map Item.height) + if c.endsWithOr then 1 else 0 := by
      rw [Run.items, hlast, Clause.endsWithOr]
      by_cases hor : c.rest.getLast?.map (·.1) = some .or
      · simp [hor, Connector.group, Item.height_group]
      · simp [hor]
    rw [hrun, highest_terms (by simp [Clause.firstRun])] at hhighest
    rw [depth, items, hitems, hhighest]
    split <;> split <;> omega

end TestSelection
