import TestSelection.Proofs.NestedText

/-! A filter as a tree of items: terms, and groups of items under the tag of a connector. The tree is the
    grouping of the filter, and its text is the text of the filter (`Filter.nestedText_eq`). What is worked
    out over the tree by `Item.fold` can as well be worked out over the runs of a clause
    (`Clause.run_eq_fold`). -/

namespace TestSelection

namespace Item

/-! ### Working out something over a tree -/

section
variable {α : Type} (leaf : Term → α) (close : String → List α → α)

mutual

/-- What comes out of an item if each term gives something, and what the members under a tag give is put
    together. -/
def fold : Item → α
  | term t => leaf t
  | group tag members => close tag (foldAll members)

def foldAll : List Item → List α
  | [] => []
  | item :: rest => item.fold :: foldAll rest

end

theorem foldAll_eq_map (items : List Item) : foldAll leaf close items = items.map (fold leaf close) := by
  induction items with
  | nil => rfl
  | cons item rest ih => rw [foldAll, ih, List.map_cons]

@[simp] theorem fold_term (t : Term) : (term t).fold leaf close = leaf t := rfl

@[simp] theorem fold_group (tag : String) (members : List Item) :
    (group tag members).fold leaf close = close tag (members.map (fold leaf close)) := by
  rw [fold, foldAll_eq_map]

end

theorem taggedAll_eq_map (items : List Item) : taggedAll items = items.map tagged := by
  induction items with
  | nil => rfl
  | cons item rest ih => rw [taggedAll, ih, List.map_cons]

theorem tagged_group {tag : String} {members : List Item} (hne : members ≠ []) :
    (group tag members).tagged = wrap tag (String.join (members.map tagged)) := by
  rw [tagged, if_neg (by simpa using hne), taggedAll_eq_map]

/-! ### Groups -/

/-- Each tag in the tree is that of a connector, and has something under it. -/
inductive Grouped : Item → Prop where
  | term (t : Term) : Grouped (.term t)
  | group (k : Connector) {members : List Item} (hne : members ≠ []) (hmembers : ∀ m ∈ members, Grouped m) :
      Grouped (.group k.tag members)

theorem Grouped.tagged_ne_empty {item : Item} (h : item.Grouped) : item.tagged ≠ "" := by
  cases h with
  | term t => exact t.tagged_ne_empty
  | group k hne _ => exact tagged_group hne ▸ k.wrap_ne_empty _

end Item

def Connector.group (k : Connector) (members : List Item) : Item := .group k.tag members

/-- The last run of a clause, with the runs before it as groups. -/
def Clause.itemRun (c : Clause) : Run Item := c.run Connector.group Item.term

/-- A last run as items: only one of `or` needs a tag. -/
def Run.items (r : Run Item) : List Item :=
  if r.connector = some .or then [Connector.or.group r.members] else r.members

/-- The items that stand for a filter. -/
def Filter.items : Filter → List Item
  | everything => []
  | clause c => c.itemRun.items

namespace Clause
variable (c : Clause)

theorem itemRun_ne_nil : c.itemRun.members ≠ [] := c.members_run_ne_nil

theorem grouped_itemRun : ∀ m ∈ c.itemRun.members, m.Grouped :=
  (c.members_run Item.Grouped.term fun k _ hne hmembers => .group k hne hmembers).2

theorem run_eq_fold {α : Type} {leaf : Term → α} {close : Connector → List α → α} {closeTag : String → List α → α}
    (h : ∀ (k : Connector) as, closeTag k.tag as = close k as) :
    c.run close leaf = ⟨c.itemRun.connector, c.itemRun.members.map (Item.fold leaf closeTag)⟩ := by
  refine c.run_map (Item.fold_term leaf closeTag) fun k members _ => ?_
  rw [Connector.group, Item.fold_group, h]

theorem run_wrap : c.run Connector.wrap Term.tagged = ⟨c.itemRun.connector, c.itemRun.members.map Item.tagged⟩ := by
  have hterm : ∀ t, (Item.term t).tagged = t.tagged := fun _ => rfl
  exact c.run_map hterm fun k members hne => Item.tagged_group hne

end Clause

namespace Filter
variable (f : Filter)

theorem grouped_items : ∀ m ∈ f.items, m.Grouped := by
  cases f with
  | everything => simp [items]
  | clause c =>
    rw [items, Run.items]
    split
    · exact List.forall_mem_singleton.mpr (Item.Grouped.group .or c.itemRun_ne_nil c.grouped_itemRun)
    · exact c.grouped_itemRun

/-- The nested text of a filter is the text of its items. -/
theorem nestedText_eq : f.nestedText = String.join (f.items.map Item.tagged) := by
  cases f with
  | everything => rfl
  | clause c =>
    rw [nestedText, items, c.run_wrap, Run.text, Run.items]
    split
    · simp [Connector.group, Connector.wrap, Item.tagged_group c.itemRun_ne_nil]
    · rfl

end Filter

end TestSelection
