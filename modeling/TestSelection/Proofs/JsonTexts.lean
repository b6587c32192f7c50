import Mathlib.Data.List.Chain
import TestSelection.Json.Reader
import TestSelection.Proofs.JsonTokens

/-! JSON texts of values. A value has its tokens in order (`Json.tokens`), no two literals of it are neighbours, and they are
    put together to the value again. Main statements: each text that writes the tokens of a value is read as that value
    (`read?_of_spaced`), and the text on one line is such a text (`spaced_compact`). -/

namespace TestSelection.Json

mutual

/-- The tokens of a value. -/
def tokens : Json → List Token
  | null => [.null]
  | bool b => [.bool b]
  | number written => [.number written]
  | string written => [.string written]
  | array items => .openArray :: ([.comma].intercalate (itemTokens items) ++ [.closeArray])
  | object members => .openObject :: ([.comma].intercalate (memberTokens members) ++ [.closeObject])

/-- The tokens of each of some values. -/
def itemTokens : List Json → List (List Token)
  | [] => []
  | v :: vs => v.tokens :: itemTokens vs

/-- The tokens of each of some members. -/
def memberTokens : List (String × Json) → List (List Token)
  | [] => []
  | (name, v) :: rest => (.string name :: .colon :: v.tokens) :: memberTokens rest

end

/-- What the numbers and strings of a value are written as follows their grammars. -/
def WellFormed (v : Json) : Prop := ∀ t ∈ v.tokens, t.WellFormed

section
variable {v w : Json} {vs : List Json} {m n : String × Json} {ms : List (String × Json)} {name : String}
  {ts rest : List Token} {t : Token} {s : String} {cs : List Char}

/-! ### Items and members in a row -/

theorem intercalate_itemTokens_singleton (v : Json) : [Token.comma].intercalate (itemTokens [v]) = v.tokens := by
  rw [itemTokens, itemTokens, List.intercalate_singleton]

theorem intercalate_itemTokens_cons (v w : Json) (vs : List Json) : [Token.comma].intercalate (itemTokens (v :: w :: vs)) =
    v.tokens ++ .comma :: [Token.comma].intercalate (itemTokens (w :: vs)) := by
  rw [itemTokens, itemTokens, List.intercalate_cons_cons, List.append_assoc, List.singleton_append]

theorem intercalate_memberTokens_singleton (m : String × Json) :
    [Token.comma].intercalate (memberTokens [m]) = .string m.1 :: .colon :: m.2.tokens := by
  rw [memberTokens, memberTokens, List.intercalate_singleton]

theorem intercalate_memberTokens_cons (m n : String × Json) (ms : List (String × Json)) :
    [Token.comma].intercalate (memberTokens (m :: n :: ms)) =
      .string m.1 :: .colon :: (m.2.tokens ++ .comma :: [Token.comma].intercalate (memberTokens (n :: ms))) := by
  rw [memberTokens, memberTokens, List.intercalate_cons_cons, List.append_assoc, List.singleton_append]
  rfl

/-! ### Neighbours -/

theorem apart_cons (hmark : t.isMark = true) (h : Apart rest) : Apart (t :: rest) := by
  cases rest with
  | nil => exact .singleton t
  | cons u rest => exact .cons_cons (Or.inl hmark) h

theorem apart_literal (hmark : t.isMark = true) (h : Apart (t :: rest)) (u : Token) : Apart (u :: t :: rest) :=
  .cons_cons (Or.inr hmark) h

mutual

theorem apart_tokens_append {t : Token} {rest : List Token} (hmark : t.isMark = true) (h : Apart (t :: rest)) (v : Json) :
    Apart (v.tokens ++ t :: rest) := by
  match v with
  | null | bool b | number written | string written => exact apart_literal hmark h _
  | array items =>
    rw [tokens, List.cons_append, List.append_assoc]
    exact apart_cons rfl (apart_items_append rfl (apart_cons rfl h) items)
  | object members =>
    rw [tokens, List.cons_append, List.append_assoc]
    exact apart_cons rfl (apart_members_append rfl (apart_cons rfl h) members)

theorem apart_items_append {t : Token} {rest : List Token} (hmark : t.isMark = true) (h : Apart (t :: rest))
    (vs : List Json) : Apart ([Token.comma].intercalate (itemTokens vs) ++ t :: rest) := by
  match vs with
  | [] => exact h
  | [v] =>
    rw [intercalate_itemTokens_singleton]
    exact apart_tokens_append hmark h v
  | v :: w :: vs =>
    rw [intercalate_itemTokens_cons, List.append_assoc, List.cons_append]
    exact apart_tokens_append rfl (apart_cons rfl (apart_items_append hmark h (w :: vs))) v

theorem apart_members_append {t : Token} {rest : List Token} (hmark : t.isMark = true) (h : Apart (t :: rest))
    (ms : List (String × Json)) : Apart ([Token.comma].intercalate (memberTokens ms) ++ t :: rest) := by
  match ms with
  | [] => exact h
  | [(name, v)] =>
    rw [intercalate_memberTokens_singleton]
    exact apart_literal rfl (apart_cons rfl (apart_tokens_append hmark h v)) _
  | (name, v) :: n :: ms =>
    rw [intercalate_memberTokens_cons, List.cons_append, List.cons_append, List.append_assoc, List.cons_append]
    have htail := apart_cons (t := .comma) rfl (apart_members_append hmark h (n :: ms))
    exact apart_literal rfl (apart_cons rfl (apart_tokens_append rfl htail v)) _

end

theorem apart_tokens (v : Json) : Apart v.tokens :=
  (apart_tokens_append (t := .comma) rfl (.singleton _) v).left_of_append

/-! ### Putting values together

An array or object that is open takes its items or members one by one; those so far are kept in reverse order. An empty one
ends in a state of its own, so the rows that are folded here have one item at least. -/

theorem foldlM_append_of_eq {a b : Assembly} (h : ts.foldlM Assembly.step a = some b) :
    (ts ++ rest).foldlM Assembly.step a = rest.foldlM Assembly.step b := by
  rw [List.foldlM_append, h]
  rfl

theorem foldlM_firstItem (around : List OpenValue) {vs : List Json} (hne : vs ≠ []) (rest : List Token) :
    ([Token.comma].intercalate (itemTokens vs) ++ rest).foldlM Assembly.step (.firstItem around) =
      ([Token.comma].intercalate (itemTokens vs) ++ rest).foldlM Assembly.step (.value (.array [] :: around)) := by
  match vs, hne with
  | [v], _ =>
    rw [intercalate_itemTokens_singleton]
    cases v <;> rfl
  | v :: w :: vs, _ =>
    rw [intercalate_itemTokens_cons, List.append_assoc]
    cases v <;> rfl

theorem foldlM_firstName (around : List OpenValue) {ms : List (String × Json)} (hne : ms ≠ []) (rest : List Token) :
    ([Token.comma].intercalate (memberTokens ms) ++ rest).foldlM Assembly.step (.firstName around) =
      ([Token.comma].intercalate (memberTokens ms) ++ rest).foldlM Assembly.step (.name [] around) := by
  match ms, hne with
  | [m], _ =>
    rw [intercalate_memberTokens_singleton]
    rfl
  | m :: n :: ms, _ =>
    rw [intercalate_memberTokens_cons]
    rfl

mutual

theorem foldlM_value (around : List OpenValue) (v : Json) :
    v.tokens.foldlM Assembly.step (.value around) = some (.after v around) := by
  match v with
  | null | bool b | number written | string written => rfl
  | array items =>
    by_cases hne : items = []
    · rw [hne]
      rfl
    · exact (foldlM_firstItem around hne [.closeArray]).trans (foldlM_items around [] items hne)
  | object members =>
    by_cases hne : members = []
    · rw [hne]
      rfl
    · exact (foldlM_firstName around hne [.closeObject]).trans (foldlM_members around [] members hne)

theorem foldlM_items (around : List OpenValue) (earlier vs : List Json) (hne : vs ≠ []) :
    ([Token.comma].intercalate (itemTokens vs) ++ [Token.closeArray]).foldlM Assembly.step
      (.value (.array earlier :: around)) = some (.after (array (earlier.reverse ++ vs)) around) := by
  match vs, hne with
  | [v], _ =>
    rw [intercalate_itemTokens_singleton, foldlM_append_of_eq (foldlM_value _ v), ← List.reverse_cons]
    rfl
  | v :: w :: vs, _ =>
    have htail := foldlM_items around (v :: earlier) (w :: vs) (List.cons_ne_nil w vs)
    rw [List.reverse_cons, List.append_assoc] at htail
    rw [intercalate_itemTokens_cons, List.append_assoc, foldlM_append_of_eq (foldlM_value _ v)]
    exact htail

theorem foldlM_members (around : List OpenValue) (earlier ms : List (String × Json)) (hne : ms ≠ []) :
    ([Token.comma].intercalate (memberTokens ms) ++ [Token.closeObject]).foldlM Assembly.step (.name earlier around) =
      some (.after (object (earlier.reverse ++ ms)) around) := by
  match ms, hne with
  | [(name, v)], _ =>
    rw [intercalate_memberTokens_singleton, ← List.reverse_cons]
    exact foldlM_append_of_eq (foldlM_value (.object earlier name :: around) v)
  | (name, v) :: n :: ms, _ =>
    have htail := foldlM_members around ((name, v) :: earlier) (n :: ms) (List.cons_ne_nil n ms)
    rw [List.reverse_cons, List.append_assoc] at htail
    rw [intercalate_memberTokens_cons, List.cons_append, List.cons_append, List.append_assoc]
    exact (foldlM_append_of_eq (foldlM_value (.object earlier name :: around) v)).trans htail

end

theorem ofTokens?_tokens (v : Json) : ofTokens? v.tokens = some v := by
  rw [ofTokens?, foldlM_value]
  rfl

/-- A text that writes the tokens of a value is read as this value. -/
theorem read?_of_spaced (h : Spaced v.tokens s.toList) : read? s = some v := by
  rw [read?, h.tokens?_eq v.apart_tokens]
  exact v.ofTokens?_tokens

/-! ### Texts on one line -/

theorem spaced_flatMap (h : ∀ t ∈ ts, t.WellFormed) : Spaced ts (ts.flatMap Token.chars) := by
  induction ts with
  | nil => exact .nil
  | cons t ts ih =>
    obtain ⟨ht, hts⟩ := List.forall_mem_cons.mp h
    exact .token ht (ih hts)

theorem flatMap_chars_intercalate (tss : List (List Token)) : ([Token.comma].intercalate tss).flatMap Token.chars =
    [','].intercalate (tss.map (·.flatMap Token.chars)) := by
  induction tss with
  | nil => rfl
  | cons ts tss ih =>
    by_cases hne : tss = []
    · rw [hne, List.map_singleton, List.intercalate_singleton, List.intercalate_singleton]
    · rw [List.map_cons, List.intercalate_cons_of_ne_nil hne, List.intercalate_cons_of_ne_nil (by simpa using hne), ← ih]
      simp [Token.chars]

mutual

theorem toList_compact (v : Json) : v.compact.toList = v.tokens.flatMap Token.chars := by
  match v with
  | null | bool true | bool false => rfl
  | number written | string written => simp [compact, tokens, Token.chars]
  | array items =>
    have hitems := map_toList_compactItems items
    simp [compact, tokens, Token.chars, String.toList_intercalate, flatMap_chars_intercalate, hitems]
  | object members =>
    have hmembers := map_toList_compactMembers members
    simp [compact, tokens, Token.chars, String.toList_intercalate, flatMap_chars_intercalate, hmembers]

theorem map_toList_compactItems (vs : List Json) :
    (compactItems vs).map String.toList = (itemTokens vs).map (·.flatMap Token.chars) := by
  match vs with
  | [] => rfl
  | v :: vs => rw [compactItems, itemTokens, List.map_cons, List.map_cons, toList_compact v, map_toList_compactItems vs]

theorem map_toList_compactMembers (ms : List (String × Json)) :
    (compactMembers ms).map String.toList = (memberTokens ms).map (·.flatMap Token.chars) := by
  match ms with
  | [] => rfl
  | (name, v) :: ms =>
    rw [compactMembers, memberTokens, List.map_cons, List.map_cons, map_toList_compactMembers ms]
    simp [Token.chars, toList_compact v]

end

theorem spaced_compact (h : v.WellFormed) : Spaced v.tokens v.compact.toList := by
  rw [toList_compact]
  exact spaced_flatMap h

/-! ### Well-formed values -/

theorem wellFormed_ofText (s : String) : (ofText s).WellFormed := by
  intro t ht
  rw [List.mem_singleton.mp ht]
  exact (spells_encode s).isWritten

theorem forall_mem_intercalate {P : Token → Prop} {tss : List (List Token)} (hcomma : P .comma)
    (h : ∀ ts ∈ tss, ∀ t ∈ ts, P t) : ∀ t ∈ [Token.comma].intercalate tss, P t := by
  induction tss with
  | nil => simp
  | cons ts tss ih =>
    obtain ⟨hts, htss⟩ := List.forall_mem_cons.mp h
    by_cases hne : tss = []
    · rw [hne, List.intercalate_singleton]
      exact hts
    · rw [List.intercalate_cons_of_ne_nil hne]
      intro t ht
      rw [List.mem_append, List.mem_append, List.mem_singleton] at ht
      rcases ht with (ht | rfl) | ht
      · exact hts t ht
      · exact hcomma
      · exact ih htss t ht

theorem forall_mem_enclosed {P : Token → Prop} {opening closing : Token} {tss : List (List Token)} (hopening : P opening)
    (hcomma : P .comma) (hclosing : P closing) (h : ∀ ts ∈ tss, ∀ t ∈ ts, P t) :
    ∀ t ∈ opening :: ([Token.comma].intercalate tss ++ [closing]), P t :=
  List.forall_mem_cons.mpr ⟨hopening, List.forall_mem_append.mpr
    ⟨forall_mem_intercalate hcomma h, List.forall_mem_singleton.mpr hclosing⟩⟩

theorem wellFormed_array (h : ∀ v ∈ vs, v.WellFormed) : (array vs).WellFormed := by
  have hitems : ∀ ts ∈ itemTokens vs, ∀ t ∈ ts, t.WellFormed := by
    induction vs with
    | nil => simp [itemTokens]
    | cons v vs ih =>
      obtain ⟨hv, hvs⟩ := List.forall_mem_cons.mp h
      rw [itemTokens]
      exact List.forall_mem_cons.mpr ⟨hv, ih hvs⟩
  rw [WellFormed, tokens]
  exact forall_mem_enclosed trivial trivial trivial hitems

theorem wellFormed_object (h : ∀ m ∈ ms, IsWritten m.1.toList ∧ m.2.WellFormed) : (object ms).WellFormed := by
  have hmembers : ∀ ts ∈ memberTokens ms, ∀ t ∈ ts, t.WellFormed := by
    induction ms with
    | nil => simp [memberTokens]
    | cons m ms ih =>
      obtain ⟨⟨hname, hvalue⟩, hms⟩ := List.forall_mem_cons.mp h
      rw [memberTokens]
      exact List.forall_mem_cons.mpr ⟨List.forall_mem_cons.mpr ⟨hname, List.forall_mem_cons.mpr ⟨trivial, hvalue⟩⟩, ih hms⟩
  rw [WellFormed, tokens]
  exact forall_mem_enclosed trivial trivial trivial hmembers

end

end TestSelection.Json
