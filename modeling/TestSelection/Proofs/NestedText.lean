import TestSelection.Proofs.Grouping
import TestSelection.Proofs.Reading
import TestSelection.Sequence

/-! The text of a filter is its grouping, with a closed run written as one element. The layout never writes
    nested text: it writes closing tags at once and puts the opening tags in front at the end. What ties it
    to the grouping is that the tags kept apart and the text behind them always make up the members of the
    run being written (`Layout.Writes`). -/

namespace TestSelection

/-! ### Nested text -/

/-- Members as one element. -/
def Connector.wrap (k : Connector) (members : List String) : String := Item.wrap k.tag (String.join members)

/-- A last run as text: only one of `or` needs tags. -/
def Run.text (r : Run String) : String :=
  if r.connector = some .or then Connector.or.wrap r.members else String.join r.members

/-- What is written between the tags of a filter, as nested text. -/
def Filter.nestedText : Filter → String
  | everything => ""
  | clause c => (c.run Connector.wrap Term.tagged).text

/-- The filter that says `a and b or not c and d` of full names. -/
def Filter.alternating : Filter :=
  let a := Criterion.pattern .fullName ⟨"a", by decide⟩ false
  let b := Criterion.pattern .fullName ⟨"b", by decide⟩ false
  let c := Criterion.pattern .fullName ⟨"c", by decide⟩ false
  let d := Criterion.pattern .fullName ⟨"d", by decide⟩ false
  .clause ⟨⟨a, false⟩, [(.and, ⟨b, false⟩), (.or, ⟨c, true⟩), (.and, ⟨d, false⟩)]⟩

/-! ### The layout -/

namespace Layout

def opening (l : Layout) : String := String.join (l.closed.map fun k => "<" ++ k.tag ++ ">")

/-- With the tags in front, the layout holds the members of a run and goes on with its connector. -/
structure Writes (l : Layout) (r : Run String) : Prop where
  run : l.run = r.connector
  text : l.opening ++ l.text = String.join r.members

section
variable {l : Layout} {r : Run String} {k j : Connector} {t : Term}

theorem Writes.start (t : Term) : Writes (Layout.start t) { members := [t.tagged] } :=
  ⟨rfl, by simp [Layout.start, opening]⟩

theorem close_of_none (h : l.run = none) : l.close = l := by
  simp [close, h]

/-- Closing a run writes it as one element. -/
theorem Writes.close (h : Writes l r) (hk : r.connector = some k) :
    l.close.opening ++ l.close.text = k.wrap r.members := by
  have hclose : l.close = ⟨k :: l.closed, l.text ++ "</" ++ k.tag ++ ">", none⟩ := by
    simp [Layout.close, h.run, hk]
  calc l.close.opening ++ l.close.text
      = "<" ++ k.tag ++ ">" ++ (l.opening ++ l.text) ++ "</" ++ k.tag ++ ">" := by
        simp [hclose, opening, String.append_assoc]
    _ = k.wrap r.members := by rw [h.text]; rfl

/-- A link goes on with a run, or closes it. -/
theorem Writes.join (h : Writes l r) (k : Connector) (t : Term) :
    Writes (l.join k t) (r.join Connector.wrap k t.tagged) := by
  refine ⟨(Run.connector_join r k t.tagged).symm, ?_⟩
  rcases r.join_cases k t.tagged with ⟨hr, hjoin⟩ | ⟨j, hj, hne, hjoin⟩ <;> rw [hjoin]
  · have hsame : (if l.run = some k then l else l.close) = l := by
      rcases hr with hr | hr
      · simp [h.run, hr, close_of_none]
      · simp [h.run, hr]
    rw [String.join_append, ← h.text]
    simp [Layout.join, hsame, opening, String.append_assoc]
  · have hother : ¬l.run = some k := by
      rw [h.run, hj]
      exact fun heq => hne (Option.some.inj heq)
    simp only [Layout.join, hother, if_false, String.join_cons, String.join_nil, String.append_empty]
    rw [← h.close hj, String.append_assoc]
    rfl

theorem Writes.finish (h : Writes l r) : l.finish = r.text := by
  unfold Layout.finish Run.text
  rcases hr : r.connector with _ | _ | _
  · simp only [h.run, hr, close_of_none, if_false, reduceCtorEq]
    exact h.text
  · simp only [h.run, hr, if_true]
    exact h.text
  · simp only [h.run, hr, if_false, reduceCtorEq, Option.some.injEq]
    exact h.close hr

end

end Layout

theorem Clause.layout_writes (c : Clause) :
    Layout.Writes (c.rest.foldl (fun l link => Layout.join l link.1 link.2) (Layout.start c.first))
      (c.run Connector.wrap Term.tagged) := by
  obtain ⟨first, rest⟩ := c
  induction rest using List.reverseRecOn with
  | nil => exact Layout.Writes.start first
  | append_singleton rest l ih =>
    rw [run_concat, List.foldl_append]
    exact ih.join l.1 l.2

theorem Filter.body_eq_nestedText (f : Filter) : f.body = f.nestedText := by
  cases f with
  | everything => rfl
  | clause c => exact c.layout_writes.finish

/-! ### Documents -/

theorem Connector.wrap_ne_empty (k : Connector) (members : List String) : k.wrap members ≠ "" := by
  simp [wrap, Item.wrap, ← String.toList_inj]

theorem Term.tagged_ne_empty (t : Term) : t.tagged ≠ "" := by
  obtain ⟨c, _ | _⟩ := t <;> simp [tagged, Criterion.tagged, ← String.toList_inj]

theorem Filter.nestedText_eq_empty_iff {f : Filter} : f.nestedText = "" ↔ f = .everything := by
  cases f with
  | everything => simp [nestedText]
  | clause c =>
    have hclause : (c.run Connector.wrap Term.tagged).text ≠ "" := by
      obtain ⟨hne, hmem⟩ := c.members_run (P := (· ≠ "")) Term.tagged_ne_empty fun k members _ _ => k.wrap_ne_empty members
      unfold Run.text
      split
      · exact Connector.wrap_ne_empty _ _
      · obtain ⟨m, ms, hms⟩ := List.exists_cons_of_ne_nil hne
        simp [hms, hmem m (by simp [hms])]
    simp [nestedText, hclause]

theorem Text.between?_append (opening closing inner : List Char) :
    between? opening closing (opening ++ inner ++ closing) = some inner := by
  have hlen : (opening ++ inner ++ closing).length - opening.length - closing.length = inner.length := by
    simp only [List.length_append]
    omega
  rw [between?, hlen, List.append_assoc, List.drop_left]
  simp

theorem Document.inner_ofBody (body : String) : (ofBody body).inner = body := by
  unfold ofBody
  split
  · rename_i h
    rw [h]
    rfl
  · have h := Text.between?_append "<filter>".toList "</filter>".toList body.toList
    simp only [inner, String.toList_append, h, Option.map_some, Option.getD_some, String.ofList_toList]

theorem Bench.Finished.build_eq {b : Bench} {h : Handle} {f : Filter} (hf : b.Finished h f) :
    b.build h = .ok f.document := by
  rw [Bench.build, Chain.document, hf.read]
  rfl

/-- A finished chain is compiled to the nested text of its filter, however the connectors change. The
    document has exactly that text inside, and none if the chain is only a root. -/
theorem Bench.Finished.compile_eq_nestedText {b : Bench} {h : Handle} {f : Filter} (hf : b.Finished h f) :
    (b.chainOf h).compile h.node = .ok f.nestedText ∧
      ∃ d, b.build h = .ok d ∧ d.inner = f.nestedText ∧ (d.isEmpty = true ↔ (b.chainOf h).size = 1) := by
  have hinner : f.document.inner = f.nestedText := by
    rw [Filter.document, Document.inner_ofBody, Filter.body_eq_nestedText]
  refine ⟨?_, f.document, hf.build_eq, hinner, ?_⟩
  · rw [Chain.compile, hf.read, ← Filter.body_eq_nestedText]
    rfl
  · rw [Document.isEmpty, beq_iff_eq, hinner, Filter.nestedText_eq_empty_iff, hf.spells.1.size,
      Nat.add_eq_right, List.length_eq_zero_iff, Filter.parts_eq_nil_iff]

theorem Bench.Finished.compile_alternating : ∃ b h, Bench.Finished b h Filter.alternating ∧
    (b.chainOf h).compile h.node =
      .ok "<or><and><name>a</name><name>b</name></and><not><name>c</name></not></or><name>d</name>" := by
  obtain ⟨b, h, hf⟩ := Bench.exists_finished Filter.alternating
  have htext : Filter.alternating.nestedText =
      "<or><and><name>a</name><name>b</name></and><not><name>c</name></not></or><name>d</name>" := by decide
  exact ⟨b, h, hf, htext ▸ (Bench.Finished.compile_eq_nestedText hf).1⟩

end TestSelection
