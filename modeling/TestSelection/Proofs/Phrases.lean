import TestSelection.Proofs.Reading

/-! What kinds read, one after the other: `[not] criterion` is a term, terms with `and` and `or` between them
    are a clause, and a filter is a root alone or a root and a clause. The kinds of parts read a clause
    exactly if the parts are those of some clause (`ReadsClause.exists_clause`, `Clause.reads`). -/

namespace TestSelection

/-- `[not] criterion`. -/
inductive ReadsTerm : List Kind → Prop where
  | criterion {k : Kind} (h : k.isCriterion = true) : ReadsTerm [k]
  | negated {k : Kind} (h : k.isCriterion = true) : ReadsTerm [.not, k]

/-- `term ((and | or) term)*`. -/
inductive ReadsClause : List Kind → Prop where
  | term {ks : List Kind} (h : ReadsTerm ks) : ReadsClause ks
  | link {ks ts : List Kind} (h : ReadsClause ks) (k : Connector) (ht : ReadsTerm ts) : ReadsClause (ks ++ k.kind :: ts)

/-- `root [clause]`. -/
inductive ReadsFilter : List Kind → Prop where
  | root : ReadsFilter [.root]
  | clause {ks : List Kind} (h : ReadsClause ks) : ReadsFilter (.root :: ks)

section
variable {p : Part} {ps : List Part} {ks ts : List Kind} {k : Connector} {place : Place}

/-! ### From filters to kinds -/

theorem Term.reads (t : Term) : ReadsTerm (t.parts.map Part.kind) := by
  obtain ⟨c, _ | _⟩ := t
  · exact .criterion c.isCriterion_kind
  · exact .negated c.isCriterion_kind

theorem Clause.reads (c : Clause) : ReadsClause (c.parts.map Part.kind) := by
  obtain ⟨first, rest⟩ := c
  induction rest using List.reverseRecOn with
  | nil => simpa [parts] using ReadsClause.term first.reads
  | append_singleton rest l ih =>
    rw [parts_concat]
    simpa [Part.kind] using ih.link l.1 l.2.reads

theorem Filter.reads (f : Filter) : ReadsFilter (.root :: f.parts.map Part.kind) := by
  cases f with
  | everything => exact .root
  | clause c => exact .clause c.reads

/-! ### From kinds to filters -/

theorem Part.eq_negation (h : p.kind = .not) : p = .negation := by
  rcases p with _ | k | c
  · rfl
  · cases k <;> cases h
  · have := c.isCriterion_kind
    rw [show c.kind = .not from h] at this
    cases this

theorem Part.eq_connector (h : p.kind = k.kind) : p = .connector k := by
  rcases p with _ | j | c
  · cases k <;> cases h
  · cases j <;> cases k
    · rfl
    · cases h
    · cases h
    · rfl
  · have := c.isCriterion_kind
    rw [show c.kind = k.kind from h] at this
    cases k <;> cases this

theorem Part.eq_criterion (h : p.kind.isCriterion = true) : ∃ c, p = .criterion c := by
  rcases p with _ | k | c
  · cases h
  · cases k <;> cases h
  · exact ⟨c, rfl⟩

theorem ReadsTerm.exists_term (h : ReadsTerm (ps.map Part.kind)) : ∃ t : Term, ps = t.parts := by
  generalize hks : ps.map Part.kind = ks at h
  cases h with
  | criterion h =>
    obtain ⟨p, rfl, hp⟩ := List.map_eq_singleton_iff.mp hks
    obtain ⟨c, rfl⟩ := Part.eq_criterion (hp ▸ h)
    exact ⟨⟨c, false⟩, rfl⟩
  | negated h =>
    obtain ⟨n, qs, rfl, hn, hqs⟩ := List.map_eq_cons_iff.mp hks
    obtain ⟨p, rfl, hp⟩ := List.map_eq_singleton_iff.mp hqs
    obtain ⟨c, rfl⟩ := Part.eq_criterion (hp ▸ h)
    exact ⟨⟨c, true⟩, by rw [Part.eq_negation hn]; rfl⟩

theorem ReadsClause.exists_clause (h : ReadsClause (ps.map Part.kind)) : ∃ c : Clause, ps = c.parts := by
  generalize hks : ps.map Part.kind = ks at h
  induction h generalizing ps with
  | term h =>
    obtain ⟨t, rfl⟩ := ReadsTerm.exists_term (hks ▸ h)
    exact ⟨⟨t, []⟩, by simp [Clause.parts]⟩
  | link _ k ht ih =>
    obtain ⟨qs, us, rfl, hqs, hus⟩ := List.map_eq_append_iff.mp hks
    obtain ⟨p, us, rfl, hp, hts⟩ := List.map_eq_cons_iff.mp hus
    obtain ⟨⟨first, rest⟩, rfl⟩ := ih hqs
    obtain ⟨t, rfl⟩ := ReadsTerm.exists_term (hts ▸ ht)
    refine ⟨⟨first, rest ++ [(k, t)]⟩, ?_⟩
    rw [Clause.parts_concat, Part.eq_connector hp, List.append_assoc, List.singleton_append]

theorem ReadsFilter.exists_filter (h : ReadsFilter (.root :: ps.map Part.kind)) : ∃ f : Filter, ps = f.parts := by
  generalize hks : ps.map Part.kind = ks at h
  cases h with
  | root => exact ⟨.everything, List.map_eq_nil_iff.mp hks⟩
  | clause h =>
    obtain ⟨c, rfl⟩ := ReadsClause.exists_clause (hks ▸ h)
    exact ⟨.clause c, rfl⟩

/-! ### Starts of clauses -/

theorem TakesTerm.reads (h : TakesTerm ps) (ht : ReadsTerm ts) : ReadsClause (ps.map Part.kind ++ ts) := by
  rcases h with rfl | ⟨c, k, rfl⟩
  · exact .term ht
  · rw [List.map_append, List.append_assoc]
    exact c.reads.link k ht

/-- What calls put behind a root can be gone on with to a clause. -/
theorem Fluent.exists_clause (h : Fluent ps place) : ∃ word, ReadsClause word ∧ ps.map Part.kind <+: word := by
  have hshape := h.shape
  cases place with
  | root => exact ⟨_, TakesTerm.reads (Or.inl hshape) (.criterion (k := .test) rfl), List.prefix_append _ _⟩
  | group => exact ⟨_, TakesTerm.reads hshape (.criterion (k := .test) rfl), List.prefix_append _ _⟩
  | criterion =>
    obtain ⟨c, rfl⟩ := hshape
    exact ⟨_, c.reads, List.prefix_refl _⟩
  | negation =>
    obtain ⟨qs, rfl, hqs⟩ := hshape
    refine ⟨_, hqs.reads (.negated (k := .test) rfl), ?_⟩
    rw [List.map_append]
    exact (List.prefix_append_right_inj _).mpr (List.prefix_append [Kind.not] [Kind.test])

end

end TestSelection
