import TestSelection.Proofs.Creation
import TestSelection.Proofs.Reading
import TestSelection.Results
import TestSelection.Script

/-! Scripts as calls. The words of a script can be carried out on a bench one after the other: each keyword is a call on
    the handle that the call before it gave out, and at the end the document is built from the last handle
    (`carriedOut`). Main statement: this comes to the same as reading the words to a filter and writing its document
    (`carriedOut_eq`), so the links and the slots of the bench never get in the way.

    The invariant is that the handle stands at the end of its chain (`Standing.AtEnd`). There a call fails only if its
    criterion is refused, and otherwise it puts one part more behind the chain. -/

namespace TestSelection

/-! ### Handles by their place -/

/-- A bench and a handle on it that stands on a certain place. -/
structure Standing (place : Place) where
  bench : Bench
  handle : Handle
  place_eq : handle.place = place

namespace Bench
variable {b b' : Bench} {h h' : Handle}

theorem place_of_attach {n : Node} {place : Place} (ha : b.attach h n place = .ok (b', h')) : h'.place = place := by
  obtain ⟨c, id, -, -, rfl⟩ := attach_eq_ok_iff.mp ha
  rfl

theorem create_of_error {r : Criterion.Recipe} {hp : h.place.takesCriterion = true} {e : FilterError}
    (hr : r.make = .error e) : b.create h r hp = .error e := by
  rw [create, hr]
  rfl

theorem create_of_ok {r : Criterion.Recipe} {hp : h.place.takesCriterion = true} {c : Criterion} (hr : r.make = .ok c) :
    b.create h r hp = b.attach h ((Part.criterion c).node h.node) .criterion := by
  have hcriterion : b.criterion h c hp = b.attach h ((Part.criterion c).node h.node) .criterion := criterion_eq
  rw [create, hr]
  exact hcriterion

theorem place_of_create {r : Criterion.Recipe} {hp : h.place.takesCriterion = true} (hc : b.create h r hp = .ok (b', h')) :
    h'.place = .criterion := by
  cases hr : r.make with
  | error e =>
    rw [create_of_error hr] at hc
    cases hc
  | ok c =>
    rw [create_of_ok hr] at hc
    exact place_of_attach hc

end Bench

namespace Standing
variable {place target : Place}

/-- The handle that a call gives out. -/
def after (call : Except FilterError (Bench × Handle)) (hplace : ∀ p, call = .ok p → p.2.place = target) :
    Except FilterError (Standing target) :=
  match call, hplace with
  | .ok p, hplace => .ok ⟨p.1, p.2, hplace p rfl⟩
  | .error e, _ => .error e

/-- The root of the first chain. -/
def first : Standing .root := ⟨(Bench.begin {}).1, (Bench.begin {}).2, rfl⟩

def create (s : Standing place) (r : Criterion.Recipe) (hp : place.takesCriterion = true) :
    Except FilterError (Standing .criterion) :=
  after (s.bench.create s.handle r ((congrArg _ s.place_eq).trans hp)) fun _ => Bench.place_of_create

def negation (s : Standing place) (hp : place.takesNegation = true) : Except FilterError (Standing .negation) :=
  after (s.bench.negation s.handle ((congrArg _ s.place_eq).trans hp)) fun _ h => Bench.place_of_attach (Bench.negation_eq ▸ h)

def connector (s : Standing place) (k : Connector) (hp : place.takesConnector = true) : Except FilterError (Standing .group) :=
  after (s.bench.connector s.handle k ((congrArg _ s.place_eq).trans hp)) fun _ h =>
    Bench.place_of_attach (Bench.connector_eq ▸ h)

def build (s : Standing place) : Except FilterError Document := s.bench.build s.handle

end Standing

namespace Script

/-! ### Calls for words -/

/-- The request for a criterion of a kind whose arguments come next, and the words after them. -/
def recipeOf (kind : Kind) (isRegex : Bool) : List Word → Except ScriptError (Criterion.Recipe × List Word)
  | [] => .error (.unexpectedEnd .argument)
  | text :: ws =>
    match kind, ws with
    | .property, [] => .error (.unexpectedEnd .argument)
    | .property, value :: ws => .ok (.ofProperty text.text value.text isRegex, ws)
    | .ids, ws => .ok (.ofIds (Text.commaPieces text.text), ws)
    | kind, ws => .ok (.ofKind kind text.text isRegex, ws)

/-- The request for a criterion at the start of some words, and the words after it. -/
def recipe : List Word → Except ScriptError (Criterion.Recipe × List Word)
  | [] => .error (.unexpectedEnd .criterion)
  | w :: ws =>
    match w.criterion? with
    | some (kind, isRegex) => recipeOf kind isRegex ws
    | none => w.refuse .criterion

/-- What a call comes to for a script. -/
def called {α : Type} (r : Except FilterError α) : Except ScriptError α := r.mapError .filter

def callCriterion {place : Place} (s : Standing place) (hp : place.takesCriterion = true) (ws : List Word) :
    Except ScriptError (Standing .criterion × List Word) := do
  let (r, rest) ← recipe ws
  return (← called (s.create r hp), rest)

/-- The negation of a criterion is called for before the criterion is looked at. -/
def callTerm {place : Place} (s : Standing place) (hp : place.takesNegation = true) (ws : List Word) :
    Except ScriptError (Standing .criterion × List Word) :=
  match ws with
  | [] => .error (.unexpectedEnd .criterion)
  | w :: rest =>
    if w.isNot then do
      callCriterion (← called (s.negation hp)) rfl rest
    else callCriterion s (by cases place <;> simp_all [Place.takesNegation, Place.takesCriterion]) ws

theorem length_recipe_lt {ws rest : List Word} {r : Criterion.Recipe} (h : recipe ws = .ok (r, rest)) :
    rest.length < ws.length := by
  unfold recipe at h
  split at h
  · cases h
  · split at h
    · unfold recipeOf at h
      split at h
      · cases h
      · split at h <;> cases h <;> simp only [List.length_cons] <;> omega
    · cases h

section
variable {place : Place} {s : Standing place} {t : Standing .criterion} {ws rest : List Word}

theorem callCriterion_eq {hp : place.takesCriterion = true} : callCriterion s hp ws =
    (recipe ws).bind fun p => (called (s.create p.1 hp)).map (·, p.2) := by
  rw [callCriterion]
  cases recipe ws with
  | error e => rfl
  | ok p => cases h : called (s.create p.1 hp) <;> simp [bind, Except.bind, Except.map, pure, Except.pure, h]

theorem length_callTerm_lt {hp : place.takesNegation = true} (h : callTerm s hp ws = .ok (t, rest)) :
    rest.length < ws.length := by
  have criterion_lt : ∀ {place : Place} {s : Standing place} {hp : place.takesCriterion = true} {us : List Word},
      callCriterion s hp us = .ok (t, rest) → rest.length < us.length := by
    intro place s hp us h
    rw [callCriterion_eq] at h
    obtain ⟨⟨r, us'⟩, hr, hcall⟩ := bind_eq_ok_iff.mp h
    obtain ⟨t', -, hp⟩ := map_eq_ok_iff.mp hcall
    cases hp
    exact length_recipe_lt hr
  unfold callTerm at h
  split at h
  · cases h
  · split at h
    · obtain ⟨n, -, hn⟩ := bind_eq_ok_iff.mp h
      have := criterion_lt hn
      simp only [List.length_cons]
      omega
    · exact criterion_lt h

end

/-- Connectors with their terms, up to the end of the words. -/
def callLinks (s : Standing .criterion) (ws : List Word) : Except ScriptError (Standing .criterion) :=
  match ws with
  | [] => .ok s
  | w :: ws =>
    match w.connector? with
    | none => w.refuse .connector
    | some k =>
      match called (s.connector k rfl) with
      | .error e => .error e
      | .ok g =>
        match h : callTerm g rfl ws with
        | .error e => .error e
        | .ok (t, rest) =>
          have := length_callTerm_lt h
          callLinks t rest
  termination_by ws.length

/-- The document that the calls of a script end with. -/
def carriedOut (ws : List Word) : Except ScriptError Document :=
  if ws = [] then .ok Filter.everything.document
  else do
    let (s, ws) ← callTerm Standing.first rfl ws
    let s ← callLinks s ws
    called s.build

end Script

/-! ### The end of a chain -/

namespace Standing

/-- The handle stands on the last node of its chain, which spells some parts. -/
def AtEnd {place : Place} (s : Standing place) (ps : List Part) : Prop :=
  ∃ c, s.bench.chains[s.handle.chain]? = some c ∧ c.Spells ps ∧ s.handle.node = ps.length

section
variable {place target : Place} {s : Standing place} {ps : List Part} {p : Part}

theorem first_atEnd : first.AtEnd [] := ⟨Chain.fresh, rfl, Chain.fresh_spells, rfl⟩

/-- A call that attaches a part succeeds at the end of a chain, and stands at the end again. -/
theorem AtEnd.attach (hs : s.AtEnd ps) {call : Except FilterError (Bench × Handle)}
    (hcall : call = s.bench.attach s.handle (p.node s.handle.node) target) (hplace : ∀ q, call = .ok q → q.2.place = target) :
    ∃ t, after call hplace = .ok t ∧ t.AtEnd (ps ++ [p]) := by
  obtain ⟨c, hc, hps, hnode⟩ := hs
  obtain ⟨b, h, c', ha, -, hc', hps', hnode'⟩ := Bench.exists_attach hc hps hnode p target
  rw [ha] at hcall
  subst hcall
  exact ⟨_, rfl, c', hc', hps', hnode'⟩

theorem AtEnd.negation (hs : s.AtEnd ps) (hp : place.takesNegation = true) :
    ∃ t, s.negation hp = .ok t ∧ t.AtEnd (ps ++ [.negation]) :=
  hs.attach Bench.negation_eq _

theorem AtEnd.connector (hs : s.AtEnd ps) (k : Connector) (hp : place.takesConnector = true) :
    ∃ t, s.connector k hp = .ok t ∧ t.AtEnd (ps ++ [.connector k]) :=
  hs.attach Bench.connector_eq _

theorem create_of_error {r : Criterion.Recipe} {e : FilterError} (hr : r.make = .error e) (hp : place.takesCriterion = true) :
    s.create r hp = .error e := by
  have after_error : ∀ {call : Except FilterError (Bench × Handle)} {hplace : ∀ q, call = .ok q → q.2.place = .criterion},
      call = .error e → after call hplace = .error e := by
    rintro _ hplace rfl
    rfl
  exact after_error (Bench.create_of_error hr)

theorem AtEnd.create_of_ok (hs : s.AtEnd ps) {r : Criterion.Recipe} {c : Criterion} (hr : r.make = .ok c)
    (hp : place.takesCriterion = true) : ∃ t, s.create r hp = .ok t ∧ t.AtEnd (ps ++ [.criterion c]) :=
  hs.attach (Bench.create_of_ok hr) _

theorem AtEnd.build {f : Filter} (hs : s.AtEnd f.parts) : s.build = .ok f.document := by
  obtain ⟨c, hc, hps, hnode⟩ := hs
  rw [Standing.build, Bench.build, Bench.chainOf_eq hc, Chain.document, hnode, hps.read]
  rfl

end

end Standing

namespace Script

/-! ### Calls and reading -/

/-- Calls from the end of a chain compared with reading: both fail alike, or what is read is behind the chain. -/
inductive Follows {α : Type} (ps : List Part) (parts : α → List Part) :
    Except ScriptError (Standing .criterion × List Word) → Except ScriptError (α × List Word) → Prop where
  | error (e : ScriptError) : Follows ps parts (.error e) (.error e)
  | ok {s : Standing .criterion} {a : α} (h : s.AtEnd (ps ++ parts a)) (rest : List Word) :
      Follows ps parts (.ok (s, rest)) (.ok (a, rest))

section
variable {place : Place} {s : Standing place} {ps : List Part} {ws : List Word}

theorem criterionOf_eq (kind : Kind) (isRegex : Bool) (ws : List Word) :
    criterionOf kind isRegex ws = (recipeOf kind isRegex ws).bind fun p => made p.1.make p.2 := by
  cases ws with
  | nil => rfl
  | cons arg ws => cases kind <;> cases ws <;> simp only [criterionOf, recipeOf, Except.bind, Criterion.Recipe.make]

theorem criterion_eq (ws : List Word) : criterion ws = (recipe ws).bind fun p => made p.1.make p.2 := by
  cases ws with
  | nil => rfl
  | cons w ws =>
    rw [criterion, recipe]
    cases w.criterion? with
    | none => rfl
    | some p => exact criterionOf_eq p.1 p.2 ws

theorem callCriterion_follows (hs : s.AtEnd ps) (hp : place.takesCriterion = true) (ws : List Word) :
    Follows ps (fun c => [.criterion c]) (callCriterion s hp ws) (criterion ws) := by
  rw [callCriterion_eq, criterion_eq]
  cases recipe ws with
  | error e => exact .error e
  | ok p =>
    obtain ⟨r, rest⟩ := p
    change Follows ps _ ((called (s.create r hp)).map (·, rest)) (made r.make rest)
    cases hr : r.make with
    | error e =>
      rw [Standing.create_of_error hr]
      exact .error (.filter e)
    | ok c =>
      obtain ⟨t, ht, hend⟩ := hs.create_of_ok hr hp
      rw [ht]
      exact .ok (a := c) hend rest

/-- A criterion that follows makes a term with what was called for before it. -/
theorem Follows.term {negated : Bool} {qs : List Part} {calls : Except ScriptError (Standing .criterion × List Word)}
    {result : Except ScriptError (Criterion × List Word)} (h : Follows qs (fun c => [.criterion c]) calls result)
    (hparts : ∀ c, qs ++ [.criterion c] = ps ++ Term.parts ⟨c, negated⟩) :
    Follows ps Term.parts calls (result.map fun p => (⟨p.1, negated⟩, p.2)) := by
  cases h with
  | error e => exact .error e
  | @ok t c hend rest =>
    rw [hparts] at hend
    exact .ok (a := Term.mk c negated) hend rest

theorem callTerm_follows (hs : s.AtEnd ps) (hp : place.takesNegation = true) (ws : List Word) :
    Follows ps Term.parts (callTerm s hp ws) (term ws) := by
  cases ws with
  | nil => exact .error _
  | cons w ws =>
    rw [callTerm, term]
    split
    · obtain ⟨n, hn, hend⟩ := hs.negation hp
      rw [hn]
      exact (callCriterion_follows hend rfl ws).term fun c => by simp [Term.parts]
    · exact (callCriterion_follows hs _ (w :: ws)).term fun c => rfl

theorem callLinks_cons (s : Standing .criterion) (w : Word) (ws : List Word) :
    callLinks s (w :: ws) = match w.connector? with
      | none => w.refuse .connector
      | some k => (called (s.connector k rfl)).bind fun g => (callTerm g rfl ws).bind fun p => callLinks p.1 p.2 := by
  rw [callLinks]
  cases w.connector? with
  | none => rfl
  | some k =>
    dsimp only
    cases called (s.connector k rfl) with
    | error e => rfl
    | ok g =>
      dsimp only
      split <;> rename_i ht <;> simp only [Except.bind, ht]

theorem callLinks_of_connector {s : Standing .criterion} {g : Standing .group} {w : Word} {k : Connector}
    (hk : w.connector? = some k) (hg : s.connector k rfl = .ok g) (ws : List Word) :
    callLinks s (w :: ws) = (callTerm g rfl ws).bind fun p => callLinks p.1 p.2 := by
  rw [callLinks_cons, hk]
  change (called (s.connector k rfl)).bind _ = _
  rw [hg]
  rfl

/-- The links that are read are behind the clause that the chain spells. -/
theorem callLinks_eq {c : Clause} {s : Standing .criterion} (hs : s.AtEnd c.parts) (ws : List Word) :
    (callLinks s ws).bind (fun t => called t.build) = (links ws).map fun rest =>
      (Filter.clause ⟨c.first, c.rest ++ rest⟩).document := by
  fun_induction links ws generalizing s c with
  | case1 =>
    rw [callLinks]
    change called s.build = _
    rw [Standing.AtEnd.build (f := .clause c) hs]
    simp [called, Except.mapError, Except.map]
  | case2 w ws hk =>
    rw [callLinks_cons, hk]
    rfl
  | case3 w ws k hk e ht =>
    obtain ⟨g, hg, hend⟩ := hs.connector k rfl
    have hterm := callTerm_follows hend rfl ws
    rw [callLinks_of_connector hk hg]
    rw [ht] at hterm
    generalize callTerm g rfl ws = calls at hterm
    cases hterm
    rfl
  | case4 w ws k hk t rest ht _ ih =>
    obtain ⟨g, hg, hend⟩ := hs.connector k rfl
    have hterm := callTerm_follows hend rfl ws
    rw [callLinks_of_connector hk hg]
    rw [ht] at hterm
    generalize callTerm g rfl ws = calls at hterm
    cases hterm with
    | ok h =>
      rw [← Clause.parts_concat c.first c.rest (k, t)] at h
      change (callLinks _ rest).bind _ = _
      rw [ih h]
      cases links rest <;> simp [Except.map]

/-- Carrying a script out call by call comes to the document of the filter that its words are read to. -/
theorem carriedOut_eq (ws : List Word) : carriedOut ws = (read ws).map Filter.document := by
  by_cases hws : ws = []
  · rw [carriedOut, if_pos hws, read, if_pos hws]
    rfl
  · have hterm := callTerm_follows Standing.first_atEnd rfl ws
    rw [carriedOut, if_neg hws, read_of_ne_nil hws]
    change (callTerm Standing.first rfl ws).bind (fun p => (callLinks p.1 p.2).bind fun t => called t.build) = _
    generalize callTerm Standing.first rfl ws = calls at hterm
    generalize term ws = result at hterm
    cases hterm with
    | error e => rfl
    | @ok s t h rest =>
      have hclause : s.AtEnd (⟨t, []⟩ : Clause).parts := by simpa [Clause.parts] using h
      change (callLinks s rest).bind _ = ((links rest).map _).map _
      rw [callLinks_eq hclause]
      cases links rest <;> simp [Except.map]

end

end Script

end TestSelection
