import TestSelection.Proofs.ScriptCalls
import TestSelection.Proofs.ScriptGrammar
import TestSelection.Proofs.Splitting

/-! Errors of scripts. Carried out on a bench, a script is refused only for its words or for the texts of a criterion
    (`Fails`), it is refused the same however it goes on, unless it ended too early (`Extends`), and the word that is not
    expected stands where the error says (`Splits.standsAt`, `standsAt_argumentWords`). Main statement: `refusals`. -/

namespace TestSelection

/-- Some text of a criterion is blank, or no id is left. -/
def FilterError.RefusesText (e : FilterError) : Prop :=
  e.category = .validation ∧ (e.argument? = some "name" ∨ e.argument? = some "value" ∨ e.argument? = some "testIds")

namespace ScriptError

/-- Whatever is refused is a quote, the end, a word, or some text of a criterion. -/
def Confined : ScriptError → Prop
  | unterminatedQuote _ | unexpectedEnd _ | unexpected .. => True
  | filter e => e.RefusesText

/-- The error is about what was read, and not about where it ends. -/
def Settled : ScriptError → Prop
  | unexpected .. | filter _ => True
  | unexpectedEnd _ | unterminatedQuote _ => False

end ScriptError

theorem Creator.refusesText {r : Creator} {e : FilterError} (h : r.recipe.make = .error e) : e.RefusesText := by
  obtain ⟨e', he', hmake⟩ | ⟨-, c, hmake⟩ := r.make_cases
  · obtain rfl : e = e' := Except.error.inj (h.symm.trans hmake)
    refine ⟨r.category_of_refusal he', ?_⟩
    cases r with
    | pattern subject text isRegex =>
      simp only [refusal?] at he'
      split at he' <;> cases he'
      exact Or.inl rfl
    | property name value isRegex =>
      simp only [refusal?] at he'
      split at he'
      · cases he'
        exact Or.inl rfl
      · split at he' <;> cases he'
        exact Or.inr (Or.inl rfl)
    | ids testIds =>
      simp only [refusal?] at he'
      split at he' <;> cases he'
      exact Or.inr (Or.inr rfl)
  · rw [hmake] at h
    cases h

namespace Script
open Text

/-- What reading some words fails with. -/
def Fails (ws : List Word) : ScriptError → Prop
  | .unexpectedEnd _ => True
  | .unexpected text offset _ => ∃ w ∈ ws, w.text = text ∧ w.offset = offset
  | .unterminatedQuote _ => False
  | .filter e => e.RefusesText

/-- How reading goes on when more words follow: the words ended too early, or they are read alike and what follows is
    left over. -/
def Extends {α : Type} (us : List Word) (r r' : Except ScriptError (α × List Word)) : Prop :=
  (∃ wanted, r = .error (.unexpectedEnd wanted)) ∨ r' = r.map fun p => (p.1, p.2 ++ us)

/-- A text stands at a byte offset of another one, which is an offset between two characters. -/
def StandsAt (text : List Char) (offset : Nat) (cs : List Char) : Prop :=
  ∃ before after, cs = before ++ text ++ after ∧ offset = width before

/-- The word as it stands in a script. -/
def Word.spelled (w : Word) : List Char := if w.quoted then '"' :: (w.text.toList ++ ['"']) else w.text.toList

section
variable {w : Word} {ws us vs rest : List Word} {e : ScriptError} {kind : Kind} {isRegex : Bool} {r : Criterion.Recipe}
  {offset : Nat} {cs : List Char} {args : List String}

/-! ### What can go wrong -/

theorem Fails.mono (h : Fails ws e) (hsub : ws ⊆ vs) : Fails vs e := by
  cases e with
  | unexpected text offset wanted =>
    obtain ⟨w, hw, heq⟩ := h
    exact ⟨w, hsub hw, heq⟩
  | unexpectedEnd | unterminatedQuote | filter => exact h

theorem Fails.confined (h : Fails ws e) : e.Confined := by
  cases e with
  | filter e => exact h
  | unexpectedEnd | unterminatedQuote | unexpected => trivial

theorem fails_of_refuse {α : Type} {wanted : Wanted} (hw : w ∈ ws) (h : (w.refuse wanted : Except ScriptError α) = .error e) :
    Fails ws e := by
  cases h
  exact ⟨w, hw, rfl, rfl⟩

theorem fails_of_recipe (h : recipe ws = .error e) : Fails ws e := by
  cases ws with
  | nil =>
    cases h
    trivial
  | cons w ws =>
    rw [recipe] at h
    split at h
    · rename_i kind isRegex _
      cases ws with
      | nil =>
        cases h
        trivial
      | cons arg ws =>
        cases kind <;> cases ws <;> cases h
        trivial
    · exact fails_of_refuse List.mem_cons_self h

/-- What is asked for are criteria of their kinds, with any texts. -/
theorem exists_creator (h : recipe ws = .ok (r, rest)) : ∃ c : Creator, r = c.recipe := by
  cases ws with
  | nil => cases h
  | cons w ws =>
    rw [recipe] at h
    split at h
    · rename_i kind isRegex hkind
      obtain ⟨-, hstructural, -⟩ := criterion?_eq_some_iff.mp hkind
      cases ws with
      | nil => cases h
      | cons arg ws =>
        rcases kind.taken_cases with rfl | ⟨k, rfl⟩ | rfl | rfl | rfl | ⟨subject, rfl⟩
        · cases hstructural
        · cases k <;> cases hstructural
        · cases hstructural
        · cases ws <;> cases h <;> exact ⟨.ids _, rfl⟩
        · cases ws <;> cases h
          exact ⟨.property _ _ _, rfl⟩
        · refine ⟨.pattern subject arg.text isRegex, ?_⟩
          cases subject <;> cases ws <;> cases h <;> rfl
    · cases h

theorem fails_of_criterion (h : criterion ws = .error e) : Fails ws e := by
  rw [criterion_eq] at h
  rcases bind_eq_error_iff.mp h with hr | ⟨p, hr, hmade⟩
  · exact fails_of_recipe hr
  · obtain ⟨c, hc⟩ := exists_creator hr
    cases hmake : p.1.make with
    | error e' =>
      rw [hmake] at hmade
      cases hmade
      rw [hc] at hmake
      exact Creator.refusesText hmake
    | ok c' =>
      rw [hmake] at hmade
      cases hmade

theorem fails_of_term (h : term ws = .error e) : Fails ws e := by
  cases ws with
  | nil =>
    cases h
    trivial
  | cons w ws =>
    rw [term] at h
    split at h
    · exact (fails_of_criterion (map_eq_error_iff.mp h)).mono (List.subset_cons_self w ws)
    · exact fails_of_criterion (map_eq_error_iff.mp h)

theorem subset_of_term {t : Term} (h : term ws = .ok (t, rest)) : rest ⊆ ws := by
  obtain ⟨us, rfl, -⟩ := term_eq_ok_iff.mp h
  exact List.subset_append_right us rest

theorem fails_of_links (h : links ws = .error e) : Fails ws e := by
  fun_induction links ws with
  | case1 => cases h
  | case2 w ws hk => exact fails_of_refuse List.mem_cons_self h
  | case3 w ws k hk e' ht =>
    cases h
    exact (fails_of_term ht).mono (List.subset_cons_self w ws)
  | case4 w ws k hk t rest ht _ ih =>
    exact (ih (map_eq_error_iff.mp h)).mono (List.Subset.trans (subset_of_term ht) (List.subset_cons_self w ws))

theorem fails_of_read (h : read ws = .error e) : Fails ws e := by
  by_cases hws : ws = []
  · subst hws
    cases h
  · rw [read_of_ne_nil hws] at h
    rcases bind_eq_error_iff.mp h with ht | ⟨p, ht, hlinks⟩
    · exact fails_of_term ht
    · exact (fails_of_links (map_eq_error_iff.mp hlinks)).mono (subset_of_term ht)

/-! ### More words -/

theorem Extends.map {α β : Type} {s s' : Except ScriptError (α × List Word)} (h : Extends us s s') (f : α → β) :
    Extends us (s.map fun p => (f p.1, p.2)) (s'.map fun p => (f p.1, p.2)) := by
  obtain ⟨wanted, rfl⟩ | rfl := h
  · exact Or.inl ⟨wanted, rfl⟩
  · right
    cases s <;> rfl

theorem extends_recipe (ws us : List Word) : Extends us (recipe ws) (recipe (ws ++ us)) := by
  cases ws with
  | nil => exact Or.inl ⟨_, rfl⟩
  | cons w ws =>
    rw [List.cons_append, recipe, recipe]
    cases w.criterion? with
    | none => exact Or.inr rfl
    | some p =>
      obtain ⟨kind, isRegex⟩ := p
      cases ws with
      | nil => exact Or.inl ⟨_, rfl⟩
      | cons arg ws =>
        cases kind with
        | property =>
          cases ws with
          | nil => exact Or.inl ⟨_, rfl⟩
          | cons value ws => exact Or.inr rfl
        | _ => cases ws <;> cases us <;> exact Or.inr rfl

theorem extends_criterion (ws us : List Word) : Extends us (criterion ws) (criterion (ws ++ us)) := by
  rw [criterion_eq, criterion_eq]
  obtain ⟨wanted, h⟩ | h := extends_recipe ws us
  · rw [h]
    exact Or.inl ⟨wanted, rfl⟩
  · rw [h]
    right
    cases recipe ws with
    | error e => rfl
    | ok p =>
      change made p.1.make (p.2 ++ us) = (made p.1.make p.2).map _
      cases p.1.make <;> rfl

theorem extends_term (ws us : List Word) : Extends us (term ws) (term (ws ++ us)) := by
  cases ws with
  | nil => exact Or.inl ⟨_, rfl⟩
  | cons w ws =>
    rw [List.cons_append, term, term]
    cases w.isNot with
    | true => exact (extends_criterion ws us).map (Term.mk · true)
    | false => exact (extends_criterion (w :: ws) us).map (Term.mk · false)

theorem Extends.of_error {α : Type} {s s' : Except ScriptError (α × List Word)} (h : Extends us s s') (hs : s = .error e)
    (he : e.Settled) : s' = .error e := by
  subst hs
  obtain ⟨wanted, heq⟩ | rfl := h
  · cases heq
    exact he.elim
  · rfl

theorem Extends.of_ok {α : Type} {s s' : Except ScriptError (α × List Word)} {a : α} (h : Extends us s s')
    (hs : s = .ok (a, rest)) : s' = .ok (a, rest ++ us) := by
  subst hs
  obtain ⟨wanted, heq⟩ | rfl := h
  · cases heq
  · rfl

theorem links_append (h : links ws = .error e) (he : e.Settled) (us : List Word) : links (ws ++ us) = .error e := by
  fun_induction links ws with
  | case1 => cases h
  | case2 w ws hk =>
    rw [List.cons_append, links_cons, hk]
    exact h
  | case3 w ws k hk e' ht =>
    cases h
    rw [List.cons_append, links_cons, hk, (extends_term ws us).of_error ht he]
    rfl
  | case4 w ws k hk t rest ht _ ih =>
    rw [List.cons_append, links_cons, hk, (extends_term ws us).of_ok ht]
    exact map_eq_error_iff.mpr (ih (map_eq_error_iff.mp h))

theorem read_append (h : read ws = .error e) (he : e.Settled) (us : List Word) : read (ws ++ us) = .error e := by
  have hws : ws ≠ [] := by
    rintro rfl
    cases h
  rw [read_of_ne_nil hws] at h
  rw [read_of_ne_nil (List.append_ne_nil_of_left_ne_nil hws us)]
  rcases bind_eq_error_iff.mp h with ht | ⟨p, ht, hlinks⟩
  · exact bind_eq_error_iff.mpr (Or.inl ((extends_term ws us).of_error ht he))
  · refine bind_eq_error_iff.mpr (Or.inr ⟨_, (extends_term ws us).of_ok ht, ?_⟩)
    exact map_eq_error_iff.mpr (links_append (map_eq_error_iff.mp hlinks) he us)

/-! ### Where words stand -/

theorem Splits.standsAt (h : Splits offset cs ws) (hw : w ∈ ws) : ∃ p, w.offset = offset + p ∧ StandsAt w.spelled p cs := by
  induction h with
  | nil => cases hw
  | @blank offset c cs ws hc _ ih =>
    obtain ⟨p, hp, before, after, rfl, rfl⟩ := ih hw
    exact ⟨_, by rw [hp, Nat.add_assoc]; rfl, c :: before, after, rfl, rfl⟩
  | @quoted offset text rest ws htext _ ih =>
    rcases List.mem_cons.mp hw with rfl | hw
    · exact ⟨0, rfl, [], rest, by simp [Word.spelled], rfl⟩
    · obtain ⟨p, hp, before, after, rfl, rfl⟩ := ih hw
      refine ⟨_, ?_, '"' :: (text ++ '"' :: before), after, by simp, rfl⟩
      have : '"'.utf8Size = 1 := by decide
      rw [hp]
      simp only [width_cons, width_append, this]
      omega
  | @bare offset text rest ws hne htext hrest _ ih =>
    rcases List.mem_cons.mp hw with rfl | hw
    · exact ⟨0, rfl, [], rest, by simp [Word.spelled], rfl⟩
    · obtain ⟨p, hp, before, after, rfl, rfl⟩ := ih hw
      exact ⟨_, by rw [hp, Nat.add_assoc, ← width_append], text ++ before, after, by simp, rfl⟩

theorem standsAt_argumentWords (hw : w ∈ argumentWordsFrom offset args) :
    w.text ∈ args ∧ ∃ p, w.offset = offset + p ∧ StandsAt w.text.toList p (" ".intercalate args).toList := by
  induction args generalizing offset with
  | nil => cases hw
  | cons arg args ih =>
    have hjoined : ∃ tail, (" ".intercalate (arg :: args)).toList = arg.toList ++ tail ∧
        (args ≠ [] → tail = ' ' :: (" ".intercalate args).toList) := by
      cases args with
      | nil => exact ⟨[], by simp, fun h => absurd rfl h⟩
      | cons next args => exact ⟨_, by simp [String.intercalate_cons_cons], fun _ => rfl⟩
    obtain ⟨tail, htail, hargs⟩ := hjoined
    rw [argumentWordsFrom] at hw
    rcases List.mem_cons.mp hw with rfl | hw
    · exact ⟨List.mem_cons_self, 0, rfl, [], tail, htail, rfl⟩
    · obtain ⟨hmem, p, hp, before, after, heq, rfl⟩ := ih hw
      refine ⟨List.mem_cons_of_mem _ hmem, _, ?_, arg.toList ++ ' ' :: before, after, ?_, rfl⟩
      · have : ' '.utf8Size = 1 := by decide
        rw [hp]
        simp only [width_append, width_cons, this]
        omega
      · rw [htail, hargs (List.ne_nil_of_mem hmem), heq]
        simp

/-! ### Whole scripts -/

theorem carriedOut_eq_error_iff : carriedOut ws = .error e ↔ read ws = .error e := by
  rw [carriedOut_eq, map_eq_error_iff]

theorem compile_eq (source : String) : compile source = (ofSource source).bind carriedOut := by
  rw [compile]
  cases ofSource source with
  | error e => rfl
  | ok ws =>
    change (do return (← read ws).document) = carriedOut ws
    rw [carriedOut_eq]
    cases read ws <;> rfl

theorem compileArguments_eq (args : List String) : compileArguments args = carriedOut (argumentWords args) :=
  (carriedOut_eq _).symm

/-- A script is refused for a quote, for its end, for a word, or for a blank text of a criterion, although all of its
    criteria are attached to a chain call by call. A word that is not expected stands where the error says. With more
    words behind it, a script is refused just the same, unless its end was to blame. -/
theorem refusals :
    (∀ source, compile source = (ofSource source).bind carriedOut) ∧
    (∀ args, compileArguments args = carriedOut (argumentWords args)) ∧
    (∀ source e, compile source = .error e → e.Confined ∧ ∀ text offset wanted, e = .unexpected text offset wanted →
      ∃ ws w, words source = .ok ws ∧ w ∈ ws ∧ w.text = text ∧ w.offset = offset ∧
        StandsAt w.spelled offset source.toList) ∧
    (∀ args e, compileArguments args = .error e → e.Confined ∧ (∀ offset, e ≠ .unterminatedQuote offset) ∧
      ∀ text offset wanted, e = .unexpected text offset wanted →
        text ∈ args ∧ StandsAt text.toList offset (" ".intercalate args).toList) ∧
    ∀ ws us e, carriedOut ws = .error e → e.Settled → carriedOut (ws ++ us) = .error e := by
  refine ⟨compile_eq, compileArguments_eq, fun source e h => ?_, fun args e h => ?_, fun ws us e h he => ?_⟩
  · rw [compile_eq, ofSource] at h
    cases hwords : words source with
    | error place =>
      rw [hwords] at h
      cases h
      exact ⟨trivial, nofun⟩
    | ok ws =>
      rw [hwords] at h
      have hfails := fails_of_read (carriedOut_eq_error_iff.mp h)
      refine ⟨hfails.confined, ?_⟩
      rintro text offset wanted rfl
      obtain ⟨w, hw, htext, rfl⟩ := hfails
      obtain ⟨p, hp, hstands⟩ := (wordsFrom_eq_ok_iff.mp hwords).standsAt hw
      rw [Nat.zero_add] at hp
      exact ⟨ws, w, rfl, hw, htext, rfl, hp ▸ hstands⟩
  · rw [compileArguments_eq] at h
    have hfails := fails_of_read (carriedOut_eq_error_iff.mp h)
    refine ⟨hfails.confined, ?_, ?_⟩
    · rintro offset rfl
      exact hfails
    · rintro text offset wanted rfl
      obtain ⟨w, hw, rfl, rfl⟩ := hfails
      obtain ⟨hmem, p, hp, hstands⟩ := standsAt_argumentWords hw
      rw [Nat.zero_add] at hp
      exact ⟨hmem, hp ▸ hstands⟩
  · exact carriedOut_eq_error_iff.mpr (read_append (carriedOut_eq_error_iff.mp h) he us)

-- Offsets count bytes. A quote that is not closed is found before any word is read.
example : compile "cat \"é\"xor \"b" = .error (.unterminatedQuote 12) ∧
    compile "cat \"é\"xor" = .error (.unexpected "xor" 8 .connector) := by
  decide +kernel

end

end Script

end TestSelection
