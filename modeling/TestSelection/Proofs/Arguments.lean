import TestSelection.Proofs.Splitting
import TestSelection.Script

/-! Scripts given as arguments. Arguments without quotes in them can be written on one line, where those that are empty
    or hold white space stand in quotes (`sourceOf`). Main statement: the line and the arguments have the same document,
    or are refused alike but for the offset of a word (`compile_sourceOf`).

    Offsets reach nothing but messages, and quotes around the empty text say nothing, since it is no keyword. So reading
    commutes with taking both away, part by part of the grammar (`read_unplaced`), and it is enough that the line splits
    into the words of the arguments but for these two (`splits_sourceOf`). -/

namespace TestSelection

/-- The error without the offset of the word that is not expected. -/
def ScriptError.unplaced : ScriptError → ScriptError
  | unexpected word _ wanted => unexpected word 0 wanted
  | e => e

namespace Script
open Text

/-! ### One line for some arguments -/

/-- An argument as it stands on a line. -/
def written (arg : String) : String :=
  if arg = "" ∨ arg.toList.any isBlank = true then "\"" ++ arg ++ "\"" else arg

/-- Arguments on one line, with single spaces between them. -/
def sourceOf (args : List String) : String := " ".intercalate (args.map written)

/-- The word without its offset, and without quotes around the empty text. -/
def Word.unplaced (w : Word) : Word := ⟨w.text, 0, w.quoted && w.text != ""⟩

/-- The rest of a result without the places of its words. -/
def unplaceRest {α : Type} (r : Except ScriptError (α × List Word)) : Except ScriptError (α × List Word) :=
  (r.map fun p => (p.1, p.2.map Word.unplaced)).mapError ScriptError.unplaced

section
variable {w : Word} {ws us : List Word} {k : Connector} {kind : Kind} {isRegex : Bool} {offset : Nat} {rest : List Char}
  {arg : String} {args : List String}

/-! ### Reading without offsets -/

theorem unplaceRest_ok {α : Type} (p : α × List Word) : unplaceRest (.ok p) = .ok (p.1, p.2.map Word.unplaced) := rfl

/-- What is told from a word is the same without its place, if it neither depends on the offset nor, of the empty text,
    on quotes. -/
theorem Word.congr_unplaced {α : Type} {f : Word → α} (hoffset : ∀ w : Word, f w = f ⟨w.text, 0, w.quoted⟩)
    (hempty : f ⟨"", 0, true⟩ = f ⟨"", 0, false⟩) : f w.unplaced = f w := by
  obtain ⟨text, offset, quoted⟩ := w
  rw [hoffset ⟨text, offset, quoted⟩]
  by_cases htext : text = ""
  · subst htext
    cases quoted with
    | true => exact hempty.symm
    | false => rfl
  · have hquoted : (quoted && text != "") = quoted := by rw [bne_iff_ne.mpr htext, Bool.and_true]
    rw [unplaced, hquoted]

theorem criterion?_unplaced : w.unplaced.criterion? = w.criterion? := Word.congr_unplaced (fun _ => rfl) rfl

theorem connector?_unplaced : w.unplaced.connector? = w.connector? := Word.congr_unplaced (fun _ => rfl) rfl

theorem isNot_unplaced : w.unplaced.isNot = w.isNot := Word.congr_unplaced (fun _ => rfl) rfl

theorem made_unplaced {e : Except FilterError Criterion} : made e (ws.map Word.unplaced) = unplaceRest (made e ws) := by
  cases e <;> rfl

theorem criterionOf_unplaced :
    criterionOf kind isRegex (ws.map Word.unplaced) = unplaceRest (criterionOf kind isRegex ws) := by
  cases ws with
  | nil => rfl
  | cons arg ws =>
    cases kind with
    | property =>
      cases ws with
      | nil => rfl
      | cons value ws => exact made_unplaced
    | root | and | or | not => cases ws <;> rfl
    | _ => cases ws <;> exact made_unplaced

theorem criterion_unplaced : criterion (ws.map Word.unplaced) = unplaceRest (criterion ws) := by
  cases ws with
  | nil => rfl
  | cons w ws =>
    rw [List.map_cons, criterion, criterion, criterion?_unplaced]
    cases w.criterion? with
    | none => rfl
    | some p => exact criterionOf_unplaced

theorem term_unplaced : term (ws.map Word.unplaced) = unplaceRest (term ws) := by
  have hmap : ∀ us negated, ((criterion (us.map Word.unplaced)).map fun p => ((⟨p.1, negated⟩, p.2) : Term × List Word)) =
      unplaceRest ((criterion us).map fun p => (⟨p.1, negated⟩, p.2)) := by
    intro us negated
    rw [criterion_unplaced]
    cases criterion us <;> rfl
  cases ws with
  | nil => rfl
  | cons w ws =>
    rw [List.map_cons, term, term, isNot_unplaced]
    cases w.isNot with
    | true => exact hmap ws true
    | false => exact hmap (w :: ws) false

theorem links_unplaced : links (ws.map Word.unplaced) = (links ws).mapError ScriptError.unplaced := by
  fun_induction links ws with
  | case1 =>
    rw [List.map_nil, links]
    rfl
  | case2 w ws hk =>
    rw [List.map_cons, links_cons, connector?_unplaced, hk]
    rfl
  | case3 w ws k hk e ht =>
    rw [List.map_cons, links_cons, connector?_unplaced, hk, term_unplaced, ht]
    rfl
  | case4 w ws k hk t rest ht _ ih =>
    rw [List.map_cons, links_cons, connector?_unplaced, hk, term_unplaced, ht, unplaceRest_ok]
    change (links (rest.map Word.unplaced)).map ((k, t) :: ·) = _
    rw [ih]
    cases links rest <;> rfl

/-- Words that are the same but for their offsets, and for quotes around the empty text, are read alike. -/
theorem read_unplaced : read (ws.map Word.unplaced) = (read ws).mapError ScriptError.unplaced := by
  cases ws with
  | nil => rfl
  | cons w ws =>
    rw [read_of_ne_nil (by simp), term_unplaced, read_of_ne_nil (List.cons_ne_nil w ws)]
    cases term (w :: ws) with
    | error e => rfl
    | ok p =>
      rw [unplaceRest_ok]
      change (links (p.2.map Word.unplaced)).map (fun rest => Filter.clause ⟨p.1, rest⟩) =
        ((links p.2).map fun rest => .clause ⟨p.1, rest⟩).mapError ScriptError.unplaced
      rw [links_unplaced]
      cases links p.2 <;> rfl

/-! ### The words of the line -/

theorem unplaced_of_quoted {quoted : Bool} (h : arg = "" ∨ quoted = arg.toList.any isBlank) :
    (⟨arg, offset, quoted⟩ : Word).unplaced = ⟨arg, 0, arg.toList.any isBlank⟩ := by
  by_cases hne : arg = ""
  · subst hne
    simp [Word.unplaced]
  · rw [h.resolve_left hne]
    simp [Word.unplaced, hne]

theorem any_isBlank_or_quote (harg : '"' ∉ arg.toList) :
    (arg.toList.any fun c => isBlank c || c == '"') = arg.toList.any isBlank := by
  rw [Bool.eq_iff_iff, List.any_eq_true, List.any_eq_true]
  refine exists_congr fun c => and_congr_right fun hc => ?_
  have hne : c ≠ '"' := fun h => harg (h ▸ hc)
  simp [hne]

/-- An argument on a line is one word, whatever follows that cannot go on with it. -/
theorem splits_written (harg : '"' ∉ arg.toList) (hrest : ∀ c ∈ rest.head?, isWordChar c = false)
    (h : ∀ offset, ∃ vs, Splits offset rest vs ∧ vs.map Word.unplaced = us) :
    ∃ ws, Splits offset ((written arg).toList ++ rest) ws ∧
      ws.map Word.unplaced = ⟨arg, 0, arg.toList.any isBlank⟩ :: us := by
  by_cases hq : arg = "" ∨ arg.toList.any isBlank = true
  · obtain ⟨vs, hvs, hus⟩ := h (offset + width arg.toList + 2)
    have htext : (written arg).toList ++ rest = '"' :: (arg.toList ++ '"' :: rest) := by
      rw [written, if_pos hq]
      simp
    rw [htext]
    refine ⟨_, .quoted harg hvs, ?_⟩
    rw [List.map_cons, hus, String.ofList_toList, unplaced_of_quoted (hq.imp_right Eq.symm)]
  · obtain ⟨vs, hvs, hus⟩ := h (offset + width arg.toList)
    rw [written, if_neg hq]
    obtain ⟨hne, hblank⟩ := not_or.mp hq
    have hany : arg.toList.any isBlank = false := (Bool.not_eq_true _).mp hblank
    have hword : arg.toList.all isWordChar = true := by
      rw [List.all_eq_true]
      intro c hc
      exact isWordChar_iff.mpr ⟨by simpa using List.any_eq_false.mp hany c hc, fun h => harg (h ▸ hc)⟩
    refine ⟨_, .bare (by simpa using hne) hword hrest hvs, ?_⟩
    rw [List.map_cons, hus, String.ofList_toList, unplaced_of_quoted (Or.inr hany.symm)]

/-- The line splits into the words of the arguments, but for offsets and for quotes around the empty text. -/
theorem splits_sourceOf (hargs : ∀ arg ∈ args, '"' ∉ arg.toList) (offset offset' : Nat) :
    ∃ ws, Splits offset (sourceOf args).toList ws ∧
      ws.map Word.unplaced = (argumentWordsFrom offset' args).map Word.unplaced := by
  induction args generalizing offset offset' with
  | nil => exact ⟨[], .nil, rfl⟩
  | cons arg args ih =>
    obtain ⟨harg, hargs⟩ := List.forall_mem_cons.mp hargs
    have htail := fun offset => ih hargs offset (offset' + width arg.toList + 1)
    rw [argumentWordsFrom, List.map_cons, unplaced_of_quoted (Or.inr (any_isBlank_or_quote harg))]
    cases args with
    | nil =>
      have hsource : (sourceOf [arg]).toList = (written arg).toList ++ [] := by simp [sourceOf]
      rw [hsource]
      exact splits_written harg (by simp) htail
    | cons next args =>
      have hsource : (sourceOf (arg :: next :: args)).toList =
          (written arg).toList ++ ' ' :: (sourceOf (next :: args)).toList := by
        simp [sourceOf, String.intercalate_cons_cons]
      rw [hsource]
      refine splits_written harg (by simp; decide) fun offset => ?_
      obtain ⟨vs, hvs, hus⟩ := htail (offset + ' '.utf8Size)
      exact ⟨vs, .blank (by decide) hvs, hus⟩

/-! ### Whole scripts -/

/-- Arguments without quotes in them have the document of their line, or both are refused, and then with the same error
    but for the offset of a word. -/
theorem compile_sourceOf (args : List String) (hargs : ∀ arg ∈ args, '"' ∉ arg.toList) :
    (∃ d, compile (sourceOf args) = .ok d ∧ compileArguments args = .ok d) ∨
    ∃ e e', compile (sourceOf args) = .error e ∧ compileArguments args = .error e' ∧ e.unplaced = e'.unplaced := by
  obtain ⟨ws, hws, hargs⟩ := splits_sourceOf hargs 0 0
  have hsource : compile (sourceOf args) = (read ws).map Filter.document := by
    rw [compile, ofSource, words, wordsFrom_eq_ok_iff.mpr hws]
    rfl
  have hread : (read ws).mapError ScriptError.unplaced = (read (argumentWords args)).mapError ScriptError.unplaced := by
    rw [← read_unplaced, hargs, ← read_unplaced, argumentWords]
  rw [hsource, compileArguments]
  cases hw : read ws with
  | error e =>
    cases ha : read (argumentWords args) with
    | error e' =>
      rw [hw, ha] at hread
      exact Or.inr ⟨e, e', rfl, rfl, Except.error.inj hread⟩
    | ok g =>
      rw [hw, ha] at hread
      cases hread
  | ok f =>
    rw [hw] at hread
    cases ha : read (argumentWords args) with
    | error e' =>
      rw [ha] at hread
      cases hread
    | ok g =>
      rw [ha] at hread
      cases hread
      exact Or.inl ⟨f.document, rfl, rfl⟩

/-- An argument with white space in it and an empty one stand in quotes on the line. -/
theorem compile_sourceOf_empty_argument :
    (∀ arg ∈ ["name", "a b", "or", ""], '"' ∉ arg.toList) ∧ sourceOf ["name", "a b", "or", ""] = "name \"a b\" or \"\"" ∧
    ((∃ d, compile "name \"a b\" or \"\"" = .ok d ∧ compileArguments ["name", "a b", "or", ""] = .ok d) ∨
      ∃ e e', compile "name \"a b\" or \"\"" = .error e ∧ compileArguments ["name", "a b", "or", ""] = .error e' ∧
        e.unplaced = e'.unplaced) := by
  have hargs : ∀ arg ∈ ["name", "a b", "or", ""], '"' ∉ arg.toList := by simp
  have hsource : sourceOf ["name", "a b", "or", ""] = "name \"a b\" or \"\"" := by decide
  refine ⟨hargs, hsource, ?_⟩
  rw [← hsource]
  exact compile_sourceOf ["name", "a b", "or", ""] hargs

end

end Script

end TestSelection
