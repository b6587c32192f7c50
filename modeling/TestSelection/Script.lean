import TestSelection.Criterion.Checked
import TestSelection.Document
import TestSelection.Results
import TestSelection.Script.Word

/-! Scripts: filters on one line. A script is empty, or terms joined by `and` and `or`:

        script    := term (("and" | "or") term)*
        term      := ["not"] criterion
        criterion := KIND["~"] ARGUMENT | "prop"["~"] ARGUMENT ARGUMENT | "id" ARGUMENT

    The keyword of a criterion is the tag of its kind; `~` after it marks a regular expression. Keywords are
    words without quotes, and an argument is any word whatever. -/

namespace TestSelection

namespace Script

/-- What a script has to go on with. -/
inductive Wanted where
  | criterion | argument | connector
  deriving DecidableEq, Repr

def Wanted.describe : Wanted → String
  | criterion => "a criterion keyword"
  | argument => "an argument"
  | connector => "`and` or `or`"

end Script

inductive ScriptError where
  | unexpectedEnd (wanted : Script.Wanted)
  | unexpected (word : String) (offset : Nat) (wanted : Script.Wanted)
  | unterminatedQuote (offset : Nat)
  /-- A criterion is refused. -/
  | filter (e : FilterError)
  deriving DecidableEq

/-- The message shown to a user. -/
def ScriptError.message : ScriptError → String
  | unexpectedEnd wanted => "unexpected end of script, expected " ++ wanted.describe
  | unexpected word offset wanted =>
    "unexpected `" ++ word ++ "` at offset " ++ toString offset ++ ", expected " ++ wanted.describe
  | unterminatedQuote offset => "unterminated quoted argument starting at offset " ++ toString offset
  | filter e => e.message

namespace Script

/-! ### Words and keywords -/

/-- Refuses a word. -/
def Word.refuse {α : Type} (w : Word) (wanted : Wanted) : Except ScriptError α :=
  .error (.unexpected w.text w.offset wanted)

/-- A keyword without the mark on regular expressions, and whether it had one. -/
def splitMark (keyword : String) : String × Bool :=
  match keyword.toList.reverse with
  | '~' :: cs => (String.ofList cs.reverse, true)
  | _ => (keyword, false)

/-- The kind of criterion that a word starts, and whether it is a regular expression; ids are none. -/
def Word.criterion? (w : Word) : Option (Kind × Bool) :=
  if w.quoted then none
  else
    let (tag, isRegex) := splitMark w.text
    match Kind.ofTag? tag with
    | some kind => if kind.isStructural || (kind == .ids && isRegex) then none else some (kind, isRegex)
    | none => none

/-- The connector that a word stands for. -/
def Word.connector? (w : Word) : Option Connector :=
  if w.quoted then none
  else if w.text = "and" then some .and
  else if w.text = "or" then some .or
  else none

/-- Whether a word negates the criterion after it. -/
def Word.isNot (w : Word) : Bool := !w.quoted && w.text == "not"

/-! ### Grammar -/

/-- A criterion that may have been refused, and the words after it. -/
def made (c : Except FilterError Criterion) (ws : List Word) : Except ScriptError (Criterion × List Word) :=
  match c with
  | .ok c => .ok (c, ws)
  | .error e => .error (.filter e)

/-- The criterion of a kind whose arguments come next, and the words after them. -/
def criterionOf (kind : Kind) (isRegex : Bool) : List Word → Except ScriptError (Criterion × List Word)
  | [] => .error (.unexpectedEnd .argument)
  | text :: ws =>
    match kind, ws with
    | .property, [] => .error (.unexpectedEnd .argument)
    | .property, value :: ws => made (Criterion.ofProperty text.text value.text isRegex) ws
    | .ids, ws => made (Criterion.ofIds (Text.commaPieces text.text)) ws
    | kind, ws => made (Criterion.ofKind kind text.text isRegex) ws

/-- A criterion at the start of some words, and the words after it. -/
def criterion : List Word → Except ScriptError (Criterion × List Word)
  | [] => .error (.unexpectedEnd .criterion)
  | w :: ws =>
    match w.criterion? with
    | some (kind, isRegex) => criterionOf kind isRegex ws
    | none => w.refuse .criterion

/-- A term at the start of some words, and the words after it. -/
def term (ws : List Word) : Except ScriptError (Term × List Word) :=
  match ws with
  | [] => .error (.unexpectedEnd .criterion)
  | w :: rest =>
    if w.isNot then (criterion rest).map fun p => (⟨p.1, true⟩, p.2)
    else (criterion ws).map fun p => (⟨p.1, false⟩, p.2)

/-! ### What the grammar leaves over -/

theorem made_eq_ok_iff {e : Except FilterError Criterion} {ws rest : List Word} {c : Criterion} :
    made e ws = .ok (c, rest) ↔ e = .ok c ∧ rest = ws := by
  cases e with
  | error e => simp [made]
  | ok c' => simp [made, eq_comm]

theorem length_criterionOf_lt {kind : Kind} {isRegex : Bool} {ws rest : List Word} {c : Criterion}
    (h : criterionOf kind isRegex ws = .ok (c, rest)) : rest.length < ws.length := by
  unfold criterionOf at h
  split at h
  · cases h
  · split at h
    · cases h
    all_goals
      obtain ⟨-, rfl⟩ := made_eq_ok_iff.mp h
      simp only [List.length_cons]
      omega

theorem length_criterion_lt {ws rest : List Word} {c : Criterion} (h : criterion ws = .ok (c, rest)) :
    rest.length < ws.length := by
  unfold criterion at h
  split at h
  · cases h
  · split at h
    · have := length_criterionOf_lt h
      simp only [List.length_cons]
      omega
    · cases h

theorem length_term_lt {ws rest : List Word} {t : Term} (h : term ws = .ok (t, rest)) :
    rest.length < ws.length := by
  have map_ok : ∀ {us : List Word} {negated : Bool},
      ((criterion us).map fun p => ((⟨p.1, negated⟩, p.2) : Term × List Word)) = .ok (t, rest) →
        rest.length < us.length := by
    intro us negated h
    obtain ⟨p, hc, heq⟩ := map_eq_ok_iff.mp h
    cases heq
    exact length_criterion_lt hc
  unfold term at h
  split at h
  · cases h
  · split at h
    · have := map_ok h
      simp only [List.length_cons]
      omega
    · exact map_ok h

/-! ### Whole scripts -/

/-- Connectors with their terms, up to the end of the words. -/
def links (ws : List Word) : Except ScriptError (List (Connector × Term)) :=
  match ws with
  | [] => .ok []
  | w :: ws =>
    match w.connector? with
    | none => w.refuse .connector
    | some k =>
      match h : term ws with
      | .error e => .error e
      | .ok (t, rest) =>
        have := length_term_lt h
        (links rest).map ((k, t) :: ·)
  termination_by ws.length

theorem links_cons (w : Word) (ws : List Word) : links (w :: ws) = match w.connector? with
    | none => w.refuse .connector
    | some k => (term ws).bind fun p => (links p.2).map ((k, p.1) :: ·) := by
  rw [links]
  cases w.connector? with
  | none => rfl
  | some k =>
    dsimp only
    split <;> rename_i ht <;> rw [ht] <;> rfl

/-- The filter that some words spell. -/
def read (ws : List Word) : Except ScriptError Filter :=
  if ws = [] then .ok .everything
  else do
    let (first, ws) ← term ws
    return .clause ⟨first, ← links ws⟩

theorem read_of_ne_nil {ws : List Word} (h : ws ≠ []) :
    read ws = (term ws).bind fun p => (links p.2).map fun rest => .clause ⟨p.1, rest⟩ := by
  rw [read, if_neg h]
  rfl

/-- The words of a script. -/
def ofSource (source : String) : Except ScriptError (List Word) := (words source).mapError .unterminatedQuote

/-- The document of the filter that a script spells. -/
def compile (source : String) : Except ScriptError Document := do
  return (← read (← ofSource source)).document

/-- The document of the filter that a script spells, given as arguments that are one word each. -/
def compileArguments (args : List String) : Except ScriptError Document :=
  (read (argumentWords args)).map Filter.document

end Script

end TestSelection
