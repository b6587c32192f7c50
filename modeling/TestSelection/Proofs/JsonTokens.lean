import TestSelection.Proofs.JsonStrings
import TestSelection.Proofs.Splitting

/-! JSON tokens as they are written. White space may stand between any of them (`Spaced`), and no scan runs over the end of
    a token: a number ends where a mark or white space comes (`IsUnsigned.unsignedNumber?_append`). Main statement: tokens
    of which no two literals are neighbours are found again in each text that writes them (`Spaced.tokens?_eq`). -/

namespace TestSelection.Json

/-! ### Numbers -/

/-- Some digits, at least one. -/
def IsDigits (ds : List Char) : Prop := ds ≠ [] ∧ ds.all Char.isDigit = true

/-- The digits before the point; none of several is a zero in front. -/
def IsWhole (ds : List Char) : Prop := IsDigits ds ∧ (ds.head? = some '0' → ds = ['0'])

inductive IsFraction : List Char → Prop where
  | none : IsFraction []
  | point {ds : List Char} (hds : IsDigits ds) : IsFraction ('.' :: ds)

inductive IsExponent : List Char → Prop where
  | none : IsExponent []
  | unsigned {e : Char} {ds : List Char} (he : e = 'e' ∨ e = 'E') (hds : IsDigits ds) : IsExponent (e :: ds)
  | signed {e sign : Char} {ds : List Char} (he : e = 'e' ∨ e = 'E') (hsign : sign = '+' ∨ sign = '-') (hds : IsDigits ds) :
      IsExponent (e :: sign :: ds)

inductive IsUnsigned : List Char → Prop where
  | mk {whole fraction exponent : List Char} (hwhole : IsWhole whole) (hfraction : IsFraction fraction)
      (hexponent : IsExponent exponent) : IsUnsigned (whole ++ (fraction ++ exponent))

inductive IsNumber : List Char → Prop where
  | positive {ws : List Char} (h : IsUnsigned ws) : IsNumber ws
  | negative {ws : List Char} (h : IsUnsigned ws) : IsNumber ('-' :: ws)

/-- What may follow a number: nothing that would go on with it. -/
def EndsNumber (rest : List Char) : Prop := ∀ c ∈ rest.head?, c.isDigit = false ∧ c ≠ '.' ∧ c ≠ 'e' ∧ c ≠ 'E'

section
variable {ds ws whole fraction exponent rest : List Char}

theorem digitRun?_append (hds : IsDigits ds) (hrest : ∀ c ∈ rest.head?, c.isDigit = false) :
    digitRun? (ds ++ rest) = some (ds, rest) := by
  obtain ⟨htake, hdrop⟩ := Markup.takeWhile_append_of_head? hds.2 hrest
  rw [digitRun?, htake, hdrop, if_neg hds.1]

theorem wholePart?_append (hds : IsWhole ds) (hrest : ∀ c ∈ rest.head?, c.isDigit = false) :
    wholePart? (ds ++ rest) = some (ds, rest) := by
  rw [wholePart?, digitRun?_append hds.1 hrest]
  split
  · rename_i hrun
    cases hrun
    cases hds.2 rfl
  · rfl

theorem IsDigits.head (hds : IsDigits ds) : ∃ c cs, ds = c :: cs ∧ c.isDigit = true := by
  obtain ⟨c, cs, rfl⟩ := List.exists_cons_of_ne_nil hds.1
  rw [IsDigits, List.all_cons, Bool.and_eq_true] at hds
  exact ⟨c, cs, rfl, hds.2.1⟩

theorem signedDigits?_append (hds : IsDigits ds) (hrest : EndsNumber rest) :
    signedDigits? (ds ++ rest) = some (ds, rest) := by
  have hrun := digitRun?_append hds fun c hc => (hrest c hc).1
  obtain ⟨c, cs, rfl, hc⟩ := hds.head
  rw [List.cons_append] at hrun ⊢
  rw [signedDigits?, hrun]
  · rintro _ ⟨⟩
    cases hc
  · rintro _ ⟨⟩
    cases hc

theorem exponentPart?_append (h : IsExponent exponent) (hrest : EndsNumber rest) :
    exponentPart? (exponent ++ rest) = some (exponent, rest) := by
  cases h with
  | none =>
    rw [List.nil_append, exponentPart?]
    · rintro cs rfl
      exact (hrest 'e' rfl).2.2.1 rfl
    · rintro cs rfl
      exact (hrest 'E' rfl).2.2.2 rfl
  | unsigned he hds =>
    rcases he with rfl | rfl <;>
    · rw [List.cons_append, exponentPart?, signedDigits?_append hds hrest]
      rfl
  | signed he hsign hds =>
    have hrun := digitRun?_append hds fun c hc => (hrest c hc).1
    rcases he with rfl | rfl <;> rcases hsign with rfl | rfl <;>
    · rw [List.cons_append, List.cons_append, exponentPart?, signedDigits?, hrun]
      rfl

theorem IsExponent.head?_append (h : IsExponent exponent) (hrest : EndsNumber rest) :
    ∀ c ∈ (exponent ++ rest).head?, c.isDigit = false ∧ c ≠ '.' := by
  cases h with
  | none => exact fun c hc => ⟨(hrest c hc).1, (hrest c hc).2.1⟩
  | unsigned he hds =>
    rintro c ⟨⟩
    rcases he with rfl | rfl <;> decide
  | signed he hsign hds =>
    rintro c ⟨⟩
    rcases he with rfl | rfl <;> decide

theorem fractionPart?_append (h : IsFraction fraction) (hrest : ∀ c ∈ rest.head?, c.isDigit = false ∧ c ≠ '.') :
    fractionPart? (fraction ++ rest) = some (fraction, rest) := by
  cases h with
  | none =>
    rw [List.nil_append, fractionPart?]
    rintro cs rfl
    exact (hrest '.' rfl).2 rfl
  | point hds =>
    rw [List.cons_append, fractionPart?, digitRun?_append hds fun c hc => (hrest c hc).1]
    rfl

theorem IsFraction.head?_append (h : IsFraction fraction) (hrest : ∀ c ∈ rest.head?, c.isDigit = false) :
    ∀ c ∈ (fraction ++ rest).head?, c.isDigit = false := by
  cases h with
  | none => exact hrest
  | point _ =>
    rintro c ⟨⟩
    decide

theorem IsUnsigned.unsignedNumber?_append (h : IsUnsigned ws) (hrest : EndsNumber rest) :
    unsignedNumber? (ws ++ rest) = some (ws, rest) := by
  obtain ⟨hwhole, hfraction, hexponent⟩ := h
  have hbehind := hexponent.head?_append hrest
  rw [List.append_assoc, List.append_assoc, unsignedNumber?,
    wholePart?_append hwhole (hfraction.head?_append fun c hc => (hbehind c hc).1)]
  dsimp only
  rw [fractionPart?_append hfraction hbehind]
  dsimp only
  rw [exponentPart?_append hexponent hrest, Option.map_some, List.append_assoc]

theorem IsUnsigned.head (h : IsUnsigned ws) : ∃ c cs, ws = c :: cs ∧ c.isDigit = true := by
  obtain ⟨hwhole, -, -⟩ := h
  obtain ⟨c, cs, rfl, hc⟩ := hwhole.1.head
  exact ⟨c, _, rfl, hc⟩

end

/-! ### Tokens -/

namespace Token

def chars : Token → List Char
  | openArray => ['[']
  | closeArray => [']']
  | openObject => ['{']
  | closeObject => ['}']
  | comma => [',']
  | colon => [':']
  | null => ['n', 'u', 'l', 'l']
  | bool true => ['t', 'r', 'u', 'e']
  | bool false => ['f', 'a', 'l', 's', 'e']
  | number written => written.toList
  | string written => '"' :: (written.toList ++ ['"'])

def isMark : Token → Bool
  | openArray | closeArray | openObject | closeObject | comma | colon => true
  | _ => false

/-- What numbers and strings are written as has to follow their grammars. -/
def WellFormed : Token → Prop
  | number written => IsNumber written.toList
  | string written => IsWritten written.toList
  | _ => True

end Token

/-- A text that writes some tokens, with white space wherever one likes. -/
inductive Spaced : List Token → List Char → Prop where
  | nil : Spaced [] []
  | space {ts : List Token} {c : Char} {cs : List Char} (hc : isSpace c = true) (h : Spaced ts cs) : Spaced ts (c :: cs)
  | token {t : Token} {ts : List Token} {cs : List Char} (ht : t.WellFormed) (h : Spaced ts cs) :
      Spaced (t :: ts) (t.chars ++ cs)

/-- Each of two neighbours is a mark, or the other one is. -/
def Apart (ts : List Token) : Prop := ts.IsChain fun t u => t.isMark = true ∨ u.isMark = true

section
variable {t : Token} {ts : List Token} {c : Char} {cs rest : List Char}

theorem token?_digit (hc : c.isDigit = true) :
    token? c cs = (unsignedNumber? (c :: cs)).map fun p => (.number (String.ofList p.1), p.2) := by
  unfold token?
  split
  case h_12 => rfl
  all_goals cases hc

theorem isSpace_iff : isSpace c = true ↔ c = ' ' ∨ c = '\t' ∨ c = '\n' ∨ c = '\r' := by
  simp [isSpace, or_assoc]

theorem isSpace_eq_false_of_isDigit (hc : c.isDigit = true) : isSpace c = false := by
  by_contra hspace
  rcases isSpace_iff.mp ((Bool.not_eq_false _).mp hspace) with rfl | rfl | rfl | rfl <;> cases hc

theorem Token.WellFormed.token?_append (h : t.WellFormed) (hrest : t.isMark = true ∨ EndsNumber rest) :
    ∃ c cs, t.chars = c :: cs ∧ isSpace c = false ∧ token? c (cs ++ rest) = some (t, rest) := by
  cases t with
  | number written =>
    have hends : EndsNumber rest := hrest.resolve_left nofun
    have hback : String.ofList written.toList = written := String.ofList_toList
    have hnumber : IsNumber written.toList := h
    rw [Token.chars]
    generalize written.toList = ws at hback hnumber
    subst hback
    cases hnumber with
    | positive hws =>
      have hscan := hws.unsignedNumber?_append hends
      obtain ⟨c, cs, rfl, hc⟩ := hws.head
      rw [List.cons_append] at hscan
      refine ⟨c, cs, rfl, isSpace_eq_false_of_isDigit hc, ?_⟩
      rw [token?_digit hc, hscan]
      rfl
    | @negative ws hws =>
      refine ⟨'-', ws, rfl, rfl, ?_⟩
      rw [token?, hws.unsignedNumber?_append hends]
      rfl
  | string written =>
    refine ⟨'"', written.toList ++ ['"'], rfl, rfl, ?_⟩
    rw [token?, List.append_assoc, List.singleton_append, stringRest?_append h, Option.map_some, String.ofList_toList]
  | bool b => cases b <;> exact ⟨_, _, rfl, rfl, rfl⟩
  | _ => exact ⟨_, _, rfl, rfl, rfl⟩

theorem tokens?_eq (cs : List Char) : tokens? cs =
    match cs.dropWhile isSpace with
    | [] => some []
    | c :: cs =>
      match token? c cs with
      | none => none
      | some (t, rest) => (tokens? rest).map (t :: ·) := by
  rw [tokens?]
  split
  · rename_i hdrop
    rw [hdrop]
  · rename_i hdrop
    split <;>
    · rename_i htoken
      simp only [hdrop, htoken]

theorem tokens?_nil : tokens? [] = some [] := by
  rw [tokens?_eq, List.dropWhile_nil]

theorem tokens?_space (hc : isSpace c = true) : tokens? (c :: cs) = tokens? cs := by
  rw [tokens?_eq, tokens?_eq cs, List.dropWhile_cons_of_pos hc]

theorem tokens?_token (hc : isSpace c = false) (ht : token? c cs = some (t, rest)) :
    tokens? (c :: cs) = (tokens? rest).map (t :: ·) := by
  rw [tokens?_eq, List.dropWhile_cons_of_neg ((Bool.not_eq_true _).mpr hc)]
  dsimp only
  rw [ht]

theorem Spaced.endsNumber (h : Spaced ts cs) (hts : ∀ t ∈ ts.head?, t.isMark = true) : EndsNumber cs := by
  cases h with
  | nil => nofun
  | @space _ c _ hc _ =>
    rintro _ ⟨⟩
    rcases isSpace_iff.mp hc with rfl | rfl | rfl | rfl <;> decide
  | @token t _ _ _ _ =>
    have hmark := hts t rfl
    cases t <;> cases hmark <;> rintro _ ⟨⟩ <;> decide

theorem Spaced.tokens?_eq (h : Spaced ts cs) (hapart : Apart ts) : tokens? cs = some ts := by
  induction h with
  | nil => exact tokens?_nil
  | space hc _ ih => rw [tokens?_space hc, ih hapart]
  | @token t ts cs ht h ih =>
    -- Only a number could go on, and what stands behind one is white space, a mark or nothing.
    have hbehind : t.isMark = true ∨ EndsNumber cs := by
      cases ts with
      | nil => exact Or.inr (h.endsNumber nofun)
      | cons u ts =>
        refine (List.isChain_cons_cons.mp hapart).1.imp_right fun hu => h.endsNumber ?_
        rintro _ ⟨⟩
        exact hu
    obtain ⟨c, cs', hchars, hc, htoken⟩ := ht.token?_append hbehind
    rw [hchars, List.cons_append, tokens?_token hc htoken, ih (List.IsChain.of_cons hapart)]
    rfl

end

end TestSelection.Json
