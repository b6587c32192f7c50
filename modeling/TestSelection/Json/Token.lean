import TestSelection.Text.Basic

/-! The tokens of JSON texts. Strings and numbers are kept as they are written; white space separates tokens
    and belongs to none. -/

namespace TestSelection.Json

inductive Token where
  | openArray | closeArray | openObject | closeObject | comma | colon
  | null
  | bool (b : Bool)
  | number (written : String)
  | string (written : String)
  deriving DecidableEq, Repr

/-- White space in JSON texts. -/
def isSpace (c : Char) : Bool := c == ' ' || c == '\t' || c == '\n' || c == '\r'

/-! ### Strings -/

/-- Whether `\u` may come before a text, which has to start with four hexadecimal digits. -/
def startsWithUnit (cs : List Char) : Bool :=
  (cs.take 4).length == 4 && (cs.take 4).all fun c => (Text.digit? 16 c).isSome

/-- Whether a backslash may come before a text. -/
def startsEscape : List Char → Bool
  | 'u' :: cs => startsWithUnit cs
  | c :: _ => ['"', '\\', '/', 'b', 'f', 'n', 'r', 't'].contains c
  | [] => false

/-- A string read on from its first quote, as it is written up to the last one, and what follows. Escapes
    have to be among the known ones, and controls have to be escaped. -/
def stringRest? : List Char → Option (List Char × List Char)
  | [] => none
  | '"' :: cs => some ([], cs)
  | '\\' :: c :: cs =>
    if startsEscape (c :: cs) then (stringRest? cs).map fun p => ('\\' :: c :: p.1, p.2) else none
  | c :: cs => if c.toNat < 0x20 then none else (stringRest? cs).map fun p => (c :: p.1, p.2)

/-! ### Numbers -/

/-- Some digits at the start of a text, at least one, and what follows. -/
def digitRun? (cs : List Char) : Option (List Char × List Char) :=
  let ds := cs.takeWhile Char.isDigit
  if ds = [] then none else some (ds, cs.dropWhile Char.isDigit)

/-- The digits before the point: a zero on its own, or some that start with another digit. -/
def wholePart? (cs : List Char) : Option (List Char × List Char) :=
  match digitRun? cs with
  | some ('0' :: _ :: _, _) => none
  | p => p

/-- The point and the digits after it, which may be missing as a whole. -/
def fractionPart? : List Char → Option (List Char × List Char)
  | '.' :: cs => (digitRun? cs).map fun p => ('.' :: p.1, p.2)
  | cs => some ([], cs)

/-- The digits of an exponent, with a sign in front or without. -/
def signedDigits? : List Char → Option (List Char × List Char)
  | '+' :: cs => (digitRun? cs).map fun p => ('+' :: p.1, p.2)
  | '-' :: cs => (digitRun? cs).map fun p => ('-' :: p.1, p.2)
  | cs => digitRun? cs

/-- The exponent, which may be missing as a whole. -/
def exponentPart? : List Char → Option (List Char × List Char)
  | 'e' :: cs => (signedDigits? cs).map fun p => ('e' :: p.1, p.2)
  | 'E' :: cs => (signedDigits? cs).map fun p => ('E' :: p.1, p.2)
  | cs => some ([], cs)

/-- A number without its sign at the start of a text, and what follows. -/
def unsignedNumber? (cs : List Char) : Option (List Char × List Char) :=
  match wholePart? cs with
  | none => none
  | some (whole, cs) =>
    match fractionPart? cs with
    | none => none
    | some (fraction, cs) => (exponentPart? cs).map fun p => (whole ++ fraction ++ p.1, p.2)

/-! ### Texts -/

/-- The token that starts with a character, and what follows. -/
def token? (c : Char) (cs : List Char) : Option (Token × List Char) :=
  match c, cs with
  | '[', cs => some (.openArray, cs)
  | ']', cs => some (.closeArray, cs)
  | '{', cs => some (.openObject, cs)
  | '}', cs => some (.closeObject, cs)
  | ',', cs => some (.comma, cs)
  | ':', cs => some (.colon, cs)
  | 'n', 'u' :: 'l' :: 'l' :: cs => some (.null, cs)
  | 't', 'r' :: 'u' :: 'e' :: cs => some (.bool true, cs)
  | 'f', 'a' :: 'l' :: 's' :: 'e' :: cs => some (.bool false, cs)
  | '"', cs => (stringRest? cs).map fun p => (.string (String.ofList p.1), p.2)
  | '-', cs => (unsignedNumber? cs).map fun p => (.number (String.ofList ('-' :: p.1)), p.2)
  | c, cs => (unsignedNumber? (c :: cs)).map fun p => (.number (String.ofList p.1), p.2)

/-! ### What scans leave over -/

theorem append_of_digitRun? {cs ds rest : List Char} (h : digitRun? cs = some (ds, rest)) :
    ds ++ rest = cs ∧ ds ≠ [] := by
  simp only [digitRun?] at h
  split at h
  · cases h
  · rename_i hds
    cases h
    exact ⟨List.takeWhile_append_dropWhile, hds⟩

theorem append_of_wholePart? {cs ds rest : List Char} (h : wholePart? cs = some (ds, rest)) :
    ds ++ rest = cs ∧ ds ≠ [] := by
  unfold wholePart? at h
  split at h
  · cases h
  · exact append_of_digitRun? h

theorem append_of_fractionPart? {cs ds rest : List Char} (h : fractionPart? cs = some (ds, rest)) :
    ds ++ rest = cs := by
  unfold fractionPart? at h
  split at h
  · obtain ⟨p, hp, h⟩ := Option.map_eq_some_iff.mp h
    cases h
    simp [(append_of_digitRun? hp).1]
  · cases h
    rfl

theorem append_of_signedDigits? {cs ds rest : List Char} (h : signedDigits? cs = some (ds, rest)) :
    ds ++ rest = cs := by
  unfold signedDigits? at h
  split at h
  · obtain ⟨p, hp, h⟩ := Option.map_eq_some_iff.mp h
    cases h
    simp [(append_of_digitRun? hp).1]
  · obtain ⟨p, hp, h⟩ := Option.map_eq_some_iff.mp h
    cases h
    simp [(append_of_digitRun? hp).1]
  · exact (append_of_digitRun? h).1

theorem append_of_exponentPart? {cs ds rest : List Char} (h : exponentPart? cs = some (ds, rest)) :
    ds ++ rest = cs := by
  unfold exponentPart? at h
  split at h
  · obtain ⟨p, hp, h⟩ := Option.map_eq_some_iff.mp h
    cases h
    simp [append_of_signedDigits? hp]
  · obtain ⟨p, hp, h⟩ := Option.map_eq_some_iff.mp h
    cases h
    simp [append_of_signedDigits? hp]
  · cases h
    rfl

theorem append_of_unsignedNumber? {cs ds rest : List Char} (h : unsignedNumber? cs = some (ds, rest)) :
    ds ++ rest = cs ∧ ds ≠ [] := by
  unfold unsignedNumber? at h
  split at h
  · cases h
  · rename_i whole cs' hwhole
    obtain ⟨happend, hne⟩ := append_of_wholePart? hwhole
    split at h
    · cases h
    · rename_i fraction cs'' hfraction
      obtain ⟨p, hp, h⟩ := Option.map_eq_some_iff.mp h
      cases h
      simp [append_of_exponentPart? hp, append_of_fractionPart? hfraction, happend, hne]

theorem append_of_stringRest? {cs written rest : List Char} (h : stringRest? cs = some (written, rest)) :
    written ++ '"' :: rest = cs := by
  fun_induction stringRest? cs generalizing written with
  | case1 => cases h
  | case2 cs =>
    cases h
    rfl
  | case3 c cs _ ih =>
    obtain ⟨p, hp, h⟩ := Option.map_eq_some_iff.mp h
    cases h
    simp [ih hp]
  | case4 => cases h
  | case5 => cases h
  | case6 c cs _ _ _ ih =>
    obtain ⟨p, hp, h⟩ := Option.map_eq_some_iff.mp h
    cases h
    simp [ih hp]

/-- A token takes its first character at least. -/
theorem length_token?_le {c : Char} {cs rest : List Char} {t : Token} (h : token? c cs = some (t, rest)) :
    rest.length ≤ cs.length := by
  unfold token? at h
  split at h
  case h_10 =>
    obtain ⟨p, hp, h⟩ := Option.map_eq_some_iff.mp h
    cases h
    rw [← append_of_stringRest? hp]
    simp only [List.length_append, List.length_cons]
    omega
  case h_11 =>
    obtain ⟨p, hp, h⟩ := Option.map_eq_some_iff.mp h
    cases h
    rw [← (append_of_unsignedNumber? hp).1]
    simp
  case h_12 =>
    obtain ⟨p, hp, h⟩ := Option.map_eq_some_iff.mp h
    cases h
    obtain ⟨happend, hne⟩ := append_of_unsignedNumber? hp
    have hlen := congrArg List.length happend
    have := List.length_pos_iff.mpr hne
    simp only [List.length_append, List.length_cons] at hlen
    omega
  all_goals
    simp only [Option.some.injEq, Prod.mk.injEq] at h
    simp [← h.2]
    try omega

theorem length_token?_lt {cs cs' rest : List Char} {c : Char} {t : Token}
    (h : cs.dropWhile isSpace = c :: cs') (ht : token? c cs' = some (t, rest)) : rest.length < cs.length := by
  have htoken := length_token?_le ht
  have hspace := (List.dropWhile_sublist isSpace (l := cs)).length_le
  rw [h, List.length_cons] at hspace
  omega

/-! ### Whole texts -/

/-- The tokens of a text, if it is made of tokens. -/
def tokens? (cs : List Char) : Option (List Token) :=
  match h : cs.dropWhile isSpace with
  | [] => some []
  | c :: cs' =>
    match ht : token? c cs' with
    | none => none
    | some (t, rest) =>
      have := length_token?_lt h ht
      (tokens? rest).map (t :: ·)
  termination_by cs.length

end TestSelection.Json
