import TestSelection.Text.Basic

/-! JSON strings as they are written between their quotes. `encode` writes a text, with the short escapes and
    `\u00…` for the other controls; `decode?` reads what is written. Code units that are half of a surrogate
    pair name no character unless the other half follows, so some written strings have no text. -/

namespace TestSelection.Json

/-! ### Writing -/

/-- One character of a written string. -/
def encodeChar (c : Char) : List Char :=
  if c = '"' then ['\\', '"']
  else if c = '\\' then ['\\', '\\']
  else if c = '\x08' then ['\\', 'b']
  else if c = '\x0c' then ['\\', 'f']
  else if c = '\n' then ['\\', 'n']
  else if c = '\r' then ['\\', 'r']
  else if c = '\t' then ['\\', 't']
  else if c.toNat < 0x20 then
    ['\\', 'u', '0', '0', Nat.digitChar (c.toNat / 16), Nat.digitChar (c.toNat % 16)]
  else [c]

/-- A text as it is written in JSON. -/
def encode (s : String) : String := String.ofList (s.toList.flatMap encodeChar)

/-! ### Reading -/

/-- The code unit written by the first four digits, and what follows them. -/
def codeUnit? : List Char → Option (Nat × List Char)
  | a :: b :: c :: d :: rest => (Text.digits? 16 [a, b, c, d]).map (·, rest)
  | _ => none

/-- Whether a code unit is the first half of a surrogate pair. -/
def isFirstHalf (unit : Nat) : Bool := 0xD800 ≤ unit && unit ≤ 0xDBFF

/-- Whether a code unit is the second half of a surrogate pair. -/
def isSecondHalf (unit : Nat) : Bool := 0xDC00 ≤ unit && unit ≤ 0xDFFF

/-- The second half of a pair, escaped at the start of a text, and what follows it. -/
def secondHalf? : List Char → Option (Nat × List Char)
  | '\\' :: 'u' :: rest => (codeUnit? rest).filter fun p => isSecondHalf p.1
  | _ => none

/-- The character that a surrogate pair stands for. -/
def ofPair (first second : Nat) : Char :=
  Char.ofNat (0x10000 + (first - 0xD800) * 0x400 + (second - 0xDC00))

/-- The character written by a code unit after `\u`, or by two of them if the first is the first half of a
    pair, and what follows. -/
def unicodeEscape? (cs : List Char) : Option (Char × List Char) :=
  match codeUnit? cs with
  | none => none
  | some (unit, rest) =>
    if isFirstHalf unit then (secondHalf? rest).map fun p => (ofPair unit p.1, p.2)
    else if isSecondHalf unit then none
    else some (Char.ofNat unit, rest)

/-- The character written by what follows a backslash, and what comes after. -/
def escape? : List Char → Option (Char × List Char)
  | '"' :: rest => some ('"', rest)
  | '\\' :: rest => some ('\\', rest)
  | '/' :: rest => some ('/', rest)
  | 'b' :: rest => some ('\x08', rest)
  | 'f' :: rest => some ('\x0c', rest)
  | 'n' :: rest => some ('\n', rest)
  | 'r' :: rest => some ('\r', rest)
  | 't' :: rest => some ('\t', rest)
  | 'u' :: rest => unicodeEscape? rest
  | _ => none

theorem length_codeUnit?_lt {cs rest : List Char} {n : Nat} (h : codeUnit? cs = some (n, rest)) :
    rest.length < cs.length := by
  match cs, h with
  | a :: b :: c :: d :: r, h =>
    obtain ⟨_, -, h⟩ := Option.map_eq_some_iff.mp h
    cases h
    simp
    omega

theorem length_secondHalf?_lt {cs rest : List Char} {n : Nat} (h : secondHalf? cs = some (n, rest)) :
    rest.length < cs.length := by
  unfold secondHalf? at h
  split at h
  · have := length_codeUnit?_lt (Option.filter_eq_some_iff.mp h).1
    simp only [List.length_cons]
    omega
  · cases h

theorem length_unicodeEscape?_lt {cs rest : List Char} {c : Char}
    (h : unicodeEscape? cs = some (c, rest)) : rest.length < cs.length := by
  unfold unicodeEscape? at h
  split at h
  · cases h
  · rename_i unit r hu
    have hr := length_codeUnit?_lt hu
    split at h
    · obtain ⟨⟨second, r'⟩, hp, h⟩ := Option.map_eq_some_iff.mp h
      have := length_secondHalf?_lt hp
      simp only [Prod.mk.injEq] at h
      obtain ⟨-, rfl⟩ := h
      omega
    · split at h
      · cases h
      · simp only [Option.some.injEq, Prod.mk.injEq] at h
        obtain ⟨-, rfl⟩ := h
        exact hr

theorem length_escape?_lt {cs rest : List Char} {c : Char} (h : escape? cs = some (c, rest)) :
    rest.length < cs.length := by
  unfold escape? at h
  split at h
  case h_9 =>
    have := length_unicodeEscape?_lt h
    simp only [List.length_cons]
    omega
  case h_10 => cases h
  all_goals
    cases h
    simp

/-- The characters of a written string. -/
def decodeChars? (cs : List Char) : Option (List Char) :=
  match cs with
  | [] => some []
  | c :: cs =>
    if c = '\\' then
      match h : escape? cs with
      | some (d, rest) =>
        have := length_escape?_lt h
        (decodeChars? rest).map (d :: ·)
      | none => none
    else (decodeChars? cs).map (c :: ·)
  termination_by cs.length

/-- The text of a written string. -/
def decode? (written : String) : Option String := (decodeChars? written.toList).map String.ofList

end TestSelection.Json
