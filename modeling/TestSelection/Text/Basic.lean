import TestSelection.Text.CodeRanges

/-! Texts as sequences of characters: their length in UTF-8 bytes, in which offsets and spans are counted,
    the white space in them, and the numbers that digits write. White space is the Unicode property of that
    name, so it has the no-break spaces and the line separators, and it lacks the zero-width characters. -/

namespace TestSelection.Text

/-! ### Lengths -/

/-- The number of bytes that UTF-8 takes for some characters. -/
def width : List Char → Nat
  | [] => 0
  | c :: cs => c.utf8Size + width cs

@[simp] theorem width_nil : width [] = 0 := rfl

@[simp] theorem width_cons (c : Char) (cs : List Char) : width (c :: cs) = c.utf8Size + width cs := rfl

@[simp] theorem width_append (cs ds : List Char) : width (cs ++ ds) = width cs + width ds := by
  induction cs with
  | nil => simp
  | cons c cs ih => simp [ih, Nat.add_assoc]

theorem width_pos {cs : List Char} (h : cs ≠ []) : 0 < width cs := by
  cases cs with
  | nil => exact absurd rfl h
  | cons c cs =>
    have := c.utf8Size_pos
    simp only [width_cons]
    omega

/-! ### White space -/

/-- The code points with the Unicode property White_Space. -/
def blankRanges : CodeRanges :=
  [(0x9, 0xD), (0x20, 0x20), (0x85, 0x85), (0xA0, 0xA0), (0x1680, 0x1680), (0x2000, 0x200A),
   (0x2028, 0x2029), (0x202F, 0x202F), (0x205F, 0x205F), (0x3000, 0x3000)]

/-- Whether a character is white space. -/
def isBlank (c : Char) : Bool := blankRanges.contains c.toNat

/-- Whether a text holds nothing but white space. -/
def blank (s : String) : Bool := s.toList.all isBlank

/-- A text without the white space at its two ends. -/
def trimChars (cs : List Char) : List Char :=
  ((cs.dropWhile isBlank).reverse.dropWhile isBlank).reverse

/-- A text without the white space at its two ends. -/
def trim (s : String) : String := String.ofList (trimChars s.toList)

/-- The first run of characters that are not white space, and what follows it; the run is empty if
    there is none. -/
def firstWord (cs : List Char) : List Char × List Char :=
  (cs.dropWhile isBlank).span fun c => !isBlank c

/-- The pieces between the commas of a text, of which there is one more than of commas. -/
def commaPieces (s : String) : List String := (s.toList.splitOn ',').map String.ofList

/-- The pieces between the commas of a text, each trimmed, without the blank ones. -/
def filledPieces (s : String) : List String := ((commaPieces s).map trim).filter (· ≠ "")

/-- A text with at least one character that is not white space. -/
structure Filled where
  text : String
  filled : blank text = false
  deriving DecidableEq

/-- The text as a filled text, unless it is blank. -/
def Filled.of? (s : String) : Option Filled :=
  if h : blank s = false then some ⟨s, h⟩ else none

@[simp] theorem blank_append (s t : String) : blank (s ++ t) = (blank s && blank t) := by
  simp [blank, String.toList_append]

theorem trim_eq_empty_iff {s : String} : trim s = "" ↔ blank s = true := by
  have hall : ∀ cs : List Char, cs.dropWhile isBlank = [] ↔ cs.all isBlank = true := by
    intro cs
    induction cs with
    | nil => simp
    | cons c cs ih => cases h : isBlank c <;> simp [h, ih]
  have hempty : trim s = "" ↔ trimChars s.toList = [] := by
    rw [trim, ← String.toList_inj]
    simp
  rw [hempty, trimChars, List.reverse_eq_nil_iff, hall, List.all_reverse, ← hall, blank]
  constructor
  · intro h
    rw [← hall]
    cases hd : s.toList.dropWhile isBlank with
    | nil => rfl
    | cons c cs =>
      have hc : isBlank c = false := by
        have := List.head_dropWhile_not isBlank (l := s.toList) (by simp [hd])
        simpa [hd] using this
      simp [hd, hc] at h
  · intro h
    rw [← hall] at h
    simp [h]

/-! ### Digits -/

/-- The value of a digit or a letter; the letters of both cases stand for the digits from ten on. -/
def digitValue? (c : Char) : Option Nat :=
  if '0' ≤ c ∧ c ≤ '9' then some (c.toNat - '0'.toNat)
  else if 'a' ≤ c ∧ c ≤ 'z' then some (c.toNat - 'a'.toNat + 10)
  else if 'A' ≤ c ∧ c ≤ 'Z' then some (c.toNat - 'A'.toNat + 10)
  else none

/-- The value of a digit below the radix. -/
def digit? (radix : Nat) (c : Char) : Option Nat := (digitValue? c).filter (· < radix)

/-- The number that some digits write; there has to be at least one. -/
def digits? (radix : Nat) (cs : List Char) : Option Nat :=
  if cs = [] then none
  else (cs.mapM (digit? radix)).map fun ds => ds.foldl (fun n d => radix * n + d) 0

end TestSelection.Text
