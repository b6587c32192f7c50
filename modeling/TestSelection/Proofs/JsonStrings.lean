import Mathlib.Data.List.Basic
import TestSelection.Json.Token
import TestSelection.Json.Written

/-! JSON strings between their quotes. `IsWritten` says what may stand there, and `Spells` what text it names, if it names
    one: a lone half of a surrogate pair may be written, but it is no part of a text. Strings are scanned by the first
    (`stringRest?_append`) and decoded by the second (`decode?_of_spells`); texts are encoded so that they can be read back
    (`decode?_encode`). -/

namespace TestSelection.Json

/-- A character that stands for itself in a string. -/
def IsPlain (c : Char) : Prop := c ≠ '"' ∧ c ≠ '\\' ∧ 0x20 ≤ c.toNat

/-- The characters with short escapes, each behind the character that stands for it. -/
def shortEscapes : List (Char × Char) :=
  [('"', '"'), ('\\', '\\'), ('/', '/'), ('b', '\x08'), ('f', '\x0c'), ('n', '\n'), ('r', '\r'), ('t', '\t')]

/-- Four hexadecimal digits for a code unit. -/
def WritesUnit (ds : List Char) (unit : Nat) : Prop := ds.length = 4 ∧ Text.digits? 16 ds = some unit

/-- What may be written between quotes. -/
inductive IsWritten : List Char → Prop where
  | nil : IsWritten []
  | plain {c : Char} {ws : List Char} (hc : IsPlain c) (h : IsWritten ws) : IsWritten (c :: ws)
  | short {p : Char × Char} {ws : List Char} (hp : p ∈ shortEscapes) (h : IsWritten ws) : IsWritten ('\\' :: p.1 :: ws)
  | unit {ds ws : List Char} {unit : Nat} (hds : WritesUnit ds unit) (h : IsWritten ws) :
      IsWritten ('\\' :: 'u' :: (ds ++ ws))

/-- What is written between quotes, and the text that it names. -/
inductive Spells : List Char → List Char → Prop where
  | nil : Spells [] []
  | plain {c : Char} {ws cs : List Char} (hc : IsPlain c) (h : Spells ws cs) : Spells (c :: ws) (c :: cs)
  | short {p : Char × Char} {ws cs : List Char} (hp : p ∈ shortEscapes) (h : Spells ws cs) :
      Spells ('\\' :: p.1 :: ws) (p.2 :: cs)
  | unit {ds ws cs : List Char} {unit : Nat} (hds : WritesUnit ds unit) (hfirst : isFirstHalf unit = false)
      (hsecond : isSecondHalf unit = false) (h : Spells ws cs) :
      Spells ('\\' :: 'u' :: (ds ++ ws)) (Char.ofNat unit :: cs)
  | pair {ds es ws cs : List Char} {first second : Nat} (hds : WritesUnit ds first) (hfirst : isFirstHalf first = true)
      (hes : WritesUnit es second) (hsecond : isSecondHalf second = true) (h : Spells ws cs) :
      Spells ('\\' :: 'u' :: (ds ++ '\\' :: 'u' :: (es ++ ws))) (ofPair first second :: cs)

section
variable {c : Char} {ds ws cs rest : List Char} {unit : Nat} {s : String}

theorem Spells.isWritten (h : Spells ws cs) : IsWritten ws := by
  induction h with
  | nil => exact .nil
  | plain hc _ ih => exact .plain hc ih
  | short hp _ ih => exact .short hp ih
  | unit hds _ _ _ ih => exact .unit hds ih
  | pair hds _ hes _ _ ih => exact .unit hds (.unit hes ih)

/-! ### Code units -/

theorem isSome_digit?_of_digits? (h : Text.digits? 16 ds = some unit) : ∀ c ∈ ds, (Text.digit? 16 c).isSome = true := by
  unfold Text.digits? at h
  split at h
  · cases h
  · obtain ⟨values, hvalues, -⟩ := Option.map_eq_some_iff.mp h
    clear h
    induction ds generalizing values with
    | nil => simp
    | cons c ds ih =>
      rw [List.mapM_cons] at hvalues
      obtain ⟨value, hvalue, hvalues⟩ := Option.bind_eq_some_iff.mp hvalues
      obtain ⟨values, hds, -⟩ := Option.bind_eq_some_iff.mp hvalues
      refine List.forall_mem_cons.mpr ⟨by rw [hvalue]; rfl, ?_⟩
      by_cases hnil : ds = []
      · simp [hnil]
      · exact ih hnil _ hds

theorem isPlain_of_digit (h : (Text.digit? 16 c).isSome = true) : IsPlain c := by
  have hranges : ('0' ≤ c ∧ c ≤ '9') ∨ ('a' ≤ c ∧ c ≤ 'z') ∨ ('A' ≤ c ∧ c ≤ 'Z') := by
    by_contra hnone
    obtain ⟨hdigit, hlower, hupper⟩ : ¬('0' ≤ c ∧ c ≤ '9') ∧ ¬('a' ≤ c ∧ c ≤ 'z') ∧ ¬('A' ≤ c ∧ c ≤ 'Z') := by
      simpa only [not_or] using hnone
    rw [Text.digit?, Text.digitValue?, if_neg hdigit, if_neg hlower, if_neg hupper] at h
    cases h
  simp only [Char.le_def, UInt32.le_iff_toNat_le] at hranges
  refine ⟨?_, ?_, ?_⟩
  · rintro rfl
    revert hranges
    decide
  · rintro rfl
    revert hranges
    decide
  · simp only [Char.toNat]
    rcases hranges with ⟨h, -⟩ | ⟨h, -⟩ | ⟨h, -⟩ <;> exact Nat.le_trans (by decide) h

theorem WritesUnit.codeUnit? (h : WritesUnit ds unit) (rest : List Char) : codeUnit? (ds ++ rest) = some (unit, rest) := by
  obtain ⟨hlen, hdigits⟩ := h
  match ds, hlen with
  | [_, _, _, _], _ =>
    rw [List.cons_append, List.cons_append, List.cons_append, List.cons_append, List.nil_append, Json.codeUnit?, hdigits]
    rfl

theorem WritesUnit.startsWithUnit (h : WritesUnit ds unit) (rest : List Char) : startsWithUnit (ds ++ rest) = true := by
  have htake : (ds ++ rest).take 4 = ds := by rw [← h.1, List.take_left]
  rw [Json.startsWithUnit, htake, h.1, Bool.and_eq_true, List.all_eq_true]
  exact ⟨rfl, isSome_digit?_of_digits? h.2⟩

/-! ### Scanning -/

theorem stringRest?_plain (hc : IsPlain c) : stringRest? (c :: cs) = (stringRest? cs).map fun p => (c :: p.1, p.2) := by
  obtain ⟨hquote, hback, hcontrol⟩ := hc
  rw [stringRest?]
  · rw [if_neg (Nat.not_lt.mpr hcontrol)]
  · exact hquote
  · exact fun _ _ h => absurd h hback

theorem stringRest?_append_plain (hds : ∀ c ∈ ds, IsPlain c) :
    stringRest? (ds ++ cs) = (stringRest? cs).map fun p => (ds ++ p.1, p.2) := by
  induction ds with
  | nil => simp
  | cons c ds ih =>
    obtain ⟨hc, hds⟩ := List.forall_mem_cons.mp hds
    rw [List.cons_append, stringRest?_plain hc, ih hds, Option.map_map]
    rfl

theorem stringRest?_append (h : IsWritten ws) (rest : List Char) : stringRest? (ws ++ '"' :: rest) = some (ws, rest) := by
  induction h with
  | nil => rw [List.nil_append, stringRest?]
  | plain hc _ ih =>
    rw [List.cons_append, stringRest?_plain hc, ih]
    rfl
  | @short p ws hp _ ih =>
    have hstarts : startsEscape (p.1 :: (ws ++ '"' :: rest)) = true := by
      revert p
      simp only [shortEscapes, List.forall_mem_cons]
      simp [startsEscape]
    rw [List.cons_append, List.cons_append, stringRest?, if_pos hstarts, ih]
    rfl
  | @unit ds ws unit hds _ ih =>
    -- The digits of a code unit are scanned as plain characters.
    have hplain : ∀ c ∈ ds, IsPlain c := fun c hc => isPlain_of_digit (isSome_digit?_of_digits? hds.2 c hc)
    rw [List.cons_append, List.cons_append, List.append_assoc, stringRest?, startsEscape,
      if_pos (hds.startsWithUnit _), stringRest?_append_plain hplain, ih]
    rfl

/-! ### Decoding -/

theorem escape?_short {p : Char × Char} (hp : p ∈ shortEscapes) : escape? (p.1 :: rest) = some (p.2, rest) := by
  revert p
  simp [shortEscapes, escape?]

theorem decodeChars?_escape (h : escape? cs = some (c, rest)) :
    decodeChars? ('\\' :: cs) = (decodeChars? rest).map (c :: ·) := by
  rw [decodeChars?, if_pos rfl]
  split
  · rename_i hescape
    rw [h] at hescape
    cases hescape
    rfl
  · rename_i hnone
    rw [h] at hnone
    cases hnone

theorem decodeChars?_of_spells (h : Spells ws cs) : decodeChars? ws = some cs := by
  induction h with
  | nil => rw [decodeChars?]
  | plain hc _ ih =>
    rw [decodeChars?, if_neg hc.2.1, ih]
    rfl
  | short hp _ ih =>
    rw [decodeChars?_escape (escape?_short hp), ih]
    rfl
  | @unit ds ws cs unit hds hfirst hsecond _ ih =>
    have hescape : escape? ('u' :: (ds ++ ws)) = some (Char.ofNat unit, ws) := by
      simp [escape?, unicodeEscape?, hds.codeUnit?, hfirst, hsecond]
    rw [decodeChars?_escape hescape, ih]
    rfl
  | @pair ds es ws cs first second hds hfirst hes hsecond _ ih =>
    have hescape : escape? ('u' :: (ds ++ '\\' :: 'u' :: (es ++ ws))) = some (ofPair first second, ws) := by
      simp [escape?, unicodeEscape?, secondHalf?, hds.codeUnit?, hes.codeUnit?, hfirst, hsecond]
    rw [decodeChars?_escape hescape, ih]
    rfl

theorem decode?_of_spells {written : String} (h : Spells written.toList s.toList) : decode? written = some s := by
  rw [decode?, decodeChars?_of_spells h, Option.map_some, String.ofList_toList]

/-! ### Encoding -/

theorem writesUnit_control : ∀ n < 0x20, WritesUnit ['0', '0', Nat.digitChar (n / 16), Nat.digitChar (n % 16)] n ∧
    isFirstHalf n = false ∧ isSecondHalf n = false := by
  unfold WritesUnit
  decide

theorem spells_encodeChar (c : Char) (h : Spells ws cs) : Spells (encodeChar c ++ ws) (c :: cs) := by
  have hshort : ∀ p ∈ shortEscapes, Spells ('\\' :: p.1 :: ws) (p.2 :: cs) := fun p hp => .short hp h
  simp only [shortEscapes, List.forall_mem_cons] at hshort
  obtain ⟨hquote, hback, -, hb, hf, hn, hr, ht, -⟩ := hshort
  unfold encodeChar
  split_ifs with h1 h2 h3 h4 h5 h6 h7 hcontrol
  · exact h1 ▸ hquote
  · exact h2 ▸ hback
  · exact h3 ▸ hb
  · exact h4 ▸ hf
  · exact h5 ▸ hn
  · exact h6 ▸ hr
  · exact h7 ▸ ht
  · obtain ⟨hunit, hfirst, hsecond⟩ := writesUnit_control c.toNat hcontrol
    have hspells := Spells.unit hunit hfirst hsecond h
    rwa [Char.ofNat_toNat] at hspells
  · exact .plain ⟨h1, h2, Nat.not_lt.mp hcontrol⟩ h

theorem spells_encode (s : String) : Spells (encode s).toList s.toList := by
  rw [encode, String.toList_ofList]
  induction s.toList with
  | nil => exact .nil
  | cons c cs ih => exact spells_encodeChar c ih

theorem decode?_encode (s : String) : decode? (encode s) = some s := decode?_of_spells (spells_encode s)

end

end TestSelection.Json
