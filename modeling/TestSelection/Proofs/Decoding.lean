import Mathlib.Data.Nat.Digits.Defs
import TestSelection.Proofs.Entity

/-! Decoding in one pass. At each `&` the characters up to the next `;` are looked at: if they are an entity, all of them
    give way to the character that it stands for, and else the `&` is kept (`Decoded`). A text is decoded like this with
    the entities of markup and, beside them, numbers with a plus sign in front, which are no entities. So it comes out as
    the entities of markup alone say exactly if it has no such number (`decode_in_one_pass`). -/

namespace TestSelection.Markup

/-! ### Entities -/

/-- The digits in order, with letters of either case from ten on. -/
def digitRows : List (List Char) := ["0123456789abcdef".toList, "0123456789ABCDEF".toList]

def IsDigit (radix : Nat) (c : Char) (d : Nat) : Prop := d < radix ∧ ∃ row ∈ digitRows, row[d]? = some c

/-- Some digits, at least one, and the number that they write. -/
def WritesNumber (radix : Nat) (cs : List Char) (n : Nat) : Prop :=
  cs ≠ [] ∧ ∃ ds, List.Forall₂ (IsDigit radix) cs ds ∧ n = Nat.ofDigits radix ds.reverse

/-- The entities with names. -/
def namedEntities : List (List Char × Char) :=
  [("amp".toList, '&'), ("lt".toList, '<'), ("gt".toList, '>'), ("quot".toList, '"'), ("apos".toList, '\'')]

/-- What stands between `&` and `;` in an entity, and the character that it stands for. -/
inductive IsEntity : List Char → Char → Prop where
  | named {p : List Char × Char} (hp : p ∈ namedEntities) : IsEntity p.1 p.2
  | decimal {ds : List Char} {c : Char} (h : WritesNumber 10 ds c.toNat) : IsEntity ('#' :: ds) c
  | hexadecimal {x : Char} {ds : List Char} {c : Char} (hx : x = 'x' ∨ x = 'X') (h : WritesNumber 16 ds c.toNat) :
      IsEntity ('#' :: x :: ds) c

/-- A number as in an entity, but with a plus sign in front of its digits. -/
inductive IsSigned : List Char → Char → Prop where
  | decimal {ds : List Char} {c : Char} (h : WritesNumber 10 ds c.toNat) : IsSigned ('#' :: '+' :: ds) c
  | hexadecimal {x : Char} {ds : List Char} {c : Char} (hx : x = 'x' ∨ x = 'X') (h : WritesNumber 16 ds c.toNat) :
      IsSigned ('#' :: x :: '+' :: ds) c

/-! ### The pass -/

/-- A text, and what it is decoded to from left to right, if `E` says which characters between `&` and `;` stand for
    which. What is decoded is not looked at again. -/
inductive Decoded (E : List Char → Char → Prop) : List Char → List Char → Prop where
  | nil : Decoded E [] []
  | plain {c : Char} {cs ds : List Char} (hc : c ≠ '&') (h : Decoded E cs ds) : Decoded E (c :: cs) (c :: ds)
  | entity {name rest ds : List Char} {c : Char} (hname : ';' ∉ name) (hc : E name c) (h : Decoded E rest ds) :
      Decoded E ('&' :: (name ++ ';' :: rest)) (c :: ds)
  | ampersand {cs ds : List Char} (hnone : ∀ name rest c, cs = name ++ ';' :: rest → ';' ∉ name → ¬E name c)
      (h : Decoded E cs ds) : Decoded E ('&' :: cs) ('&' :: ds)

/-- Somewhere in a text there is a number with a plus sign between `&` and `;`. -/
def HasSigned (cs : List Char) : Prop := ∃ name c, IsSigned name c ∧ '&' :: (name ++ [';']) <:+: cs

section
variable {E : List Char → Char → Prop} {radix n d : Nat} {c : Char} {cs ds name rest : List Char}

/-! ### Numbers -/

theorem map_digitValue?_of_mem_rows : ∀ d < 16, ∀ row ∈ digitRows, row[d]?.map Text.digitValue? = some (some d) := by
  decide

/-- Characters that follow one another from `first` on are found at places that do. -/
theorem getElem?_of_run {row : List Char} {first last : Char} {m : Nat}
    (hrow : ∀ k ≤ last.toNat - first.toNat, row[k + m]? = some (Char.ofNat (k + first.toNat)))
    (hfirst : first ≤ c) (hlast : c ≤ last) : row[c.toNat - first.toNat + m]? = some c := by
  have hfirst : first.toNat ≤ c.toNat := hfirst
  have hlast : c.toNat ≤ last.toNat := hlast
  rw [hrow _ (by omega), Nat.sub_add_cancel hfirst, Char.ofNat_toNat]

theorem mem_rows_of_digitValue? (h : Text.digitValue? c = some d) (hd : d < 16) : ∃ row ∈ digitRows, row[d]? = some c := by
  rw [Text.digitValue?] at h
  split_ifs at h with hdigit hlower hupper <;> obtain rfl := Option.some.inj h
  · exact ⟨_, List.mem_cons_self, getElem?_of_run (m := 0) (by decide) hdigit.1 hdigit.2⟩
  · have hlast : c ≤ 'f' := show c.toNat ≤ 'f'.toNat by
      have : 'f'.toNat = 'a'.toNat + 5 := by decide
      omega
    exact ⟨_, List.mem_cons_self, getElem?_of_run (by decide) hlower.1 hlast⟩
  · have hlast : c ≤ 'F' := show c.toNat ≤ 'F'.toNat by
      have : 'F'.toNat = 'A'.toNat + 5 := by decide
      omega
    exact ⟨_, List.mem_cons_of_mem _ List.mem_cons_self, getElem?_of_run (by decide) hupper.1 hlast⟩

theorem digit?_eq_some_iff (hradix : radix ≤ 16) : Text.digit? radix c = some d ↔ IsDigit radix c d := by
  rw [Text.digit?, Option.filter_eq_some_iff, decide_eq_true_eq]
  constructor
  · rintro ⟨hvalue, hd⟩
    exact ⟨hd, mem_rows_of_digitValue? hvalue (by omega)⟩
  · rintro ⟨hd, row, hrow, hc⟩
    have hvalue := map_digitValue?_of_mem_rows d (by omega) row hrow
    rw [hc] at hvalue
    exact ⟨Option.some.inj hvalue, hd⟩

theorem mapM_eq_some_iff {α β : Type} {f : α → Option β} {as : List α} {bs : List β} :
    as.mapM f = some bs ↔ List.Forall₂ (fun a b => f a = some b) as bs := by
  constructor
  · intro h
    induction as generalizing bs with
    | nil =>
      cases h
      exact .nil
    | cons a as ih =>
      rw [List.mapM_cons] at h
      obtain ⟨b, hb, h⟩ := Option.bind_eq_some_iff.mp h
      obtain ⟨bs, hbs, h⟩ := Option.bind_eq_some_iff.mp h
      cases h
      exact .cons hb (ih hbs)
  · intro h
    induction h with
    | nil => rfl
    | cons hb _ ih =>
      rw [List.mapM_cons, hb, ih]
      rfl

theorem digits?_eq_some_iff (hradix : radix ≤ 16) : Text.digits? radix cs = some n ↔ WritesNumber radix cs n := by
  have hfold : ∀ ds : List Nat, ds.foldl (fun n d => radix * n + d) 0 = Nat.ofDigits radix ds.reverse := by
    intro ds
    rw [Nat.ofDigits_eq_foldr, List.foldr_reverse]
    simp [Nat.add_comm]
  rw [Text.digits?, WritesNumber]
  split_ifs with hnil
  · simp [hnil]
  · simp only [Option.map_eq_some_iff, mapM_eq_some_iff, digit?_eq_some_iff hradix, hfold, eq_comm (a := n)]
    simp [hnil]

/-- No digit ends an entity, starts one, or marks a number in one. -/
theorem IsDigit.not_mem_marks (h : IsDigit radix c d) : c ∉ "&;+xX".toList := by
  obtain ⟨-, row, hrow, hc⟩ := h
  have hrows : ∀ row ∈ digitRows, row.all (· ∉ "&;+xX".toList) := by decide
  simpa using List.all_eq_true.mp (hrows row hrow) c (List.mem_of_getElem? hc)

theorem WritesNumber.not_mem (h : WritesNumber radix cs n) (hc : c ∈ "&;+xX".toList) : c ∉ cs := by
  obtain ⟨-, ds, hds, -⟩ := h
  induction hds with
  | nil => simp
  | cons hd _ ih =>
    rw [List.mem_cons, not_or]
    refine ⟨?_, ih⟩
    rintro rfl
    exact hd.not_mem_marks hc

theorem number?_eq_some_iff (hradix : radix ≤ 16) : number? radix cs = some n ↔
    WritesNumber radix cs n ∨ ∃ ds, cs = '+' :: ds ∧ WritesNumber radix ds n := by
  unfold number?
  split
  · rename_i ds
    rw [digits?_eq_some_iff hradix]
    constructor
    · exact fun h => Or.inr ⟨ds, rfl, h⟩
    · rintro (h | ⟨ds', heq, h⟩)
      · exact absurd List.mem_cons_self (h.not_mem (by decide))
      · cases heq
        exact h
  · rename_i hplus
    rw [digits?_eq_some_iff hradix]
    constructor
    · exact Or.inl
    · rintro (h | ⟨ds, rfl, -⟩)
      · exact h
      · exact absurd rfl (hplus ds)

theorem scalar?_eq_some_iff : scalar? n = some c ↔ c.toNat = n := by
  unfold scalar?
  split_ifs with hvalid
  · constructor
    · intro h
      rw [← Option.some.inj h, Char.ofNat, dif_pos hvalid]
      rfl
    · rintro rfl
      rw [Char.ofNat_toNat]
  · constructor
    · nofun
    · rintro rfl
      exact absurd c.valid hvalid

/-! ### Entities -/

theorem entityNumber_eq_some_iff (hradix : radix ≤ 16) : number? radix cs >>= scalar? = some c ↔
    WritesNumber radix cs c.toNat ∨ ∃ ds, cs = '+' :: ds ∧ WritesNumber radix ds c.toNat := by
  rw [← number?_eq_some_iff hradix]
  simp [Option.bind_eq_some_iff, scalar?_eq_some_iff]

theorem entity?_hexadecimal {x : Char} (hx : x = 'x' ∨ x = 'X') : entity? ('#' :: x :: cs) = number? 16 cs >>= scalar? := by
  rcases hx with rfl | rfl <;> rfl

theorem entity?_decimal (h : ∀ x ∈ cs.head?, x ≠ 'x' ∧ x ≠ 'X') : entity? ('#' :: cs) = number? 10 cs >>= scalar? := by
  rw [entity?]
  · rintro ds rfl
    exact (h 'x' rfl).1 rfl
  · rintro ds rfl
    exact (h 'X' rfl).2 rfl

theorem entity?_of_isEntity (h : IsEntity name c) : entity? name = some c := by
  cases h with
  | named hp =>
    revert hp
    exact (by decide : ∀ p ∈ namedEntities, entity? p.1 = some p.2) _
  | decimal h =>
    rw [entity?_decimal, entityNumber_eq_some_iff (by decide)]
    · exact Or.inl h
    · intro x hx
      have hmem := List.mem_of_head? hx
      refine ⟨?_, ?_⟩ <;> rintro rfl <;> exact h.not_mem (by decide) hmem
  | hexadecimal hx h =>
    rw [entity?_hexadecimal hx, entityNumber_eq_some_iff (by decide)]
    exact Or.inl h

theorem entity?_of_isSigned (h : IsSigned name c) : entity? name = some c := by
  cases h with
  | decimal h =>
    rw [entity?_decimal, entityNumber_eq_some_iff (by decide)]
    · exact Or.inr ⟨_, rfl, h⟩
    · rintro x ⟨⟩
      decide
  | hexadecimal hx h =>
    rw [entity?_hexadecimal hx, entityNumber_eq_some_iff (by decide)]
    exact Or.inr ⟨_, rfl, h⟩

theorem entity?_eq_some_iff : entity? name = some c ↔ IsEntity name c ∨ IsSigned name c := by
  constructor
  · intro h
    unfold entity? at h
    split at h
    case h_6 cs =>
      rcases (entityNumber_eq_some_iff (by decide)).mp h with hds | ⟨ds, rfl, hds⟩
      · exact Or.inl (.hexadecimal (Or.inl rfl) hds)
      · exact Or.inr (.hexadecimal (Or.inl rfl) hds)
    case h_7 cs =>
      rcases (entityNumber_eq_some_iff (by decide)).mp h with hds | ⟨ds, rfl, hds⟩
      · exact Or.inl (.hexadecimal (Or.inr rfl) hds)
      · exact Or.inr (.hexadecimal (Or.inr rfl) hds)
    case h_8 cs _ _ =>
      rcases (entityNumber_eq_some_iff (by decide)).mp h with hds | ⟨ds, rfl, hds⟩
      · exact Or.inl (.decimal hds)
      · exact Or.inr (.decimal hds)
    case h_9 => cases h
    all_goals
      cases h
      exact Or.inl (.named (p := (_, _)) (by decide))
  · rintro (h | h)
    · exact entity?_of_isEntity h
    · exact entity?_of_isSigned h

/-! ### The pass -/

theorem reference?_eq_some_iff : reference? cs = some (c, rest) ↔
    ∃ name, cs = name ++ ';' :: rest ∧ ';' ∉ name ∧ entity? name = some c := by
  constructor
  · intro h
    by_cases hmem : ';' ∈ cs
    · obtain ⟨name, after, rfl, hname⟩ := List.eq_append_cons_of_mem hmem
      rw [reference?_append hname] at h
      obtain ⟨d, hd, heq⟩ := Option.map_eq_some_iff.mp h
      cases heq
      exact ⟨name, rfl, hname, hd⟩
    · rw [reference?_eq_none hmem] at h
      cases h
  · rintro ⟨name, rfl, hname, hc⟩
    rw [reference?_append hname, hc]
    rfl

theorem reference?_eq_none_iff : reference? cs = none ↔
    ∀ name rest c, cs = name ++ ';' :: rest → ';' ∉ name → entity? name ≠ some c := by
  simp only [Option.eq_none_iff_forall_ne_some, Prod.forall, ne_eq, reference?_eq_some_iff, not_exists, not_and]
  exact ⟨fun h name rest c hcs hname => h c rest name hcs hname, fun h c rest name hcs hname => h name rest c hcs hname⟩

/-- The entities that are read, those with a plus sign among them. -/
def IsRead (name : List Char) (c : Char) : Prop := IsEntity name c ∨ IsSigned name c

theorem decoded_decodeChars (cs : List Char) : Decoded IsRead cs (decodeChars cs) := by
  fun_induction decodeChars cs with
  | case1 => exact .nil
  | case2 cs c rest h _ ih =>
    obtain ⟨name, rfl, hname, hc⟩ := reference?_eq_some_iff.mp h
    exact .entity hname (entity?_eq_some_iff.mp hc) ih
  | case3 cs h ih =>
    refine .ampersand (fun name rest c hcs hname hc => ?_) ih
    exact reference?_eq_none_iff.mp h name rest c hcs hname (entity?_eq_some_iff.mpr hc)
  | case4 c cs hc ih => exact .plain hc ih

theorem Decoded.decodeChars_eq (h : Decoded IsRead cs ds) : decodeChars cs = ds := by
  induction h with
  | nil => rw [decodeChars]
  | plain hc _ ih => rw [decodeChars_cons_of_ne hc, ih]
  | entity hname hc _ ih =>
    rw [decodeChars_cons_of_reference (reference?_eq_some_iff.mpr ⟨_, rfl, hname, entity?_eq_some_iff.mpr hc⟩), ih]
  | ampersand hnone _ ih =>
    rw [decodeChars_cons_of_no_reference, ih]
    rw [reference?_eq_none_iff]
    exact fun name rest c hcs hname hc => hnone name rest c hcs hname (entity?_eq_some_iff.mp hc)

/-! ### Numbers with a sign -/

theorem IsEntity.not_mem (h : IsEntity name c) : '+' ∉ name ∧ '&' ∉ name := by
  cases h with
  | named hp =>
    revert hp
    exact (by decide : ∀ p ∈ namedEntities, '+' ∉ p.1 ∧ '&' ∉ p.1) _
  | decimal h => simp [h.not_mem (c := '+') (by decide), h.not_mem (c := '&') (by decide)]
  | hexadecimal hx h =>
    rcases hx with rfl | rfl <;> simp [h.not_mem (c := '+') (by decide), h.not_mem (c := '&') (by decide)]

theorem IsSigned.mem (h : IsSigned name c) : '+' ∈ name ∧ ';' ∉ name ∧ '&' ∉ name := by
  cases h with
  | decimal h => simp [h.not_mem (c := ';') (by decide), h.not_mem (c := '&') (by decide)]
  | hexadecimal hx h =>
    rcases hx with rfl | rfl <;> simp [h.not_mem (c := ';') (by decide), h.not_mem (c := '&') (by decide)]

theorem HasSigned.cons (h : HasSigned cs) (c : Char) : HasSigned (c :: cs) := by
  obtain ⟨name, d, hsigned, hinfix⟩ := h
  exact ⟨name, d, hsigned, List.infix_cons hinfix⟩

theorem IsSigned.hasSigned (h : IsSigned name c) (rest : List Char) : HasSigned ('&' :: (name ++ ';' :: rest)) :=
  ⟨name, c, h, [], rest, by simp⟩

/-- A number with a sign starts right here, or it stands further on. -/
theorem HasSigned.of_cons (h : HasSigned (c :: cs)) :
    (c = '&' ∧ ∃ name rest d, IsSigned name d ∧ cs = name ++ ';' :: rest) ∨ HasSigned cs := by
  obtain ⟨name, d, hsigned, hinfix⟩ := h
  rcases List.infix_cons_iff.mp hinfix with hprefix | hinfix
  · obtain ⟨hamp, rest, hrest⟩ := List.cons_prefix_cons.mp hprefix
    exact Or.inl ⟨hamp.symm, name, rest, d, hsigned, by simp [← hrest]⟩
  · exact Or.inr ⟨name, d, hsigned, hinfix⟩

theorem HasSigned.of_append (h : HasSigned (cs ++ rest)) (hamp : '&' ∉ cs) : HasSigned rest := by
  induction cs with
  | nil => exact h
  | cons c cs ih =>
    rw [List.mem_cons, not_or] at hamp
    rcases HasSigned.of_cons h with ⟨hc, -⟩ | h
    · exact absurd hc.symm hamp.1
    · exact ih h hamp.2

theorem Decoded.of_not_hasSigned (h : Decoded IsRead cs ds) (hnot : ¬HasSigned cs) : Decoded IsEntity cs ds := by
  induction h with
  | nil => exact .nil
  | plain hc _ ih => exact .plain hc (ih fun h => hnot (h.cons _))
  | @entity name rest _ _ hname hc _ ih =>
    rcases hc with hc | hc
    · refine .entity hname hc (ih fun h => hnot ?_)
      obtain ⟨name', d, hsigned, hinfix⟩ := h
      exact ⟨name', d, hsigned, hinfix.trans ⟨'&' :: (name ++ [';']), [], by simp⟩⟩
    · exact absurd (hc.hasSigned rest) hnot
  | ampersand hnone _ ih =>
    exact .ampersand (fun name rest c hcs hname hc => hnone name rest c hcs hname (Or.inl hc))
      (ih fun h => hnot (h.cons _))

/-- What is between `&` and the first `;` is one thing only. -/
theorem eq_of_append_semicolon {name' rest' : List Char} (hname : ';' ∉ name) (hname' : ';' ∉ name')
    (h : name ++ ';' :: rest = name' ++ ';' :: rest') : name = name' := by
  rw [← (takeWhile_append_cons (all_ne hname) (c := ';') (by decide) rest).1, h,
    (takeWhile_append_cons (all_ne hname') (c := ';') (by decide) rest').1]

/-- Where the entities of markup alone are decoded, all of a number with a sign is kept, so more is left of the text. -/
theorem Decoded.length_decodeChars (h : Decoded IsEntity cs ds) :
    (decodeChars cs).length ≤ ds.length ∧ (HasSigned cs → (decodeChars cs).length < ds.length) := by
  induction h with
  | nil =>
    rw [decodeChars]
    refine ⟨Nat.le_refl _, ?_⟩
    rintro ⟨_, _, -, hinfix⟩
    simp at hinfix
  | plain hc _ ih =>
    rw [decodeChars_cons_of_ne hc, List.length_cons, List.length_cons]
    refine ⟨Nat.succ_le_succ ih.1, fun h => Nat.succ_lt_succ (ih.2 ?_)⟩
    exact h.of_cons.resolve_left fun h => hc h.1
  | @entity name rest _ c hname hc _ ih =>
    have hread : reference? (name ++ ';' :: rest) = some (c, rest) :=
      reference?_eq_some_iff.mpr ⟨name, rfl, hname, entity?_of_isEntity hc⟩
    rw [decodeChars_cons_of_reference hread, List.length_cons, List.length_cons]
    refine ⟨Nat.succ_le_succ ih.1, fun h => Nat.succ_lt_succ (ih.2 ?_)⟩
    rcases h.of_cons with ⟨-, name', rest', d, hsigned, heq⟩ | h
    · obtain ⟨hplus, hend, -⟩ := hsigned.mem
      rw [← eq_of_append_semicolon hname hend heq] at hplus
      exact absurd hplus hc.not_mem.1
    · have hamp : '&' ∉ name ++ [';'] := by simp [hc.not_mem.2]
      exact HasSigned.of_append (by simpa using h) hamp
  | @ampersand cs ds hnone _ ih =>
    cases href : reference? cs with
    | none =>
      rw [decodeChars_cons_of_no_reference href, List.length_cons, List.length_cons]
      refine ⟨Nat.succ_le_succ ih.1, fun h => Nat.succ_lt_succ (ih.2 ?_)⟩
      rcases h.of_cons with ⟨-, name, rest, d, hsigned, heq⟩ | h
      · exact absurd (entity?_of_isSigned hsigned) (reference?_eq_none_iff.mp href name rest d heq hsigned.mem.2.1)
      · exact h
    | some p =>
      obtain ⟨name, hcs, hname, hc⟩ := reference?_eq_some_iff.mp href
      rcases entity?_eq_some_iff.mp hc with hc | hsigned
      · exact absurd hc (hnone name p.2 p.1 hcs hname)
      · have hkept : (decodeChars cs).length = name.length + (decodeChars p.2).length + 1 := by
          rw [hcs, decodeChars_append_left hsigned.mem.2.2, decodeChars_cons_of_ne (by decide), List.length_append,
            List.length_cons, Nat.add_assoc]
        have hpos : 0 < name.length := List.length_pos_of_mem hsigned.mem.1
        rw [decodeChars_cons_of_reference href, List.length_cons, List.length_cons]
        omega

theorem toList_decode (s : String) : (decode s).toList = decodeChars s.toList := String.toList_ofList

/-- A text is decoded in one pass. It is decoded as the entities of markup say exactly if there are no numbers with a plus
    sign in it, which are read as well. -/
theorem decode_in_one_pass (s : String) : (∀ t : String, decode s = t ↔ Decoded IsRead s.toList t.toList) ∧
    (Decoded IsEntity s.toList (decode s).toList ↔ ¬HasSigned s.toList) := by
  have hpass : Decoded IsRead s.toList (decode s).toList := toList_decode s ▸ decoded_decodeChars s.toList
  refine ⟨fun t => ⟨?_, fun h => ?_⟩, fun h hsigned => ?_, hpass.of_not_hasSigned⟩
  · rintro rfl
    exact hpass
  · rw [decode, h.decodeChars_eq, String.ofList_toList]
  · have hlt := h.length_decodeChars.2 hsigned
    rw [toList_decode] at hlt
    exact Nat.lt_irrefl _ hlt

/-- A number with a plus sign is read as an entity, though it is none and would have to be kept. -/
theorem decode_signed_number : decode "&#+65;" = "A" ∧ Decoded IsEntity "&#+65;".toList "&#+65;".toList ∧
    ¬Decoded IsEntity "&#+65;".toList (decode "&#+65;").toList := by
  have hsigned : IsSigned ['#', '+', '6', '5'] 'A' := .decimal ((digits?_eq_some_iff (by decide)).mp rfl)
  have hread : Decoded IsRead ('&' :: (['#', '+', '6', '5'] ++ [';'])) ['A'] :=
    .entity (by decide) (Or.inr hsigned) .nil
  have hkept : Decoded IsEntity ['#', '+', '6', '5', ';'] ['#', '+', '6', '5', ';'] :=
    .plain (by decide) (.plain (by decide) (.plain (by decide) (.plain (by decide) (.plain (by decide) .nil))))
  refine ⟨?_, .ampersand (fun name rest c heq hname hc => ?_) hkept, fun h => ?_⟩
  · exact congrArg String.ofList hread.decodeChars_eq
  · have heq : ['#', '+', '6', '5'] ++ ';' :: [] = name ++ ';' :: rest := heq
    have hname := eq_of_append_semicolon (by decide) hname heq
    exact hc.not_mem.1 (hname ▸ hsigned.mem.1)
  · have hlt := h.length_decodeChars.2 (hsigned.hasSigned [])
    rw [toList_decode] at hlt
    exact Nat.lt_irrefl _ hlt

end

end TestSelection.Markup
