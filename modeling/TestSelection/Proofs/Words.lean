import Mathlib.Data.List.TakeDrop
import TestSelection.Proofs.Splitting

/-! Words between white space. A text has just one list of words (`Words.unique`), white space at its ends does not change them
    (`words_trim_iff`), and the first one is what `firstWord` finds. -/

namespace TestSelection.Text

/-- The words of a text, in order. -/
inductive Words : List Char → List String → Prop where
  | nil : Words [] []
  | blank {c : Char} {cs : List Char} {ws : List String} (hc : isBlank c = true) (h : Words cs ws) : Words (c :: cs) ws
  | word {text rest : List Char} {ws : List String} (hne : text ≠ []) (htext : text.all (fun c => !isBlank c) = true)
      (hrest : ∀ c ∈ rest.head?, isBlank c = true) (h : Words rest ws) : Words (text ++ rest) (String.ofList text :: ws)

section
variable {cs gap text rest : List Char} {c : Char} {w : String} {ws vs : List String} {s : String}

/-! ### The first word -/

theorem firstWord_blank (hc : isBlank c = true) : firstWord (c :: cs) = firstWord cs := by
  rw [firstWord, firstWord, List.dropWhile_cons_of_pos hc]

theorem firstWord_append (hne : text ≠ []) (htext : text.all (fun c => !isBlank c) = true)
    (hrest : ∀ c ∈ rest.head?, isBlank c = true) : firstWord (text ++ rest) = (text, rest) := by
  obtain ⟨htake, hdrop⟩ := Markup.takeWhile_append_of_head? htext fun c hc => by rw [hrest c hc]; rfl
  obtain ⟨c, cs, rfl⟩ := List.exists_cons_of_ne_nil hne
  rw [List.all_cons, Bool.and_eq_true, Bool.not_eq_true'] at htext
  have hskip : (c :: cs ++ rest).dropWhile isBlank = c :: cs ++ rest :=
    List.dropWhile_cons_of_neg ((Bool.not_eq_true _).mpr htext.1)
  rw [firstWord, hskip, List.span_eq_takeWhile_dropWhile, htake, hdrop]

theorem Words.firstWord_eq (h : Words cs ws) : (ws = [] ∧ firstWord cs = ([], [])) ∨
    ∃ w more rest, ws = w :: more ∧ firstWord cs = (w.toList, rest) ∧ Words rest more := by
  induction h with
  | nil => exact Or.inl ⟨rfl, rfl⟩
  | blank hc _ ih =>
    rw [firstWord_blank hc]
    exact ih
  | @word text rest ws hne htext hrest h _ =>
    refine Or.inr ⟨_, ws, rest, rfl, ?_, h⟩
    rw [String.toList_ofList, firstWord_append hne htext hrest]

theorem Words.ne_empty (h : Words cs ws) (hw : w ∈ ws) : w ≠ "" := by
  induction h with
  | nil => cases hw
  | blank _ _ ih => exact ih hw
  | word hne _ _ _ ih =>
    rcases List.mem_cons.mp hw with rfl | hw
    · exact fun hempty => hne (by simpa using congrArg String.toList hempty)
    · exact ih hw

theorem Words.firstWord_cons (h : Words cs (w :: ws)) : ∃ rest, firstWord cs = (w.toList, rest) ∧ Words rest ws := by
  rcases h.firstWord_eq with ⟨hnil, -⟩ | ⟨_, _, rest, hcons, hfirst⟩
  · cases hnil
  · cases hcons
    exact ⟨rest, hfirst⟩

theorem Words.firstWord_fst (h : Words cs ws) : String.ofList (firstWord cs).1 = ws.head?.getD "" := by
  rcases h.firstWord_eq with ⟨rfl, hfirst⟩ | ⟨w, more, rest, rfl, hfirst, -⟩
  · rw [hfirst]
    rfl
  · rw [hfirst, String.ofList_toList]
    rfl

theorem Words.unique (h : Words cs ws) (h' : Words cs vs) : ws = vs := by
  induction ws generalizing cs vs with
  | nil =>
    have hfirst := h.firstWord_fst
    rw [h'.firstWord_fst] at hfirst
    cases vs with
    | nil => rfl
    | cons v vs => exact absurd hfirst (h'.ne_empty List.mem_cons_self)
  | cons w ws ih =>
    have hfirst := h.firstWord_fst
    rw [h'.firstWord_fst] at hfirst
    cases vs with
    | nil => exact absurd hfirst.symm (h.ne_empty List.mem_cons_self)
    | cons v vs =>
      obtain rfl : v = w := hfirst
      obtain ⟨rest, hcs, hrest⟩ := h.firstWord_cons
      obtain ⟨rest', hcs', hrest'⟩ := h'.firstWord_cons
      rw [hcs, Prod.mk.injEq] at hcs'
      rw [ih hrest (hcs'.2 ▸ hrest')]

theorem exists_words (cs : List Char) : ∃ ws, Words cs ws := by
  match cs with
  | [] => exact ⟨[], .nil⟩
  | c :: cs =>
    by_cases hc : isBlank c = true
    · obtain ⟨ws, h⟩ := exists_words cs
      exact ⟨ws, .blank hc h⟩
    · have hfirst : (!isBlank c) = true := by simpa using hc
      have hlen := (List.dropWhile_sublist (fun c => !isBlank c) (l := cs)).length_le
      obtain ⟨ws, h⟩ := exists_words (cs.dropWhile fun c => !isBlank c)
      have htext : (c :: cs.takeWhile fun c => !isBlank c).all (fun c => !isBlank c) = true := by
        rw [List.all_cons, hfirst, List.all_takeWhile, Bool.and_self]
      have hrest : ∀ d ∈ (cs.dropWhile fun c => !isBlank c).head?, isBlank d = true := fun d hd => by
        simpa using Markup.head?_dropWhile _ cs d hd
      have hword := Words.word (List.cons_ne_nil _ _) htext hrest h
      rw [List.cons_append, List.takeWhile_append_dropWhile] at hword
      exact ⟨_, hword⟩
  termination_by cs.length
  decreasing_by
    · exact Nat.lt_succ_self _
    · exact Nat.lt_succ_of_le hlen

theorem words_of_solid (hne : s ≠ "") (hsolid : ∀ c ∈ s.toList, isBlank c = false) : Words s.toList [s] := by
  have hchars : s.toList.all (fun c => !isBlank c) = true :=
    List.all_eq_true.mpr fun c hc => congrArg not (hsolid c hc)
  have hend : ∀ c ∈ ([] : List Char).head?, isBlank c = true := by simp
  have hwords := Words.word (mt String.toList_eq_nil_iff.mp hne) hchars hend .nil
  rwa [List.append_nil, String.ofList_toList] at hwords

theorem Words.head_solid (h : Words cs (w :: ws)) : ∀ c ∈ w.toList, isBlank c = false := by
  generalize hall : w :: ws = all at h
  induction h with
  | nil => cases hall
  | blank _ _ ih => exact ih hall
  | word _ htext _ _ _ =>
    cases hall
    intro c hc
    rw [String.toList_ofList] at hc
    simpa using List.all_eq_true.mp htext c hc

/-! ### White space at the ends -/

theorem Words.blank_append (h : Words cs ws) (hgap : gap.all isBlank = true) : Words (gap ++ cs) ws := by
  induction gap with
  | nil => exact h
  | cons c gap ih =>
    rw [List.all_cons, Bool.and_eq_true] at hgap
    exact .blank hgap.1 (ih hgap.2)

theorem Words.append_blank (h : Words cs ws) (hgap : gap.all isBlank = true) : Words (cs ++ gap) ws := by
  induction h with
  | nil => simpa using Words.nil.blank_append hgap
  | blank hc _ ih => exact .blank hc ih
  | @word text rest ws hne htext hrest _ ih =>
    rw [List.append_assoc]
    refine .word hne htext (fun c hc => ?_) ih
    cases rest with
    | nil => exact List.all_eq_true.mp hgap c (List.mem_of_mem_head? hc)
    | cons d rest => exact hrest c hc

theorem words_of_blank (h : blank s = true) : Words s.toList [] := by
  simpa using Words.nil.blank_append h

/-- A text is what is left of it by trimming, with white space around it. -/
theorem exists_append_trimChars (cs : List Char) : ∃ front back, front.all isBlank = true ∧ back.all isBlank = true ∧
    cs = front ++ (trimChars cs ++ back) := by
  have hback := (List.takeWhile_append_dropWhile (p := isBlank) (l := (cs.dropWhile isBlank).reverse)).symm
  refine ⟨cs.takeWhile isBlank, ((cs.dropWhile isBlank).reverse.takeWhile isBlank).reverse, List.all_takeWhile, ?_, ?_⟩
  · rw [List.all_reverse]
    exact List.all_takeWhile
  · rw [trimChars, ← List.reverse_append, ← hback, List.reverse_reverse, List.takeWhile_append_dropWhile]

theorem words_trim_iff : Words (trim s).toList ws ↔ Words s.toList ws := by
  obtain ⟨front, back, hfront, hback, hs⟩ := exists_append_trimChars s.toList
  obtain ⟨vs, htrim⟩ := exists_words (trimChars s.toList)
  have hwhole : Words s.toList vs := by
    rw [hs]
    exact (htrim.append_blank hback).blank_append hfront
  rw [trim, String.toList_ofList]
  constructor
  · intro h
    rwa [h.unique htrim]
  · intro h
    rwa [h.unique hwhole]

theorem Words.text_ne_empty (h : Words s.toList (w :: ws)) : s ≠ "" := by
  rintro rfl
  cases h.unique .nil

theorem Words.trim_ne_empty (h : Words s.toList (w :: ws)) : trim s ≠ "" := (words_trim_iff.mpr h).text_ne_empty

theorem Words.trim_eq_empty (h : Words s.toList []) : trim s = "" := by
  have hall (cs : List Char) (h : Words cs []) : cs.all isBlank = true := by
    generalize hws : [] = ws at h
    induction h with
    | nil => rfl
    | blank hc _ ih => rw [List.all_cons, hc, ih hws, Bool.and_self]
    | word => cases hws
  exact trim_eq_empty_iff.mpr (hall s.toList h)

end

end TestSelection.Text
