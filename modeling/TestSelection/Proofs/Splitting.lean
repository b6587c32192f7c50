import TestSelection.Proofs.Lexemes
import TestSelection.Results
import TestSelection.Script.Word

/-! How texts are split into words. A text splits into words if it is made of white space, words in quotes and words
    without quotes, one after the other, and each word without quotes goes on as far as it can (`Splits`). Scripts
    are split in just this way (`wordsFrom_eq_ok_iff`). -/

namespace TestSelection.Script
open Markup

/-- A text that starts at a byte offset, and the words that it is made of. -/
inductive Splits : Nat → List Char → List Word → Prop where
  | nil {offset : Nat} : Splits offset [] []
  | blank {offset : Nat} {c : Char} {cs : List Char} {ws : List Word} (hc : Text.isBlank c = true)
      (h : Splits (offset + c.utf8Size) cs ws) : Splits offset (c :: cs) ws
  | quoted {offset : Nat} {text rest : List Char} {ws : List Word} (htext : '"' ∉ text)
      (h : Splits (offset + Text.width text + 2) rest ws) :
      Splits offset ('"' :: (text ++ '"' :: rest)) (⟨String.ofList text, offset, true⟩ :: ws)
  | bare {offset : Nat} {text rest : List Char} {ws : List Word} (hne : text ≠ []) (htext : text.all isWordChar = true)
      (hrest : ∀ c ∈ rest.head?, isWordChar c = false) (h : Splits (offset + Text.width text) rest ws) :
      Splits offset (text ++ rest) (⟨String.ofList text, offset, false⟩ :: ws)

section
variable {offset : Nat} {c : Char} {cs text rest : List Char} {ws : List Word}

/-! ### One word -/

theorem isWordChar_iff : isWordChar c = true ↔ Text.isBlank c = false ∧ c ≠ '"' := by
  simp [isWordChar]

theorem isBlank_quote : Text.isBlank '"' = false := by decide

theorem wordsFrom_nil : wordsFrom offset [] = .ok [] := by
  rw [wordsFrom]

theorem wordsFrom_blank (hc : Text.isBlank c = true) :
    wordsFrom offset (c :: cs) = wordsFrom (offset + c.utf8Size) cs := by
  rw [wordsFrom, if_pos hc]

theorem wordsFrom_quoted (htext : '"' ∉ text) : wordsFrom offset ('"' :: (text ++ '"' :: rest)) =
    (wordsFrom (offset + Text.width text + 2) rest).map (⟨String.ofList text, offset, true⟩ :: ·) := by
  obtain ⟨htake, hdrop⟩ := takeWhile_append_cons (all_ne htext) (c := '"') (by decide) rest
  rw [wordsFrom, if_neg (by rw [isBlank_quote]; decide), if_pos rfl]
  dsimp only
  split
  · rename_i hnil
    rw [hdrop] at hnil
    cases hnil
  · rename_i hcons
    rw [hdrop] at hcons
    cases hcons
    rw [htake]

theorem wordsFrom_bare (hne : text ≠ []) (htext : text.all isWordChar = true)
    (hrest : ∀ c ∈ rest.head?, isWordChar c = false) : wordsFrom offset (text ++ rest) =
      (wordsFrom (offset + Text.width text) rest).map (⟨String.ofList text, offset, false⟩ :: ·) := by
  obtain ⟨c, cs, rfl⟩ := List.exists_cons_of_ne_nil hne
  rw [List.all_cons, Bool.and_eq_true] at htext
  obtain ⟨hblank, hquote⟩ := isWordChar_iff.mp htext.1
  obtain ⟨htake, hdrop⟩ := takeWhile_append_of_head? htext.2 hrest
  rw [List.cons_append, wordsFrom, if_neg (by rw [hblank]; decide), if_neg hquote]
  dsimp only
  rw [htake, hdrop]

/-! ### All words -/

theorem splits_of_wordsFrom (h : wordsFrom offset cs = .ok ws) : Splits offset cs ws := by
  fun_induction wordsFrom offset cs generalizing ws with
  | case1 =>
    cases h
    exact .nil
  | case2 offset c cs hc ih => exact .blank hc (ih h)
  | case3 => cases h
  | case4 offset cs text d rest hdrop _ _ =>
    rename_i ih
    obtain ⟨vs, hvs, rfl⟩ := map_eq_ok_iff.mp h
    obtain rfl : d = '"' := by simpa using head?_dropWhile (· ≠ '"') cs d (by rw [hdrop]; rfl)
    have hcs : cs = text ++ '"' :: rest := by rw [← hdrop, List.takeWhile_append_dropWhile]
    rw [hcs]
    exact .quoted (not_mem_takeWhile_ne '"' cs) (ih hvs)
  | case5 offset c cs hblank hquote text _ =>
    rename_i ih
    obtain ⟨vs, hvs, rfl⟩ := map_eq_ok_iff.mp h
    have hcs : c :: cs = text ++ cs.dropWhile isWordChar := by rw [List.cons_append, List.takeWhile_append_dropWhile]
    have htext : text.all isWordChar = true := by
      rw [List.all_cons, isWordChar_iff.mpr ⟨by simpa using hblank, hquote⟩, List.all_takeWhile, Bool.and_self]
    rw [hcs]
    exact .bare (List.cons_ne_nil _ _) htext (head?_dropWhile isWordChar cs) (ih hvs)

/-- A script is split in one way, into the words that it is made of. -/
theorem wordsFrom_eq_ok_iff : wordsFrom offset cs = .ok ws ↔ Splits offset cs ws := by
  refine ⟨splits_of_wordsFrom, fun h => ?_⟩
  induction h with
  | nil => exact wordsFrom_nil
  | blank hc _ ih => rw [wordsFrom_blank hc, ih]
  | quoted htext _ ih =>
    rw [wordsFrom_quoted htext, ih]
    rfl
  | bare hne htext hrest _ ih =>
    rw [wordsFrom_bare hne htext hrest, ih]
    rfl

end

end TestSelection.Script
