import TestSelection.Proofs.Creation

/-! Texts in pieces. No piece has the separator in it, so pieces that are joined by it can be told apart again
    (`commaPieces_intercalate`). Of pieces that were kept since they are more than white space, something is left when
    they are read from their joined text (`filledPieces_intercalate_ne_nil`). -/

namespace TestSelection.Text

section
variable {α : Type} [BEq α] [LawfulBEq α] {a : α} {as piece : List α} {s t : String} {ss : List String}

theorem not_mem_of_mem_splitOn (h : piece ∈ as.splitOn a) : a ∉ piece := by
  induction as generalizing piece with
  | nil =>
    rw [List.splitOn_nil, List.mem_singleton] at h
    rw [h]
    exact List.not_mem_nil
  | cons b as ih =>
    rw [List.splitOn_cons_eq_if_modifyHead] at h
    split at h
    · rcases List.mem_cons.mp h with rfl | h
      · exact List.not_mem_nil
      · exact ih h
    · rename_i hb
      obtain ⟨first, rest, hsplit⟩ := List.exists_cons_of_ne_nil (List.splitOn_ne_nil a as)
      rw [hsplit] at h ih
      rcases List.mem_cons.mp h with rfl | h
      · intro hmem
        rcases List.mem_cons.mp hmem with rfl | hmem
        · exact hb (beq_self_eq_true a)
        · exact ih List.mem_cons_self hmem
      · exact ih (List.mem_cons_of_mem _ h)

theorem comma_not_mem_of_mem_commaPieces (h : t ∈ commaPieces s) : ',' ∉ t.toList := by
  obtain ⟨piece, hpiece, rfl⟩ := List.mem_map.mp h
  rw [String.toList_ofList]
  exact not_mem_of_mem_splitOn hpiece

theorem trimChars_subset (cs : List Char) : trimChars cs ⊆ cs := by
  intro c hc
  rw [trimChars, List.mem_reverse] at hc
  have hc := List.mem_reverse.mp ((List.dropWhile_sublist _).subset hc)
  exact (List.dropWhile_sublist _).subset hc

theorem comma_not_mem_of_mem_filledPieces (h : t ∈ filledPieces s) : ',' ∉ t.toList := by
  obtain ⟨piece, hpiece, rfl⟩ := List.mem_map.mp (List.mem_filter.mp h).1
  rw [trim, String.toList_ofList]
  exact fun hcomma => comma_not_mem_of_mem_commaPieces hpiece (trimChars_subset _ hcomma)

/-- Texts without commas are the pieces of the text that they are joined to. -/
theorem commaPieces_intercalate (h : ∀ s ∈ ss, ',' ∉ s.toList) (hne : ss ≠ []) : commaPieces (",".intercalate ss) = ss := by
  have htext : (",".intercalate ss).toList = [','].intercalate (ss.map String.toList) := String.toList_intercalate
  have hpieces : ∀ l ∈ ss.map String.toList, ',' ∉ l := by
    intro l hl
    obtain ⟨s, hs, rfl⟩ := List.mem_map.mp hl
    exact h s hs
  rw [commaPieces, htext, List.splitOn_intercalate ',' hpieces (by simpa using hne), List.map_map]
  simp [Function.comp_def, String.ofList_toList]

theorem filledPieces_intercalate_ne_nil (h : ∀ t ∈ ss, t ∈ filledPieces s) (hne : ss ≠ []) :
    filledPieces (",".intercalate ss) ≠ [] := by
  obtain ⟨t, ts, rfl⟩ := List.exists_cons_of_ne_nil hne
  have ht := h t List.mem_cons_self
  obtain ⟨htrim, hfilled⟩ := List.mem_filter.mp ht
  obtain ⟨piece, -, rfl⟩ := List.mem_map.mp htrim
  have hblank : trim (trim piece) ≠ "" := by
    rw [ne_eq, trim_eq_empty_iff, blank_trim, ← trim_eq_empty_iff]
    exact of_decide_eq_true hfilled
  have hmem : trim (trim piece) ∈ filledPieces (",".intercalate (trim piece :: ts)) := by
    rw [filledPieces, commaPieces_intercalate (fun t ht => comma_not_mem_of_mem_filledPieces (h t ht)) hne]
    exact List.mem_filter.mpr ⟨List.mem_map_of_mem List.mem_cons_self, decide_eq_true hblank⟩
  exact List.ne_nil_of_mem hmem

end

end TestSelection.Text
