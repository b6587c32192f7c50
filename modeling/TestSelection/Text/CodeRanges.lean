/-! Sets of characters, given by ranges of code points. Membership in an increasing list of ranges is
    decided by the first range that does not end before the code point (`contains_iff`). -/

namespace TestSelection.Text

/-- Inclusive ranges of code points, each one after the one before it. -/
abbrev CodeRanges := List (Nat × Nat)

namespace CodeRanges

/-- Whether `n` lies in one of the ranges; ranges that end before `n` are passed over. -/
def contains : CodeRanges → Nat → Bool
  | [], _ => false
  | (lo, hi) :: rs, n => if n ≤ hi then decide (lo ≤ n) else contains rs n

/-- Each range ends before the next one starts. -/
def Increasing : CodeRanges → Prop
  | [] => True
  | (_, hi) :: rs => (∀ r ∈ rs, hi < r.1) ∧ Increasing rs

theorem contains_iff {n : Nat} :
    ∀ {rs : CodeRanges}, rs.Increasing → (rs.contains n = true ↔ ∃ r ∈ rs, r.1 ≤ n ∧ n ≤ r.2)
  | [], _ => by simp [contains]
  | (lo, hi) :: rs, h => by
    by_cases hn : n ≤ hi
    · have hrest : ∀ a b, (a, b) ∈ rs → a ≤ n → ¬n ≤ b := fun a b hr ha =>
        absurd (h.1 (a, b) hr) (by simp only; omega)
      simp only [contains, hn, if_true, decide_eq_true_eq, List.mem_cons]
      constructor
      · exact fun hlo => ⟨(lo, hi), Or.inl rfl, hlo, hn⟩
      · rintro ⟨⟨a, b⟩, hr | hr, ha, hb⟩
        · cases hr
          exact ha
        · exact absurd hb (hrest a b hr ha)
    · simp only [contains, hn, if_false, contains_iff h.2, List.mem_cons]
      constructor
      · rintro ⟨r, hr, hb⟩
        exact ⟨r, Or.inr hr, hb⟩
      · rintro ⟨r, rfl | hr, ha, hb⟩
        · exact absurd hb hn
        · exact ⟨r, hr, ha, hb⟩

end CodeRanges
end TestSelection.Text
