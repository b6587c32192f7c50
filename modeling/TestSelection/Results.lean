/-! Results that may be errors. Steps one after the other come to a value if each of them does, and else to the error of
    the first one that fails. -/

namespace TestSelection

section
variable {α β ε : Type} {x : Except ε α} {f : α → β} {g : α → Except ε β} {b : β} {e : ε}

theorem map_eq_ok_iff : x.map f = .ok b ↔ ∃ a, x = .ok a ∧ f a = b := by
  cases x <;> simp [Except.map]

theorem map_eq_error_iff : x.map f = .error e ↔ x = .error e := by
  cases x <;> simp [Except.map]

theorem bind_eq_ok_iff : x >>= g = .ok b ↔ ∃ a, x = .ok a ∧ g a = .ok b := by
  cases x <;> simp [bind, Except.bind]

theorem bind_eq_error_iff : x >>= g = .error e ↔ x = .error e ∨ ∃ a, x = .ok a ∧ g a = .error e := by
  cases x <;> simp [bind, Except.bind]

end

section
variable {α β ε : Type} {step : β → α → Except ε β} {a : α} {as as' : List α} {b b' : β}

theorem foldlM_cons_eq_ok_iff : (a :: as).foldlM step b = .ok b' ↔ ∃ m, step b a = .ok m ∧ as.foldlM step m = .ok b' := by
  rw [List.foldlM_cons, bind_eq_ok_iff]

theorem foldlM_append_eq_ok_iff :
    (as ++ as').foldlM step b = .ok b' ↔ ∃ m, as.foldlM step b = .ok m ∧ as'.foldlM step m = .ok b' := by
  rw [List.foldlM_append, bind_eq_ok_iff]

end

end TestSelection
