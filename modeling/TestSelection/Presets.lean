/-! Presets: scripts with names. A name has one script, and the names are kept in the order of their code
    points. -/

namespace TestSelection

structure Presets where
  entries : List (String × String) := []
  /-- Each name comes before those that follow it. -/
  increasing : entries.Pairwise (·.1 < ·.1) := by simp
  deriving DecidableEq

namespace Presets

/-- Puts a name with its script at its place among others, over an earlier script of that name. -/
def insertEntry (name script : String) : List (String × String) → List (String × String)
  | [] => [(name, script)]
  | e :: rest =>
    if name < e.1 then (name, script) :: e :: rest
    else if name = e.1 then (name, script) :: rest
    else e :: insertEntry name script rest

theorem mem_insertEntry {name script : String} {e : String × String} {es : List (String × String)}
    (h : e ∈ insertEntry name script es) : e = (name, script) ∨ e ∈ es := by
  induction es with
  | nil => exact Or.inl (List.mem_singleton.mp h)
  | cons d rest ih =>
    simp only [insertEntry] at h
    split at h
    · exact List.mem_cons.mp h
    · split at h
      · rcases List.mem_cons.mp h with h | h
        · exact Or.inl h
        · exact Or.inr (List.mem_cons_of_mem _ h)
      · rcases List.mem_cons.mp h with rfl | h
        · exact Or.inr List.mem_cons_self
        · exact (ih h).imp_right (List.mem_cons_of_mem _)

theorem increasing_insertEntry {name script : String} {es : List (String × String)}
    (h : es.Pairwise (·.1 < ·.1)) : (insertEntry name script es).Pairwise (·.1 < ·.1) := by
  induction es with
  | nil => exact List.pairwise_singleton _ _
  | cons d rest ih =>
    obtain ⟨hd, hrest⟩ := List.pairwise_cons.mp h
    simp only [insertEntry]
    split
    · rename_i hlt
      refine List.pairwise_cons.mpr ⟨fun e he => ?_, h⟩
      rcases List.mem_cons.mp he with rfl | he
      · exact hlt
      · exact String.lt_trans hlt (hd e he)
    · split
      · rename_i heq
        exact List.pairwise_cons.mpr ⟨fun e he => by simpa only [heq] using hd e he, hrest⟩
      · rename_i hlt hne
        refine List.pairwise_cons.mpr ⟨fun e he => ?_, ih hrest⟩
        rcases mem_insertEntry he with rfl | he
        · exact Std.lt_of_le_of_ne (String.not_lt.mp hlt) (Ne.symm hne)
        · exact hd e he

/-- Gives a name a script. -/
def insert (p : Presets) (name script : String) : Presets :=
  ⟨insertEntry name script p.entries, increasing_insertEntry p.increasing⟩

/-- The presets that a list names; the last script of a name counts. -/
def ofList (es : List (String × String)) : Presets := es.foldl (fun p e => p.insert e.1 e.2) {}

/-- The script of a name. -/
def get? (p : Presets) (name : String) : Option String := (p.entries.find? (·.1 == name)).map (·.2)

end Presets

end TestSelection
