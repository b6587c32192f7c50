import TestSelection.Sequence

/-! Copying the members of a sequence out, on words of 64 bits. `Copying.run` takes one step after the other, and a step
    has no outcome if a difference is below zero, if a sum is no word or if a place is not one of the destination. With
    lengths that are words none of this happens, the outcome is that of `Sequence.copyTo`, and only members that have
    room are written (`Sequence.copy_out`). -/

namespace TestSelection

/-- Some members stand in a destination from an offset on, and it has not changed elsewhere. -/
structure Copied {α : Type} (members destination : List α) (offset : Nat) (after : List α) : Prop where
  length_eq : after.length = destination.length
  copied : ∀ i < members.length, after[offset + i]? = members[i]?
  kept : ∀ place, place < offset ∨ offset + members.length ≤ place → after[place]? = destination[place]?

/-- What there is while members are copied. -/
structure Copying (α : Type) where
  source : Sequence α
  destination : List α

namespace Copying

/-- The difference of two words, unless it is below zero. -/
def sub? (a b : UInt64) : Option UInt64 := if a < b then none else some (a - b)

/-- The sum of two words, if it is one. -/
def add? (a b : UInt64) : Option UInt64 := if a.toNat + b.toNat < UInt64.size then some (a + b) else none

variable {α : Type}

/-- Writes one member at a place of the destination. -/
def write (c : Copying α) (place : UInt64) (a : α) : Option (Copying α) :=
  if place.toNat < c.destination.length then some { c with destination := c.destination.set place.toNat a } else none

/-- Writes some members at a place and those after it. -/
def writeAll : Copying α → UInt64 → List α → Option (Copying α)
  | c, _, [] => some c
  | c, place, a :: rest => do writeAll (← c.write place a) (← add? place 1) rest

/-- Copies the members of the source from an offset on. -/
def run (c : Copying α) (offset : UInt64) : Option (Copying α × Except FilterError Unit) :=
  let length := UInt64.ofNat c.destination.length
  let size := UInt64.ofNat c.source.size
  if length < offset then some (c, .error (.offsetPastEnd offset.toNat length.toNat))
  else do
    let free ← sub? length offset
    if free < size then return (c, .error (.noRoom free.toNat offset.toNat size.toNat))
    let stop ← add? offset size
    -- The places from the offset up to here have to be in the destination, and there have to be as many as members.
    if length < stop ∨ (← sub? stop offset) ≠ size then none
    return (← c.writeAll offset c.source.members, .ok ())

end Copying

section
variable {α : Type} {members destination after after' : List α} {offset : Nat} {a : α}

/-! ### What is copied -/

theorem Copied.nil : Copied [] destination offset destination := ⟨rfl, nofun, fun _ _ => rfl⟩

theorem Copied.cons (hroom : offset < destination.length)
    (h : Copied members (destination.set offset a) (offset + 1) after) : Copied (a :: members) destination offset after where
  length_eq := by simpa using h.length_eq
  copied
    | 0, _ => by simpa [hroom] using h.kept offset (.inl (Nat.lt_succ_self offset))
    | i + 1, hi => by simpa [Nat.add_assoc, Nat.add_comm 1] using h.copied i (Nat.lt_of_succ_lt_succ hi)
  kept place hplace := by
    simp only [List.length_cons] at hplace
    rw [h.kept place (by omega), List.getElem?_set_ne (by omega)]

theorem Copied.unique (h : Copied members destination offset after) (h' : Copied members destination offset after') :
    after = after' := by
  refine List.ext_getElem? fun place => ?_
  by_cases hplace : place < offset ∨ offset + members.length ≤ place
  · rw [h.kept place hplace, h'.kept place hplace]
  · obtain ⟨i, rfl⟩ := Nat.exists_eq_add_of_le (show offset ≤ place by omega)
    rw [h.copied i (by omega), h'.copied i (by omega)]

theorem copied_between (hroom : offset + members.length ≤ destination.length) :
    Copied members destination offset (destination.take offset ++ members ++ destination.drop (offset + members.length)) := by
  have hbefore : (destination.take offset).length = offset := List.length_take_of_le (by omega)
  have hfilled : (destination.take offset ++ members).length = offset + members.length := by simp [hbefore]
  refine ⟨?_, fun i hi => ?_, fun place hplace => ?_⟩
  · rw [List.length_append, hfilled, List.length_drop]
    omega
  · rw [List.getElem?_append_left (by omega), List.getElem?_append_right (by omega), hbefore, Nat.add_sub_cancel_left]
  · rcases hplace with hplace | hplace
    · rw [List.getElem?_append_left (by omega), List.getElem?_append_left (by omega), List.getElem?_take_of_lt hplace]
    · rw [List.getElem?_append_right (by omega), hfilled, List.getElem?_drop, Nat.add_sub_cancel' hplace]

end

namespace Copying
variable {α : Type} {c : Copying α} {m n place : Nat} {members : List α}

/-! ### Arithmetic on words -/

theorem sub?_ofNat (hm : m < UInt64.size) (h : n ≤ m) : sub? (.ofNat m) (.ofNat n) = some (.ofNat (m - n)) := by
  have hlt : ¬UInt64.ofNat m < UInt64.ofNat n := by
    rw [UInt64.ofNat_lt_iff_lt hm (Nat.lt_of_le_of_lt h hm)]
    omega
  rw [sub?, if_neg hlt, UInt64.ofNat_sub h]

theorem add?_ofNat (h : m + n < UInt64.size) : add? (.ofNat m) (.ofNat n) = some (.ofNat (m + n)) := by
  rw [add?, UInt64.toNat_ofNat_of_lt' (show m < UInt64.size by omega), UInt64.toNat_ofNat_of_lt' (show n < UInt64.size by omega),
    if_pos h, UInt64.ofNat_add]

/-! ### Writing -/

theorem write_eq (h : place < c.destination.length) (hlength : c.destination.length < UInt64.size) (a : α) :
    c.write (.ofNat place) a = some { c with destination := c.destination.set place a } := by
  rw [write, UInt64.toNat_ofNat_of_lt' (Nat.lt_trans h hlength), if_pos h]

/-- Members that have room are all written, and nothing else is. -/
theorem writeAll_copied (hlength : c.destination.length < UInt64.size) (hroom : place + members.length ≤ c.destination.length) :
    ∃ after, c.writeAll (.ofNat place) members = some { c with destination := after } ∧
      Copied members c.destination place after := by
  induction members generalizing c place with
  | nil => exact ⟨_, rfl, .nil⟩
  | cons a rest ih =>
    simp only [List.length_cons] at hroom
    obtain ⟨after, hafter, hcopied⟩ := @ih { c with destination := c.destination.set place a } (place + 1)
      (by simpa using hlength) (by simp; omega)
    refine ⟨after, ?_, hcopied.cons (by omega)⟩
    -- The place after the last member is still a word, since it is at most the length.
    have hnext : add? (.ofNat place) 1 = some (.ofNat (place + 1)) := add?_ofNat (n := 1) (by omega)
    simpa [writeAll, write_eq (show place < c.destination.length by omega) hlength, hnext] using hafter

/-! ### Copying step by step -/

section
variable (hsize : c.source.size < UInt64.size) (hlength : c.destination.length < UInt64.size) (hplace : place < UInt64.size)
include hlength hplace

theorem run_past (h : c.destination.length < place) :
    c.run (.ofNat place) = some (c, .error (.offsetPastEnd place c.destination.length)) := by
  simp [run, UInt64.ofNat_lt_iff_lt hlength hplace, h, UInt64.toNat_ofNat_of_lt' hplace,
    UInt64.toNat_ofNat_of_lt' hlength]

include hsize

theorem run_full (h : place ≤ c.destination.length) (hfull : c.destination.length - place < c.source.size) :
    c.run (.ofNat place) = some (c, .error (.noRoom (c.destination.length - place) place c.source.size)) := by
  have hfree : c.destination.length - place < UInt64.size := by omega
  simp [run, UInt64.ofNat_lt_iff_lt hlength hplace, Nat.not_lt.mpr h, sub?_ofNat hlength h,
    UInt64.ofNat_lt_iff_lt hfree hsize, hfull, UInt64.toNat_ofNat_of_lt' hplace, UInt64.toNat_ofNat_of_lt' hfree,
    UInt64.toNat_ofNat_of_lt' hsize]

theorem run_fits (h : place ≤ c.destination.length) (hroom : c.source.size ≤ c.destination.length - place) :
    ∃ after, c.run (.ofNat place) = some ({ c with destination := after }, .ok ()) ∧
      Copied c.source.members c.destination place after := by
  have hfree : c.destination.length - place < UInt64.size := by omega
  have hstop : place + c.source.size ≤ c.destination.length := by omega
  have hword : place + c.source.size < UInt64.size := by omega
  obtain ⟨after, hafter, hcopied⟩ := writeAll_copied hlength hstop
  refine ⟨after, ?_, hcopied⟩
  simp [-UInt64.ofNat_add, run, UInt64.ofNat_lt_iff_lt hlength hplace, Nat.not_lt.mpr h, sub?_ofNat hlength h,
    UInt64.ofNat_lt_iff_lt hfree hsize, Nat.not_lt.mpr hroom, add?_ofNat hword, UInt64.ofNat_lt_iff_lt hlength hword,
    Nat.not_lt.mpr hstop, sub?_ofNat hword (Nat.le_add_right place c.source.size), hafter]

end

end Copying

namespace Sequence
variable {α : Type}

/-! ### Copying at once -/

/-- The three ends of copying: behind the destination, without room in it, and done. -/
theorem copyTo_cases (s : Sequence α) (destination : List α) (offset : Nat) :
    (destination.length < offset ∧
      s.copyTo destination offset = .error (.offsetPastEnd offset destination.length)) ∨
    (offset ≤ destination.length ∧ destination.length - offset < s.size ∧
      s.copyTo destination offset = .error (.noRoom (destination.length - offset) offset s.size)) ∨
    (offset ≤ destination.length ∧ s.size ≤ destination.length - offset ∧
      ∃ after, s.copyTo destination offset = .ok after ∧ Copied s.members destination offset after) := by
  unfold copyTo
  by_cases hpast : destination.length < offset
  · exact .inl ⟨hpast, if_pos hpast⟩
  · have hoffset := Nat.le_of_not_lt hpast
    rw [if_neg hpast]
    by_cases hfull : destination.length - offset < s.size
    · exact .inr (.inl ⟨hoffset, hfull, if_pos hfull⟩)
    · have hroom := Nat.le_of_not_lt hfull
      rw [if_neg hfull]
      exact .inr (.inr ⟨hoffset, hroom, _, rfl, copied_between (show offset + s.size ≤ _ by omega)⟩)

/-- Copying succeeds exactly if the offset is in the destination and there is room for all members behind it. Then the
    members stand there and everything else is as before. Otherwise the error is about the offset if that is past the
    end, and about the destination if it is not. Done step by step on words, copying always comes to this, with the
    source as before, and after an error with the destination as before. -/
theorem copy_out (s : Sequence α) (destination : List α) (offset : UInt64) :
    ((∃ after, s.copyTo destination offset.toNat = .ok after) ↔
      offset.toNat ≤ destination.length ∧ s.size ≤ destination.length - offset.toNat) ∧
    (∀ after, s.copyTo destination offset.toNat = .ok after →
      Copied s.members destination offset.toNat after ∧
      (s.size < UInt64.size → destination.length < UInt64.size →
        Copying.run ⟨s, destination⟩ offset = some (⟨s, after⟩, .ok ()))) ∧
    (∀ e, s.copyTo destination offset.toNat = .error e →
      (e.category = .outOfRange ∧ e.argument? = some "offset" ↔ destination.length < offset.toNat) ∧
      (e.category = .validation ∧ e.argument? = some "dest" ↔ offset.toNat ≤ destination.length) ∧
      (s.size < UInt64.size → destination.length < UInt64.size →
        Copying.run ⟨s, destination⟩ offset = some (⟨s, destination⟩, .error e))) := by
  obtain ⟨place, hplace, rfl⟩ : ∃ place < UInt64.size, offset = .ofNat place :=
    ⟨offset.toNat, offset.toNat_lt, UInt64.ofNat_toNat.symm⟩
  rw [UInt64.toNat_ofNat_of_lt' hplace]
  rcases s.copyTo_cases destination place with ⟨hpast, h⟩ | ⟨hoffset, hfull, h⟩ | ⟨hoffset, hroom, after, h, hcopied⟩ <;>
    simp only [h]
  · refine ⟨⟨nofun, fun hfits => by omega⟩, by rintro _ ⟨⟩, ?_⟩
    rintro _ ⟨⟩
    exact ⟨by simp [FilterError.category, FilterError.argument?, hpast], by simp [FilterError.category, hpast],
      fun _ hlength => Copying.run_past hlength hplace hpast⟩
  · refine ⟨⟨nofun, fun hfits => by omega⟩, by rintro _ ⟨⟩, ?_⟩
    rintro _ ⟨⟩
    exact ⟨by simp [FilterError.category, hoffset], by simp [FilterError.category, FilterError.argument?, hoffset],
      fun hsize hlength => Copying.run_full hsize hlength hplace hoffset hfull⟩
  · refine ⟨⟨fun _ => ⟨hoffset, hroom⟩, fun _ => ⟨after, rfl⟩⟩, ?_, ?_⟩
    · rintro _ ⟨⟩
      refine ⟨hcopied, fun hsize hlength => ?_⟩
      obtain ⟨after', hrun, hcopied'⟩ := Copying.run_fits (c := ⟨s, destination⟩) hsize hlength hplace hoffset hroom
      rw [hrun, hcopied'.unique hcopied]
    · rintro e ⟨⟩

theorem copy_out_at_bounds :
    let s : Sequence Nat := { tag := "and", members := [1, 2] }
    (Copied [1, 2] [0, 0, 0] 1 [0, 1, 2] ∧ Copying.run ⟨s, [0, 0, 0]⟩ 1 = some (⟨s, [0, 1, 2]⟩, .ok ())) ∧
    Copying.run ⟨s, [0, 0, 0]⟩ 2 = some (⟨s, [0, 0, 0]⟩, .error (.noRoom 1 2 2)) ∧
    Copying.run ⟨s, [0, 0, 0]⟩ 0xffffffffffffffff =
      some (⟨s, [0, 0, 0]⟩, .error (.offsetPastEnd 0xffffffffffffffff 3)) := by
  intro s
  obtain ⟨hcopied, hrun⟩ := (copy_out s [0, 0, 0] 1).2.1 [0, 1, 2] rfl
  refine ⟨⟨hcopied, hrun (by decide) (by decide)⟩, ?_, ?_⟩
  · exact ((copy_out s [0, 0, 0] 2).2.2 _ rfl).2.2 (by decide) (by decide)
  · exact ((copy_out s [0, 0, 0] 0xffffffffffffffff).2.2 _ rfl).2.2 (by decide) (by decide)

end Sequence

end TestSelection
