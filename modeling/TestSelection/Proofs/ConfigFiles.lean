import TestSelection.Config
import TestSelection.Proofs.JsonTexts

/-! Files with configurations. An object may hold some fields of a configuration, in any order, with members of other names
    anywhere among them (`Config.WrittenBy`). Each field is read back from its value, so loading puts the written fields over
    the defaults (`Config.ofJson?_written`). Main statement: `Config.load_written`. -/

namespace TestSelection

namespace Presets

/-! ### Presets in order -/

theorem insertEntry_eq_append {name script : String} {es : List (String × String)} (h : ∀ e ∈ es, e.1 < name) :
    insertEntry name script es = es ++ [(name, script)] := by
  induction es with
  | nil => rfl
  | cons e es ih =>
    obtain ⟨he, hes⟩ := List.forall_mem_cons.mp h
    rw [insertEntry, if_neg (String.lt_asymm he), if_neg (Std.ne_of_lt he).symm, ih hes]
    rfl

theorem entries_foldl_insert (es : List (String × String)) (p : Presets) (h : (p.entries ++ es).Pairwise (·.1 < ·.1)) :
    (es.foldl (fun p e => p.insert e.1 e.2) p).entries = p.entries ++ es := by
  induction es generalizing p with
  | nil => simp
  | cons e es ih =>
    have hlast : (p.insert e.1 e.2).entries = p.entries ++ [e] :=
      insertEntry_eq_append fun d hd => (List.pairwise_append.mp h).2.2 d hd e List.mem_cons_self
    have hassoc : p.entries ++ [e] ++ es = p.entries ++ e :: es := by simp
    rw [List.foldl_cons, ih (p.insert e.1 e.2) (by rwa [hlast, hassoc]), hlast, hassoc]

theorem eq_of_entries {p q : Presets} (h : p.entries = q.entries) : p = q := by
  cases p
  cases q
  cases h
  rfl

theorem ofList_entries (p : Presets) : ofList p.entries = p := by
  exact eq_of_entries (entries_foldl_insert p.entries {} p.increasing)

end Presets

namespace Config

inductive Field where
  | prompt | historyFile | emitSelection | presets
  deriving DecidableEq

namespace Field

/-- The name of the member that holds a field. -/
def name : Field → String
  | prompt => "prompt"
  | historyFile => "history_file"
  | emitSelection => "emit_selection"
  | presets => "presets"

/-- A field as it is written; no path at all is written as `null`. -/
def value (c : Config) : Field → Json
  | prompt => Json.ofText c.prompt
  | historyFile => (c.historyFile.map Json.ofText).getD .null
  | emitSelection => .bool c.emitSelection
  | presets => .object (c.presets.entries.map fun (name, script) => (Json.encode name, Json.ofText script))

end Field

/-- The configuration with some fields taken over and the others at their defaults. -/
def overlay (c : Config) (fs : List Field) : Config :=
  let defaults : Config := {}
  { prompt := if .prompt ∈ fs then c.prompt else defaults.prompt
    historyFile := if .historyFile ∈ fs then c.historyFile else defaults.historyFile
    emitSelection := if .emitSelection ∈ fs then c.emitSelection else defaults.emitSelection
    presets := if .presets ∈ fs then c.presets else defaults.presets }

/-- Members that hold some fields of a configuration in order, each of them once, and members of other names with any
    values anywhere among them. -/
inductive WrittenBy (c : Config) : List Field → List (String × Json) → Prop where
  | nil : WrittenBy c [] []
  | field {f : Field} {fs : List Field} {ms : List (String × Json)} (hf : f ∉ fs) (h : WrittenBy c fs ms) :
      WrittenBy c (f :: fs) ((f.name, f.value c) :: ms)
  | other {fs : List Field} {ms : List (String × Json)} {name text : String} (hname : Json.Spells name.toList text.toList)
      (htext : ∀ f : Field, f.name ≠ text) (v : Json) (h : WrittenBy c fs ms) : WrittenBy c fs ((name, v) :: ms)

section
variable {c : Config} {f : Field} {fs : List Field} {ms : List (String × Json)} {s : String}

/-! ### Members -/

theorem Field.encode_name (f : Field) : Json.encode f.name = f.name := by
  cases f <;> decide

theorem Field.name_injective {f g : Field} (h : f.name = g.name) : f = g := by
  cases f <;> cases g <;> first | rfl | (revert h; decide)

theorem mapM_readName?_cons {m n : String × Json} {named : List (String × Json)} (hm : readName? m = some n)
    (hms : ms.mapM readName? = some named) : (m :: ms).mapM readName? = some (n :: named) := by
  rw [List.mapM_cons, hm, hms]
  rfl

/-- Each member gets the text of its name, and a name of a field belongs to this field alone. -/
theorem WrittenBy.readNames (h : c.WrittenBy fs ms) : ∃ named, ms.mapM readName? = some named ∧
    ∀ f : Field, named.filter (·.1 == f.name) = if f ∈ fs then [(f.name, f.value c)] else [] := by
  induction h with
  | nil => exact ⟨[], rfl, fun f => by simp⟩
  | @field f fs ms hf h ih =>
    obtain ⟨named, hnamed, hfilter⟩ := ih
    have hname : readName? (f.name, f.value c) = some (f.name, f.value c) := by
      have hdecode := Json.decode?_encode f.name
      rw [f.encode_name] at hdecode
      rw [readName?, hdecode]
      rfl
    refine ⟨_, mapM_readName?_cons hname hnamed, fun g => ?_⟩
    by_cases hg : f = g
    · -- A name of a field stands once, so no member behind this one has it.
      subst hg
      rw [List.filter_cons, if_pos (beq_self_eq_true f.name), hfilter f, if_neg hf, if_pos List.mem_cons_self]
    · have hnames : ¬(f.name == g.name) = true := fun h => hg (Field.name_injective (eq_of_beq h))
      have hmem : g ∈ f :: fs ↔ g ∈ fs := by simp [Ne.symm hg]
      rw [List.filter_cons, if_neg hnames, hfilter g]
      simp only [hmem]
  | @other fs ms name text hname htext v h ih =>
    obtain ⟨named, hnamed, hfilter⟩ := ih
    have hread : readName? (name, v) = some (text, v) := by
      rw [readName?, Json.decode?_of_spells hname]
      rfl
    refine ⟨_, mapM_readName?_cons hread hnamed, fun g => ?_⟩
    rw [List.filter_cons, if_neg fun h => htext g (eq_of_beq h).symm, hfilter g]

theorem member?_of_filter {named : List (String × Json)} {name : String} {v : Json} {p : Prop} [Decidable p]
    (h : named.filter (·.1 == name) = if p then [(name, v)] else []) : member? named name = some (if p then some v else none) := by
  rw [member?, h]
  split_ifs <;> rfl

/-! ### Fields -/

theorem text?_ofText (s : String) : (Json.ofText s).text? = some s := Json.decode?_encode s

theorem readPath?_value (path : Option String) : readPath? ((path.map Json.ofText).getD .null) = some path := by
  cases path with
  | none => rfl
  | some path => exact congrArg (Option.map some) (text?_ofText path)

theorem mapM_readPreset? (es : List (String × String)) :
    (es.map fun (name, script) => (Json.encode name, Json.ofText script)).mapM readPreset? = some es := by
  induction es with
  | nil => rfl
  | cons e es ih =>
    have he : readPreset? (Json.encode e.1, Json.ofText e.2) = some e := by
      rw [readPreset?, Json.decode?_encode, text?_ofText]
      rfl
    rw [List.map_cons, List.mapM_cons, he, ih]
    rfl

theorem readPresets?_value (p : Presets) :
    readPresets? (.object (p.entries.map fun (name, script) => (Json.encode name, Json.ofText script))) = some p := by
  rw [readPresets?, mapM_readPreset?, Option.map_some, Presets.ofList_entries]

theorem field?_written {α : Type} {read? : Json → Option α} {v : Json} {a default : α} {p : Prop} [Decidable p]
    (h : read? v = some a) : field? read? default (if p then some v else none) = some (if p then a else default) := by
  split_ifs
  · exact h
  · rfl

theorem ofJson?_written (h : c.WrittenBy fs ms) : ofJson? (.object ms) = some (c.overlay fs) := by
  obtain ⟨named, hnamed, hfilter⟩ := h.readNames
  have hmember (f : Field) := member?_of_filter (hfilter f)
  have hprompt := hmember .prompt
  have hhistory := hmember .historyFile
  have hemit := hmember .emitSelection
  have hpresets := hmember .presets
  simp only [Field.name] at hprompt hhistory hemit hpresets
  rw [ofJson?, hnamed]
  simp only [Option.bind_eq_bind, Option.bind_some, hprompt, hhistory, hemit, hpresets]
  rw [ofFields?]
  simp only [Option.bind_eq_bind, Field.value]
  rw [field?_written (text?_ofText c.prompt), field?_written (readPath?_value c.historyFile),
    field?_written (a := c.emitSelection) rfl, field?_written (readPresets?_value c.presets)]
  rfl

/-! ### Files -/

theorem fromUTF8?_toUTF8 (s : String) : String.fromUTF8? s.toUTF8 = some s := by
  rw [String.fromUTF8?, String.toUTF8_eq_toByteArray, dif_pos s.isValidUTF8]
  rfl

theorem load_of_ofText? (h : ofText? s = some c) : load (.file s.toUTF8) = .ok c := by
  rw [load, fromUTF8?_toUTF8]
  dsimp only
  rw [h]

theorem load_of_read (hread : Json.read? s = some (.object ms)) (h : c.WrittenBy fs ms) :
    load (.file s.toUTF8) = .ok (c.overlay fs) :=
  load_of_ofText? (by rw [ofText?, hread, Option.bind_some, ofJson?_written h])

/-! ### Whole configurations -/

def Field.all : List Field := [.prompt, .historyFile, .emitSelection, .presets]

theorem json_eq (c : Config) : c.json = .object (Field.all.map fun f => (f.name, f.value c)) := rfl

theorem writtenBy_all (c : Config) : c.WrittenBy Field.all (Field.all.map fun f => (f.name, f.value c)) :=
  .field (by decide) (.field (by decide) (.field (by decide) (.field (by decide) .nil)))

theorem overlay_all (c : Config) : c.overlay Field.all = c := rfl

theorem Field.isWritten_name (f : Field) : Json.IsWritten f.name.toList := by
  rw [← f.encode_name]
  exact (Json.spells_encode f.name).isWritten

theorem Field.wellFormed_value (c : Config) (f : Field) : (f.value c).WellFormed := by
  cases f with
  | prompt => exact Json.wellFormed_ofText c.prompt
  | historyFile =>
    rw [value]
    cases c.historyFile with
    | none => exact List.forall_mem_singleton.mpr trivial
    | some path => exact Json.wellFormed_ofText path
  | emitSelection => exact List.forall_mem_singleton.mpr trivial
  | presets =>
    refine Json.wellFormed_object fun m hm => ?_
    obtain ⟨e, -, rfl⟩ := List.mem_map.mp hm
    exact ⟨(Json.spells_encode e.1).isWritten, Json.wellFormed_ofText e.2⟩

theorem wellFormed_json (c : Config) : c.json.WellFormed := by
  rw [json_eq]
  refine Json.wellFormed_object fun m hm => ?_
  obtain ⟨f, -, rfl⟩ := List.mem_map.mp hm
  exact ⟨f.isWritten_name, f.wellFormed_value c⟩

/-- A file with some fields of a configuration is loaded as these fields over the defaults, whatever the order of the fields,
    the white space and the members of other names. A configuration that is saved with all of its fields is loaded as it
    was; a missing path for the history is saved as `null`, so it does not turn into the default. -/
theorem load_written (c : Config) :
    (∀ fs ms (s : String), c.WrittenBy fs ms → Json.Spaced (Json.object ms).tokens s.toList →
      load (.file s.toUTF8) = .ok (c.overlay fs)) ∧
    load (.file c.json.compact.toUTF8) = .ok c := by
  refine ⟨fun fs ms s h hs => load_of_read (Json.read?_of_spaced hs) h, ?_⟩
  have hread := Json.read?_of_spaced (Json.spaced_compact c.wellFormed_json)
  rw [json_eq] at hread
  have hload := load_of_read hread c.writtenBy_all
  rwa [overlay_all] at hload

/-- A missing path is taken over, and the prompt, which is not written, has its default. -/
theorem load_without_history :
    WrittenBy { prompt := "> ", historyFile := none } [.historyFile] [("shown", .array [.null]), ("history_file", .null)] ∧
    Json.Spaced (Json.object [("shown", .array [.null]), ("history_file", .null)]).tokens
      " \x7b\"shown\":[null],\"history_file\":null\x7d".toList ∧
    load (.file " \x7b\"shown\":[null],\"history_file\":null\x7d".toUTF8) = .ok { historyFile := none } := by
  have hshown : Json.Spells "shown".toList "shown".toList := Json.spells_encode "shown"
  have hwritten : WrittenBy { prompt := "> ", historyFile := none } [.historyFile]
      [("shown", .array [.null]), ("history_file", .null)] :=
    .other hshown (by rintro (_ | _ | _ | _) <;> decide) _ (.field (f := .historyFile) (by decide) .nil)
  have hspaced : Json.Spaced (Json.object [("shown", .array [.null]), ("history_file", .null)]).tokens
      " \x7b\"shown\":[null],\"history_file\":null\x7d".toList := by
    have harray : (Json.array [.null]).WellFormed := by
      simp [Json.WellFormed, Json.tokens, Json.itemTokens, Json.Token.WellFormed]
    have hnull : Json.null.WellFormed := List.forall_mem_singleton.mpr trivial
    refine .space rfl (Json.spaced_compact (Json.wellFormed_object fun m hm => ?_))
    simp only [List.mem_cons, List.not_mem_nil, or_false] at hm
    rcases hm with rfl | rfl
    · exact ⟨hshown.isWritten, harray⟩
    · exact ⟨Field.isWritten_name .historyFile, hnull⟩
  exact ⟨hwritten, hspaced, (load_written _).1 _ _ _ hwritten hspaced⟩

end

end Config

end TestSelection
