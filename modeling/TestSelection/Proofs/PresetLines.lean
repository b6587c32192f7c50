import TestSelection.Proofs.Conversation

/-! Lines that ask for a preset. Such a line is cut at white space, and the first word behind the command is the name that
    is looked up (`respond_presetLine`). So a preset whose name is one word is answered with its own script, and one whose
    name is blank or has white space in it cannot be asked for. What is printed of a script is never taken for a failure to
    find a preset (`shown_ne_of_aboutPreset`). Main statement: `preset_by_name`. -/

namespace TestSelection

theorem Presets.get?_of_mem {p : Presets} {name source : String} (h : (name, source) ∈ p.entries) :
    p.get? name = some source := by
  obtain ⟨front, back, hsplit⟩ := List.append_of_mem h
  have hincreasing := p.increasing
  rw [hsplit] at hincreasing
  have hbefore : ∀ e ∈ front, e.1 ≠ name := fun e he =>
    Std.ne_of_lt ((List.pairwise_append.mp hincreasing).2.2 e he _ List.mem_cons_self)
  have hnone : front.find? (·.1 == name) = none := List.find?_eq_none.mpr (by simpa using hbefore)
  rw [get?, hsplit, List.find?_append, hnone]
  simp

theorem Filter.head?_document (f : Filter) : f.document.text.toList.head? = some '<' := by
  rw [document, Document.ofBody]
  split <;> simp

namespace Console
open Text (Words)

/-! ### What is printed of scripts -/

/-- A failure to find the preset that is asked for. -/
def Failure.AboutPreset : Failure → Prop
  | presetUsage | unknownPreset _ => True
  | _ => False

section
variable {config : Config} {name source word : String} {more ws : List String} {f g : Failure}

theorem take_append_mem {s : String} {starts : List (List Char)} (hlength : 2 ≤ s.toList.length)
    (h : s.toList.take 2 ∈ starts) (t : String) : (s ++ t).toList.take 2 ∈ starts := by
  rwa [String.toList_append, List.take_append_of_le_length hlength]

-- The wordings are opened by `delta`, since the equations of these matches on texts take Lean far too long.
theorem take_message_filter (e : FilterError) : e.message.toList.take 2 ∈ ["ar", "in", "ch"].map String.toList := by
  delta FilterError.message
  cases e.category
  all_goals
    simp only [String.append_assoc]
    exact take_append_mem (by decide +kernel) (by decide +kernel) _

/-- The two letters with which the messages about scripts start. -/
theorem take_message (e : ScriptError) : e.message.toList.take 2 ∈ ["un", "ar", "in", "ch"].map String.toList := by
  cases e
  case filter e => exact List.mem_cons_of_mem _ (take_message_filter e)
  all_goals
    delta ScriptError.message
    simp only [String.append_assoc]
    exact take_append_mem (by decide +kernel) (by decide +kernel) _

theorem take_message_of_aboutPreset (h : f.AboutPreset) : f.message.toList.take 2 ∈ ["us", "pr"].map String.toList := by
  cases f with
  | presetUsage => decide +kernel
  | unknownPreset name =>
    delta Failure.message
    simp only [String.append_assoc]
    exact take_append_mem (by decide +kernel) (by decide +kernel) _
  | script | unparsable | unknownCommand => exact h.elim

theorem Failure.message_eq_of_line (hf : f.cause? = none) (hg : g.cause? = none) (h : f.line = g.line) :
    f.message = g.message := by
  simpa [line, hf, hg] using h

theorem Failure.head?_line (f : Failure) : f.line.toList.head? = some '✗' := by
  obtain ⟨message, h⟩ := f.line_eq
  simp [h]

theorem exists_shown_printDocument (config : Config) (d : Document) :
    ∃ more, (printDocument config d).shown = d.text ++ more := by
  unfold printDocument
  split
  · split
    · exact ⟨_, by simp only [Printed.shown, String.append_assoc]; rfl⟩
    · exact ⟨_, by simp only [Printed.shown, String.append_assoc]; rfl⟩
  · exact ⟨_, by simp only [Printed.shown, String.append_assoc]; rfl⟩

theorem shown_ne_of_aboutPreset (hf : f.AboutPreset) (config : Config) (source : String) :
    (printScript config (Script.compile source)).shown ≠ f.line := by
  intro hshown
  cases hcompile : Script.compile source with
  | error e =>
    have hapart : ∀ start ∈ ["un", "ar", "in", "ch"].map String.toList, start ∉ ["us", "pr"].map String.toList := by
      decide +kernel
    have hline : (Failure.script e).line = f.line := by simpa [hcompile, printScript, Printed.shown] using hshown
    have hcause : f.cause? = none := by
      cases f with
      | unparsable => exact hf.elim
      | script | presetUsage | unknownPreset | unknownCommand => rfl
    have hmessage : e.message = f.message := Failure.message_eq_of_line rfl hcause hline
    exact hapart _ (take_message e) (hmessage ▸ take_message_of_aboutPreset hf)
  | ok d =>
    obtain ⟨ws, filter, -, rfl⟩ := Script.exists_read_of_compile hcompile
    obtain ⟨more, hmore⟩ := exists_shown_printDocument config filter.document
    have hhead := f.head?_line
    rw [← hshown, hcompile, printScript, hmore, String.toList_append, List.head?_append, filter.head?_document] at hhead
    cases hhead

/-! ### Lines with a name -/

/-- The line that asks for the preset of a name. -/
def presetLine (name : String) : String := ":preset " ++ name

theorem words_presetLine (h : Words name.toList ws) : Words (presetLine name).toList (":preset" :: ws) := by
  have hblank : Words (' ' :: name.toList) ws := .blank (by decide) h
  have hline : (presetLine name).toList = ":preset".toList ++ ' ' :: name.toList := by simp [presetLine]
  have hend : ∀ c ∈ (' ' :: name.toList).head?, Text.isBlank c = true := by
    intro c hc
    cases hc
    decide
  have hwords := @Words.word ":preset".toList _ _ (by decide) (by decide +kernel) hend hblank
  rwa [← hline, String.ofList_toList] at hwords

theorem respond_presetLine (h : Words name.toList ws) :
    respond config (presetLine name) = ⟨(printPreset config (ws.head?.getD "")).shown, false⟩ := by
  have hwords := words_presetLine h
  exact respond_of_execute_some hwords.trim_ne_empty (execute_preset (Text.words_trim_iff.mpr hwords))

theorem printPreset_of_mem (hmem : (name, source) ∈ config.presets.entries) (hne : name ≠ "") :
    printPreset config name = printScript config (Script.compile source) := by
  rw [printPreset, if_neg hne, Presets.get?_of_mem hmem]

theorem AsksFor.eq_of_mem {asked : String} (h : AsksFor config (presetLine name) asked) (hname : Words name.toList [name])
    (hmem : (name, source) ∈ config.presets.entries) : asked = source := by
  have hwords := words_presetLine hname
  cases h with
  | script hline hword =>
    cases hline.unique hwords
    exact absurd rfl hword
  | preset hline hget =>
    cases hline.unique hwords
    rw [Presets.get?_of_mem hmem] at hget
    exact (Option.some.inj hget).symm

/-- A listed preset whose name is one word is answered with what is printed of its own script, which is never a failure to
    find a preset; the line asks for no other script. Behind the command one word is looked up and no more: a blank name
    lacks it, and any other name is answered as its first word is. -/
theorem preset_by_name {config : Config} {name source : String} (hmem : (name, source) ∈ config.presets.entries) :
    (name ≠ "" → (∀ c ∈ name.toList, Text.isBlank c = false) →
      respond config (presetLine name) = ⟨(printScript config (Script.compile source)).shown, false⟩ ∧
      (∀ f : Failure, f.AboutPreset → (respond config (presetLine name)).text ≠ f.line) ∧
      ∀ asked, AsksFor config (presetLine name) asked → asked = source) ∧
    (Text.blank name = true → respond config (presetLine name) = ⟨Failure.presetUsage.line, false⟩) ∧
    ∀ word more, Words name.toList (word :: more) → respond config (presetLine name) = respond config (presetLine word) ∧
      (config.presets.get? word = none → respond config (presetLine name) = ⟨(Failure.unknownPreset word).line, false⟩) := by
  refine ⟨fun hne hsolid => ?_, fun hblank => ?_, fun word more hwords => ?_⟩
  · have hname := Text.words_of_solid hne hsolid
    have hrespond : respond config (presetLine name) = ⟨(printScript config (Script.compile source)).shown, false⟩ := by
      rw [respond_presetLine hname, List.head?_cons, Option.getD_some, printPreset_of_mem hmem hne]
    refine ⟨hrespond, fun f hf => ?_, fun asked hasked => hasked.eq_of_mem hname hmem⟩
    rw [hrespond]
    exact shown_ne_of_aboutPreset hf config source
  · rw [respond_presetLine (Text.words_of_blank hblank)]
    rfl
  · have hne : word ≠ "" := hwords.ne_empty List.mem_cons_self
    have hword := Text.words_of_solid hne hwords.head_solid
    refine ⟨by rw [respond_presetLine hwords, respond_presetLine hword, List.head?_cons, List.head?_cons], fun hnone => ?_⟩
    rw [respond_presetLine hwords, List.head?_cons, Option.getD_some, printPreset, if_neg hne, hnone]
    rfl

/-- Presets with a blank name, a name of one word, and a name that starts with this word. -/
def crowded : Config := { presets := Presets.ofList [("", "cat C"), ("a", "cat A"), ("a b", "cat B")] }

theorem preset_by_name_crowded : ("a", "cat A") ∈ crowded.presets.entries ∧ "a" ≠ "" ∧
    (∀ c ∈ "a".toList, Text.isBlank c = false) ∧
    respond crowded (presetLine "a") = ⟨"<filter><cat>A</cat></filter>\n", false⟩ ∧
    respond crowded (presetLine "a b") = respond crowded (presetLine "a") := by
  have hmem : ("a", "cat A") ∈ crowded.presets.entries := by decide +kernel
  have hother : ("a b", "cat B") ∈ crowded.presets.entries := by decide +kernel
  have hsolid : ∀ c ∈ "a".toList, Text.isBlank c = false := fun c hc => by
    rw [List.mem_singleton.mp hc]
    decide
  have hend : ∀ c ∈ [' ', 'b'].head?, Text.isBlank c = true := fun c hc => by
    cases hc
    decide
  have hwords : Words "a b".toList ["a", "b"] :=
    @Words.word ['a'] [' ', 'b'] ["b"] (by decide) (by decide) hend
      (.blank (by decide) (@Words.word ['b'] [] [] (by decide) (by decide) (fun _ h => nomatch h) .nil))
  have hshown : (printScript crowded (Script.compile "cat A")).shown = "<filter><cat>A</cat></filter>\n" := by decide +kernel
  have hrespond := ((preset_by_name hmem).1 (by decide) hsolid).1
  rw [hshown] at hrespond
  exact ⟨hmem, by decide, hsolid, hrespond, ((preset_by_name hother).2.2 "a" ["b"] hwords).1⟩

/-- Not every listed preset is answered with its own script: a name of two words is answered with the script of the first
    one, and an empty name is taken for none. -/
theorem preset_out_of_reach : ("a b", "cat B") ∈ crowded.presets.entries ∧ ("", "cat C") ∈ crowded.presets.entries ∧
    (printScript crowded (Script.compile "cat B")).shown = "<filter><cat>B</cat></filter>\n" ∧
    respond crowded ":preset a b" = ⟨"<filter><cat>A</cat></filter>\n", false⟩ ∧
    respond crowded ":preset " = ⟨"✗ usage: :preset NAME\n", false⟩ ∧
    ¬∀ (config : Config) (name source : String), (name, source) ∈ config.presets.entries →
      respond config (presetLine name) = ⟨(printScript config (Script.compile source)).shown, false⟩ := by
  have hmem : ("a b", "cat B") ∈ crowded.presets.entries := by decide +kernel
  have hempty : ("", "cat C") ∈ crowded.presets.entries := by decide +kernel
  have hshown : (printScript crowded (Script.compile "cat B")).shown = "<filter><cat>B</cat></filter>\n" := by decide +kernel
  have hrespond : respond crowded ":preset a b" = ⟨"<filter><cat>A</cat></filter>\n", false⟩ := by decide +kernel
  refine ⟨hmem, hempty, hshown, hrespond, by decide +kernel, fun h => ?_⟩
  have hown : respond crowded ":preset a b" = _ := h crowded "a b" "cat B" hmem
  rw [hrespond, hshown] at hown
  exact absurd hown (by decide)

end

end Console

end TestSelection
