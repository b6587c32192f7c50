import TestSelection.Proofs.OneShot
import TestSelection.Proofs.Words

/-! Runs on lines. Each line is answered by itself: what it prints is told by its trimmed text and the configuration
    (`answer`), and only a line whose first word says so ends the run (`Quits`). What can go wrong with a line is listed
    (`Fails`); it is told in one message behind what the line printed. Main statement: `run_lines`. -/

namespace TestSelection.Console
open Text (Words)

/-! ### What lines ask for -/

/-- A line whose first word ends the run. -/
def Quits (line : String) : Prop := ∃ more, Words line.toList (":quit" :: more) ∨ Words line.toList (":q" :: more)

/-- The script that a line asks for: the line itself, or the script of the preset that it names. -/
inductive AsksFor (config : Config) (line : String) : String → Prop where
  | script {word : String} {more : List String} (hwords : Words line.toList (word :: more))
      (hword : word.toList.head? ≠ some ':') : AsksFor config line line
  | preset {name source : String} {more : List String} (hwords : Words line.toList (":preset" :: name :: more))
      (hget : config.presets.get? name = some source) : AsksFor config line source

def commands : List String := [":quit", ":q", ":help", ":presets", ":preset"]

/-- What can go wrong with a line. -/
inductive Fails (config : Config) (line : String) : Failure → Prop where
  | script {source : String} {e : ScriptError} (hsource : AsksFor config line source)
      (hcompile : Script.compile source = .error e) : Fails config line (.script e)
  | tooDeep {source : String} {d : Document} {e : Markup.ParseError} (hsource : AsksFor config line source)
      (hcompile : Script.compile source = .ok d) (hemit : config.emitSelection = true) (hdeep : 256 < d.nesting)
      (hparse : d.parse = .error e) : Fails config line (.unparsable e)
  | presetUsage (hwords : Words line.toList [":preset"]) : Fails config line .presetUsage
  | unknownPreset {name : String} {more : List String} (hwords : Words line.toList (":preset" :: name :: more))
      (hget : config.presets.get? name = none) : Fails config line (.unknownPreset name)
  | unknownCommand {command : String} {more : List String} (hwords : Words line.toList (command :: more))
      (hcolon : command.toList.head? = some ':') (hunknown : command ∉ commands) :
      Fails config line (.unknownCommand command)

/-- What a line prints of its script: the document, or nothing if there is no script or it does not compile. -/
inductive DocumentLine (config : Config) (line : String) : String → Prop where
  | document {source : String} {d : Document} (hsource : AsksFor config line source)
      (hcompile : Script.compile source = .ok d) : DocumentLine config line (d.text ++ "\n")
  | nothing (h : ∀ source d, AsksFor config line source → Script.compile source ≠ .ok d) : DocumentLine config line ""

/-! ### Answers -/

/-- What is shown of a command: what it printed, and its failure on a line of its own. -/
def Printed.shown (p : Printed) : String := p.text ++ (p.failure.map Failure.line).getD ""

def answer (config : Config) (line : String) : String :=
  if line = "" then "" else ((execute config line).map Printed.shown).getD ""

section
variable {config : Config} {line word source : String} {more lines : List String} {failure : Failure} {printed : Printed}

theorem respond_of_blank (h : Text.trim line = "") : respond config line = ⟨"", false⟩ := by
  rw [respond]
  exact if_pos h

theorem respond_of_execute_none (hblank : Text.trim line ≠ "") (h : execute config (Text.trim line) = none) :
    respond config line = ⟨"", true⟩ := by
  rw [respond, if_neg hblank, h]

theorem respond_of_execute_some (hblank : Text.trim line ≠ "") (h : execute config (Text.trim line) = some printed) :
    respond config line = ⟨printed.shown, false⟩ := by
  rw [respond, if_neg hblank, h]
  rfl

theorem answer_of_execute (hblank : line ≠ "") (h : execute config line = some printed) :
    answer config line = printed.shown := by
  rw [answer, if_neg hblank, h]
  rfl

/-! ### Commands -/

theorem execute_eq (h : Words line.toList (word :: more)) : execute config line =
    if word = ":quit" ∨ word = ":q" then none
    else if word = ":help" then some ⟨help, none⟩
    else if word = ":presets" then some ⟨presetLines config.presets, none⟩
    else if word = ":preset" then some (printPreset config (more.head?.getD ""))
    else if word.toList.head? = some ':' then some ⟨"", some (.unknownCommand word)⟩
    else some (printScript config (Script.compile line)) := by
  obtain ⟨rest, hfirst, hrest⟩ := h.firstWord_cons
  rw [execute, hfirst]
  dsimp only
  rw [String.ofList_toList, hrest.firstWord_fst]

theorem execute_preset (h : Words line.toList (":preset" :: more)) :
    execute config line = some (printPreset config (more.head?.getD "")) := by
  simp [execute_eq h]

theorem execute_named {name : String} (h : Words line.toList (":preset" :: name :: more)) : execute config line =
    match config.presets.get? name with
    | none => some ⟨"", some (.unknownPreset name)⟩
    | some source => some (printScript config (Script.compile source)) := by
  have hname : name ≠ "" := h.ne_empty (List.mem_cons_of_mem _ List.mem_cons_self)
  rw [execute_preset h, List.head?_cons, Option.getD_some, printPreset, if_neg hname]
  cases config.presets.get? name <;> rfl

theorem execute_of_not_command (h : Words line.toList (word :: more)) (hword : word ∉ commands) : execute config line =
    if word.toList.head? = some ':' then some ⟨"", some (.unknownCommand word)⟩
    else some (printScript config (Script.compile line)) := by
  simp only [commands, List.mem_cons, List.not_mem_nil, or_false, not_or] at hword
  obtain ⟨hquit, hq, hhelp, hpresets, hpreset⟩ := hword
  rw [execute_eq h, if_neg (not_or.mpr ⟨hquit, hq⟩), if_neg hhelp, if_neg hpresets, if_neg hpreset]

theorem head?_command : ∀ c ∈ commands, c.toList.head? = some ':' := by decide

theorem Quits.execute_eq (h : Quits line) : execute config line = none := by
  obtain ⟨more, hwords | hwords⟩ := h
  · rw [Console.execute_eq hwords, if_pos (Or.inl rfl)]
  · rw [Console.execute_eq hwords, if_pos (Or.inr rfl)]

theorem quits_of_execute_none (hwords : Words line.toList (word :: more)) (h : execute config line = none) : Quits line := by
  rw [execute_eq hwords] at h
  split_ifs at h with hquit
  rcases hquit with rfl | rfl
  · exact ⟨more, Or.inl hwords⟩
  · exact ⟨more, Or.inr hwords⟩

theorem AsksFor.exists_words (h : AsksFor config line source) : ∃ word more, Words line.toList (word :: more) := by
  cases h with
  | script hwords => exact ⟨_, _, hwords⟩
  | preset hwords => exact ⟨_, _, hwords⟩

theorem AsksFor.execute_eq (h : AsksFor config line source) :
    execute config line = some (printScript config (Script.compile source)) := by
  cases h with
  | script hwords hword => rw [execute_of_not_command hwords fun hmem => hword (head?_command _ hmem), if_neg hword]
  | preset hwords hget => rw [execute_named hwords, hget]

/-! ### Failures -/

theorem fails_of_printScript (hsource : AsksFor config line source)
    (hfailure : (printScript config (Script.compile source)).failure = some failure) : Fails config line failure := by
  cases hcompile : Script.compile source with
  | error e =>
    rw [hcompile] at hfailure
    cases hfailure
    exact .script hsource hcompile
  | ok d =>
    have hprints := prints_printDocument config (Script.parsesToCap_of_compile hcompile)
    have hprinted : (printDocument config d).failure = some failure := by
      rw [hcompile] at hfailure
      exact hfailure
    generalize printDocument config d = printed at hprints hprinted
    cases hprints with
    | text => cases hprinted
    | selection => cases hprinted
    | tooDeep hemit hdeep hparse =>
      cases hprinted
      exact .tooDeep hsource hcompile hemit hdeep hparse

theorem fails_of_preset (hwords : Words line.toList (":preset" :: more)) (h : execute config line = some printed)
    (hfailure : printed.failure = some failure) : Fails config line failure := by
  cases more with
  | nil =>
    rw [execute_preset hwords] at h
    cases h
    cases hfailure
    exact .presetUsage hwords
  | cons name more =>
    rw [execute_named hwords] at h
    cases hget : config.presets.get? name with
    | none =>
      rw [hget] at h
      cases h
      cases hfailure
      exact .unknownPreset hwords hget
    | some source =>
      rw [hget] at h
      cases h
      exact fails_of_printScript (.preset hwords hget) hfailure

/-- Nothing but what is listed goes wrong. -/
theorem fails_of_execute (hwords : Words line.toList (word :: more)) (h : execute config line = some printed)
    (hfailure : printed.failure = some failure) : Fails config line failure := by
  -- Of the commands, only `:preset` prints scripts, so it is split off before the others.
  by_cases hpreset : word = ":preset"
  · subst hpreset
    exact fails_of_preset hwords h hfailure
  · rw [execute_eq hwords] at h
    split_ifs at h with hquit hhelp hpresets hcolon
    · cases h
      cases hfailure
    · cases h
      cases hfailure
    · cases h
      cases hfailure
      rw [not_or] at hquit
      exact .unknownCommand hwords hcolon (by simp [commands, hquit, hhelp, hpresets, hpreset])
    · cases h
      exact fails_of_printScript (.script hwords hcolon) hfailure

theorem Fails.exists_words (h : Fails config line failure) : ∃ word more, Words line.toList (word :: more) := by
  cases h with
  | script hsource => exact hsource.exists_words
  | tooDeep hsource => exact hsource.exists_words
  | presetUsage hwords => exact ⟨_, _, hwords⟩
  | unknownPreset hwords => exact ⟨_, _, hwords⟩
  | unknownCommand hwords => exact ⟨_, _, hwords⟩

theorem ne_ok_of_execute (h : execute config line = some printed) (htext : printed.text = "")
    (hsource : AsksFor config line source) (d : Document) : Script.compile source ≠ .ok d := by
  intro hcompile
  have hprinted : printDocument config d = printed := by
    rw [hsource.execute_eq, hcompile] at h
    exact Option.some.inj h
  have hprints := prints_printDocument config (Script.parsesToCap_of_compile hcompile)
  rw [hprinted] at hprints
  cases hprints <;> simp at htext

theorem Fails.execute_eq (h : Fails config line failure) :
    ∃ text, execute config line = some ⟨text, some failure⟩ ∧ DocumentLine config line text := by
  -- All but one of the failures come before anything is printed.
  have silent (hexecute : execute config line = some ⟨"", some failure⟩) :
      ∃ text, execute config line = some ⟨text, some failure⟩ ∧ DocumentLine config line text :=
    ⟨"", hexecute, .nothing fun source d hsource => ne_ok_of_execute hexecute rfl hsource d⟩
  cases h with
  | script hsource hcompile =>
    refine silent ?_
    rw [hsource.execute_eq, hcompile]
    rfl
  | @tooDeep source d e hsource hcompile hemit hdeep hparse =>
    refine ⟨d.text ++ "\n", ?_, .document hsource hcompile⟩
    rw [hsource.execute_eq, hcompile, printScript, printDocument, if_pos hemit, hparse]
  | presetUsage hwords => exact silent (execute_preset hwords)
  | unknownPreset hwords hget =>
    refine silent ?_
    rw [execute_named hwords, hget]
  | unknownCommand hwords hcolon hunknown =>
    refine silent ?_
    rw [execute_of_not_command hwords hunknown, if_pos hcolon]

theorem Failure.line_eq (f : Failure) : ∃ message, f.line = "✗ " ++ message ++ "\n" :=
  ⟨f.message ++ (f.cause?.map (": " ++ ·)).getD "", congrArg (· ++ "\n") String.append_assoc⟩

/-! ### Runs -/

theorem quits_trim_iff : Quits (Text.trim line) ↔ Quits line := by
  simp only [Quits, Text.words_trim_iff]

theorem respond_of_quits (h : Quits line) : respond config line = ⟨"", true⟩ := by
  obtain ⟨more, hwords⟩ := h
  have hblank : Text.trim line ≠ "" := hwords.elim Words.trim_ne_empty Words.trim_ne_empty
  exact respond_of_execute_none hblank (quits_trim_iff.mpr ⟨more, hwords⟩).execute_eq

theorem respond_of_not_quits (h : ¬Quits line) : respond config line = ⟨answer config (Text.trim line), false⟩ := by
  obtain ⟨words, hwords⟩ := Text.exists_words line.toList
  cases words with
  | nil =>
    rw [respond_of_blank hwords.trim_eq_empty, hwords.trim_eq_empty]
    rfl
  | cons word more =>
    have hblank := hwords.trim_ne_empty
    cases hexecute : execute config (Text.trim line) with
    | none => exact absurd (quits_trim_iff.mp (quits_of_execute_none (Text.words_trim_iff.mpr hwords) hexecute)) h
    | some printed => rw [respond_of_execute_some hblank hexecute, answer_of_execute hblank hexecute]

end

/-- What is printed over some lines: the prompt and the answer of each line, up to the first one that quits or to the end of
    input, which comes behind a prompt as well. -/
inductive Converses (prompt : String) (answer : String → String) : List String → String → Prop where
  | finished : Converses prompt answer [] prompt
  | quit {line : String} {lines : List String} (h : Quits line) : Converses prompt answer (line :: lines) prompt
  | answered {line out : String} {lines : List String} (hline : ¬Quits line) (h : Converses prompt answer lines out) :
      Converses prompt answer (line :: lines) (prompt ++ answer (Text.trim line) ++ out)

section
variable {config : Config} {source : Config.Source} {line : String} {lines : List String}

theorem transcriptFrom_of_quits (h : Quits line) : transcriptFrom config (line :: lines) = config.prompt := by
  simp [transcriptFrom, respond_of_quits h]

theorem transcriptFrom_of_not_quits (h : ¬Quits line) : transcriptFrom config (line :: lines) =
    config.prompt ++ answer config (Text.trim line) ++ transcriptFrom config lines := by
  simp [transcriptFrom, respond_of_not_quits h]

theorem converses_transcriptFrom (config : Config) (lines : List String) :
    Converses config.prompt (answer config) lines (transcriptFrom config lines) := by
  induction lines with
  | nil => exact .finished
  | cons line lines ih =>
    by_cases hline : Quits line
    · rw [transcriptFrom_of_quits hline]
      exact .quit hline
    · rw [transcriptFrom_of_not_quits hline]
      exact .answered hline ih

theorem Converses.unique {prompt out other : String} {answer : String → String} (h : Converses prompt answer lines out)
    (h' : Converses prompt answer lines other) : out = other := by
  induction h generalizing other with
  | finished =>
    cases h'
    rfl
  | quit hline =>
    cases h' with
    | quit => rfl
    | answered hgoes => exact absurd hline hgoes
  | answered hgoes _ ih =>
    cases h' with
    | quit hline => exact absurd hline hgoes
    | answered _ h' => rw [ih h']

theorem toList_join_lines (lines : List String) :
    (String.join (lines.map (· ++ "\n"))).toList = ['\n'].intercalate ((lines ++ [""]).map String.toList) := by
  induction lines with
  | nil => rfl
  | cons line lines ih =>
    rw [List.cons_append, List.map_cons, List.map_cons, List.intercalate_cons_of_ne_nil (by simp), ← ih, String.join_cons,
      String.toList_append, String.toList_append]
    rfl

theorem inputLines_join (h : ∀ line ∈ lines, '\n' ∉ line.toList) : inputLines (String.join (lines.map (· ++ "\n"))) = lines := by
  have hpieces : ∀ cs ∈ (lines ++ [""]).map String.toList, '\n' ∉ cs := by
    intro cs hcs
    obtain ⟨line, hline, rfl⟩ := List.mem_map.mp hcs
    rcases List.mem_append.mp hline with hline | hline
    · exact h line hline
    · rw [List.mem_singleton.mp hline]
      exact List.not_mem_nil
  have hsplit := List.splitOn_intercalate '\n' hpieces (by simp)
  have hback : ((lines ++ [""]).map String.toList).map String.ofList = lines ++ [""] := by
    simp [Function.comp_def, String.ofList_toList]
  -- What stands behind the last end of a line is empty, so it is no line.
  rw [inputLines, toList_join_lines, hsplit, hback, if_pos (by simp), List.dropLast_concat]

/-- A run on lines ends with code 0, whatever the lines are, and it prints their answers up to the first line that quits. An
    answer goes by the trimmed line and the configuration alone: nothing for a blank line, and what is printed of the script
    for a line that is no command. A line that fails does not quit; it is answered by one message, behind its document if
    its script compiles. No other line fails. -/
theorem run_lines (hconfig : InForce source config) :
    (∀ lines, (∀ line ∈ lines, '\n' ∉ line.toList) → inputLines (String.join (lines.map (· ++ "\n"))) = lines) ∧
    (∀ input, (∃ out, Converses config.prompt (answer config) (inputLines input) out) ∧
      ∀ out, Converses config.prompt (answer config) (inputLines input) out → run source [] input = ⟨0, banner ++ out, ""⟩) ∧
    (∀ line, Text.blank line = true → answer config (Text.trim line) = "") ∧
    (∀ line word more, Words line.toList (word :: more) → word.toList.head? ≠ some ':' →
      answer config (Text.trim line) = (printScript config (Script.compile (Text.trim line))).shown) ∧
    (∀ line failure, Fails config (Text.trim line) failure → ¬Quits line ∧
      ∃ text message, answer config (Text.trim line) = text ++ failure.line ∧ failure.line = "✗ " ++ message ++ "\n" ∧
        DocumentLine config (Text.trim line) text) ∧
    ∀ line word more printed failure, Words line.toList (word :: more) →
      execute config (Text.trim line) = some printed → printed.failure = some failure →
      Fails config (Text.trim line) failure := by
  refine ⟨fun lines => inputLines_join, fun input => ?_, fun line hblank => ?_, fun line word more hwords hword => ?_,
    fun line failure hfails => ?_, fun line word more printed failure hwords hexecute hfailure => ?_⟩
  · have hconverses := converses_transcriptFrom config (inputLines input)
    refine ⟨⟨_, hconverses⟩, fun out hout => ?_⟩
    rw [hout.unique hconverses, run, hconfig.effectiveConfig]
    rfl
  · rw [answer, if_pos (Text.trim_eq_empty_iff.mpr hblank)]
  · exact answer_of_execute hwords.trim_ne_empty (AsksFor.script (Text.words_trim_iff.mpr hwords) hword).execute_eq
  · obtain ⟨text, hexecute, htext⟩ := hfails.execute_eq
    obtain ⟨message, hmessage⟩ := failure.line_eq
    obtain ⟨word, more, hwords⟩ := hfails.exists_words
    refine ⟨fun hquits => ?_, text, message, answer_of_execute hwords.text_ne_empty hexecute, hmessage, htext⟩
    rw [(quits_trim_iff.mpr hquits).execute_eq] at hexecute
    cases hexecute
  · exact fails_of_execute (Text.words_trim_iff.mpr hwords) hexecute hfailure

/-- Without a configuration, a line that is no command is told so, and the next one is answered all the same. -/
theorem run_lines_typo : InForce .missing {} ∧ Fails {} ":nope" (.unknownCommand ":nope") ∧
    answer {} ":nope" = (Failure.unknownCommand ":nope").line ∧
    ∃ out, Converses "filter> " (answer {}) [":nope", "cat A", " :q ", "cat B"] out ∧
      run .missing [] ":nope\ncat A\n :q \ncat B" = ⟨0, banner ++ out, ""⟩ := by
  have hconfig : InForce .missing {} := Or.inr ⟨⟨_, rfl⟩, rfl⟩
  have hwords : Words ":nope".toList [":nope"] :=
    @Words.word ":nope".toList [] [] (by decide) (by decide +kernel) (fun _ h => nomatch h) .nil
  have hfails : Fails {} ":nope" (.unknownCommand ":nope") := .unknownCommand hwords (by decide) (by decide)
  have htrim : Text.trim ":nope" = ":nope" := by decide +kernel
  have hlines : inputLines ":nope\ncat A\n :q \ncat B" = [":nope", "cat A", " :q ", "cat B"] := by decide +kernel
  obtain ⟨-, hrun, -, -, hfailing, -⟩ := run_lines hconfig
  obtain ⟨⟨out, hout⟩, hinput⟩ := hrun ":nope\ncat A\n :q \ncat B"
  rw [hlines] at hout hinput
  obtain ⟨-, text, message, hanswer, -, htext⟩ := hfailing ":nope" (.unknownCommand ":nope") (by rwa [htrim])
  rw [htrim] at hanswer htext
  refine ⟨hconfig, hfails, ?_, out, hout, hinput out hout⟩
  -- The line asks for no script, so nothing stands in front of the message.
  have hscript : ∀ source, ¬AsksFor {} ":nope" source := by
    rintro source (⟨hwords', hword⟩ | ⟨hwords', -⟩)
    · rw [← (List.cons.inj (hwords.unique hwords')).1] at hword
      exact hword (by decide)
    · exact absurd (List.cons.inj (hwords'.unique hwords)).1 (by decide)
  cases htext with
  | document hsource => exact absurd hsource (hscript _)
  | nothing => rw [hanswer, String.empty_append]

end

end TestSelection.Console
