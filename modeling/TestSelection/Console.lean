import TestSelection.Config
import TestSelection.Script

/-! The console: one script given as arguments, or line after line until the end of input or a line that
    quits. A reply depends on its line and on the configuration alone. -/

namespace TestSelection.Console

/-! ### Failures -/

/-- Why a command failed. -/
inductive Failure where
  | script (e : ScriptError)
  /-- The selection of a document cannot be had. -/
  | unparsable (e : Markup.ParseError)
  | presetUsage
  | unknownPreset (name : String)
  | unknownCommand (command : String)
  deriving DecidableEq

namespace Failure

def message : Failure → String
  | script e => e.message
  | unparsable _ => "compiled document could not be parsed"
  | presetUsage => "usage: :preset NAME"
  | unknownPreset name => "preset `" ++ name ++ "` is not defined"
  | unknownCommand command => "unknown command `" ++ command ++ "` (try :help)"

/-- What the failure came from. -/
def cause? : Failure → Option String
  | unparsable e => some e.message
  | _ => none

/-- The failure on a line of its own. -/
def line (f : Failure) : String :=
  "✗ " ++ f.message ++ ((f.cause?.map (": " ++ ·)).getD "") ++ "\n"

/-- The failure as the last word of a run. -/
def report (f : Failure) : String :=
  "Error: " ++ f.message ++ ((f.cause?.map ("\n\nCaused by:\n    " ++ ·)).getD "") ++ "\n"

end Failure

/-! ### Documents -/

/-- What a command printed, and whether it failed after that. -/
structure Printed where
  text : String
  failure : Option Failure := none
  deriving DecidableEq

/-- Prints a document, and its selection if the configuration asks for it. -/
def printDocument (config : Config) (d : Document) : Printed :=
  if config.emitSelection then
    match d.parse with
    | .ok s => ⟨d.text ++ "\n" ++ s.json.indented ++ "\n", none⟩
    | .error e => ⟨d.text ++ "\n", some (.unparsable e)⟩
  else ⟨d.text ++ "\n", none⟩

/-- Prints the document of a script, unless the script is refused. -/
def printScript (config : Config) (d : Except ScriptError Document) : Printed :=
  match d with
  | .ok d => printDocument config d
  | .error e => ⟨"", some (.script e)⟩

/-! ### Lines -/

/-- The answer to a line. -/
structure Reply where
  text : String
  quits : Bool := false
  deriving DecidableEq

def banner : String := "--- Test Filter: 构建脚本到过滤文档 (:help 查看命令) ---\n"

def help : String :=
  "  <script>        编译构建脚本, 例如: cat Smoke and not test~ .*Slow.*\n" ++
  "  :presets        列出预设过滤器\n" ++
  "  :preset NAME    编译预设过滤器\n" ++
  "  :quit           退出\n"

/-- Every preset with its script. -/
def presetLines (p : Presets) : String :=
  String.join (p.entries.map fun (name, script) => "  " ++ name ++ " -> " ++ script ++ "\n")

/-- Prints what the preset of a name spells; without a name there is none. -/
def printPreset (config : Config) (name : String) : Printed :=
  if name = "" then ⟨"", some .presetUsage⟩
  else
    match config.presets.get? name with
    | none => ⟨"", some (.unknownPreset name)⟩
    | some source => printScript config (Script.compile source)

/-- Carries out a line that is trimmed and not empty; `none` means to quit. A line that starts with a colon
    is a command, and any other one is a script. -/
def execute (config : Config) (line : String) : Option Printed :=
  let (word, rest) := Text.firstWord line.toList
  let command := String.ofList word
  if command = ":quit" ∨ command = ":q" then none
  else if command = ":help" then some ⟨help, none⟩
  else if command = ":presets" then some ⟨presetLines config.presets, none⟩
  else if command = ":preset" then some (printPreset config (String.ofList (Text.firstWord rest).1))
  else if word.head? = some ':' then some ⟨"", some (.unknownCommand command)⟩
  else some (printScript config (Script.compile line))

/-- The answer to a line. White space at its ends does not count, and a blank line has no answer. -/
def respond (config : Config) (line : String) : Reply :=
  let line := Text.trim line
  if line = "" then ⟨"", false⟩
  else
    match execute config line with
    | none => ⟨"", true⟩
    | some printed => ⟨printed.text ++ (printed.failure.map Failure.line).getD "", false⟩

/-! ### Runs -/

/-- What is printed from one prompt on; the prompt also comes before the end of input. -/
def transcriptFrom (config : Config) : List String → String
  | [] => config.prompt
  | line :: lines =>
    let reply := respond config line
    config.prompt ++ reply.text ++ if reply.quits then "" else transcriptFrom config lines

/-- What is printed over some lines. -/
def transcript (config : Config) (lines : List String) : String := banner ++ transcriptFrom config lines

/-- The lines of an input; the last one may lack its end. -/
def inputLines (input : String) : List String :=
  let pieces := (input.toList.splitOn '\n').map String.ofList
  if pieces.getLast? = some "" then pieces.dropLast else pieces

/-- How a run ends. -/
structure Outcome where
  code : Nat
  stdout : String
  stderr : String
  deriving DecidableEq, Repr

/-- A run on a script given as arguments. -/
def oneShot (config : Config) (args : List String) : Outcome :=
  let printed := printScript config (Script.compileArguments args)
  match printed.failure with
  | none => ⟨0, printed.text, ""⟩
  | some f => ⟨1, printed.text, f.report⟩

/-- The configuration that a run goes by: the defaults, if none can be loaded. -/
def effectiveConfig (source : Config.Source) : Config :=
  match Config.load source with
  | .ok c => c
  | .error _ => {}

/-- A run: on arguments, or on lines of input if there are none. -/
def run (source : Config.Source) (args : List String) (input : String) : Outcome :=
  let config := effectiveConfig source
  if args = [] then ⟨0, transcript config (inputLines input), ""⟩ else oneShot config args

end TestSelection.Console
