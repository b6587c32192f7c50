import TestSelection.Json.Reader
import TestSelection.Presets

/-! Configurations of the console. They are kept in a JSON file as an object, whose members go over the
    defaults; members with other names are passed over. A list holds the same fields by place. -/

namespace TestSelection

structure Config where
  prompt : String := "filter> "
  historyFile : Option String := some ".test_filter_history"
  /-- Whether selections are printed along with documents. -/
  emitSelection : Bool := false
  presets : Presets := Presets.ofList [("all", ""), ("smoke", "cat Smoke and not cat Slow")]
  deriving DecidableEq

inductive ConfigError where
  | missing
  /-- The file cannot be read, or is no text. -/
  | unreadable
  /-- The text is no configuration. -/
  | malformed
  deriving DecidableEq, Repr

/-- The message shown to a user, given where the file should be. -/
def ConfigError.message (path : String) : ConfigError → String
  | missing => "配置文件不存在: " ++ path
  | unreadable => "无法读取配置文件 " ++ path
  | malformed => "无法解析JSON配置文件 " ++ path

namespace Config

/-! ### From JSON -/

def readFlag? : Json → Option Bool
  | .bool b => some b
  | _ => none

/-- A path, or no path at all. -/
def readPath? : Json → Option (Option String)
  | .null => some none
  | v => v.text?.map some

/-- A preset, from a member of an object. -/
def readPreset? (m : String × Json) : Option (String × String) := do
  return (← Json.decode? m.1, ← m.2.text?)

def readPresets? : Json → Option Presets
  | .object members => (members.mapM readPreset?).map Presets.ofList
  | _ => none

/-- A field that may be missing and then has its default. -/
def field? {α : Type} (read? : Json → Option α) (default : α) : Option Json → Option α
  | none => some default
  | some v => read? v

/-- The configuration with some fields given and the others at their defaults. -/
def ofFields? (prompt historyFile emitSelection presets : Option Json) : Option Config := do
  let defaults : Config := {}
  return {
    prompt := ← field? Json.text? defaults.prompt prompt
    historyFile := ← field? readPath? defaults.historyFile historyFile
    emitSelection := ← field? readFlag? defaults.emitSelection emitSelection
    presets := ← field? readPresets? defaults.presets presets }

/-- The value of a member, if there is one of that name; two of them are refused. -/
def member? (members : List (String × Json)) (name : String) : Option (Option Json) :=
  match members.filter (·.1 == name) with
  | [] => some none
  | [(_, v)] => some (some v)
  | _ => none

/-- A member with the text of its name. -/
def readName? (m : String × Json) : Option (String × Json) := (Json.decode? m.1).map (·, m.2)

/-- The configuration that a JSON value holds. -/
def ofJson? : Json → Option Config
  | .object written => do
    let members ← written.mapM readName?
    ofFields? (← member? members "prompt") (← member? members "history_file")
      (← member? members "emit_selection") (← member? members "presets")
  | .array items => if items.length ≤ 4 then ofFields? items[0]? items[1]? items[2]? items[3]? else none
  | _ => none

/-! ### To JSON -/

/-- The configuration as a JSON object, with all of its fields. -/
def json (c : Config) : Json :=
  .object
    [("prompt", Json.ofText c.prompt),
     ("history_file", (c.historyFile.map Json.ofText).getD .null),
     ("emit_selection", .bool c.emitSelection),
     ("presets", .object (c.presets.entries.map fun (name, script) => (Json.encode name, Json.ofText script)))]

/-! ### Files -/

/-- What is found where a file should be. -/
inductive Source where
  | missing
  /-- Something that is no file of bytes, or one that may not be read. -/
  | unreadable
  | file (bytes : ByteArray)

/-- The configuration that a text writes. -/
def ofText? (s : String) : Option Config := (Json.read? s).bind ofJson?

/-- The configuration in a file. -/
def load : Source → Except ConfigError Config
  | .missing => .error .missing
  | .unreadable => .error .unreadable
  | .file bytes =>
    match String.fromUTF8? bytes with
    | none => .error .unreadable
    | some s =>
      match ofText? s with
      | none => .error .malformed
      | some c => .ok c

end Config

end TestSelection
