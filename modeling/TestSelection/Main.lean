import TestSelection.Console

/-! The command line. With arguments it prints the document of the script that they are; without, it reads
    lines and answers each one. The configuration is looked for in the current directory. -/

namespace TestSelection.Console

/-- Where the configuration should be. -/
def configPath : String := "test_filter.json"

/-- What is found there. -/
def configSource : IO Config.Source := do
  try
    return .file (← IO.FS.readBinFile configPath)
  catch
    | .noFileOrDirectory .. => return .missing
    | _ => return .unreadable

/-- Answers line after line. -/
partial def converse (config : Config) (stdin stdout : IO.FS.Stream) : IO Unit := do
  stdout.putStr config.prompt
  stdout.flush
  let line ← stdin.getLine
  if line = "" then return
  let reply := respond config line
  stdout.putStr reply.text
  unless reply.quits do converse config stdin stdout

end TestSelection.Console

open TestSelection Console in
def main (args : List String) : IO UInt32 := do
  let config := effectiveConfig (← configSource)
  let stdout ← IO.getStdout
  if args = [] then
    stdout.putStr banner
    converse config (← IO.getStdin) stdout
    stdout.flush
    return 0
  else
    let outcome := oneShot config args
    stdout.putStr outcome.stdout
    stdout.flush
    (← IO.getStderr).putStr outcome.stderr
    return outcome.code.toUInt32
