import BenchConsole.CommandLine

/-!
# The program

Reads the arguments, the settings and the console, and prints what the library answers.
-/

open BenchConsole

/-- What the arguments ask for. -/
structure Invocation where
  /-- The document with the settings. -/
  configPath : Option String := none
  /-- The words of the task, options among them. -/
  words : List String := []
  /-- The words after a double dash, which are no options. -/
  operands : List String := []

/-- Sorts the arguments. The log level and the time between drains are accepted, but there is no
log, and the queue is worked off once the input has ended. -/
def Invocation.ofArguments : List String → Invocation → Invocation
  | [], i => i
  | "--" :: rest, i => { i with operands := rest }
  | "--config" :: path :: rest, i => ofArguments rest { i with configPath := some path }
  | "-c" :: path :: rest, i => ofArguments rest { i with configPath := some path }
  | "--log-level" :: _ :: rest, i => ofArguments rest i
  | "--drain-ms" :: _ :: rest, i => ofArguments rest i
  | word :: rest, i => ofArguments rest { i with words := i.words ++ [word] }

def Invocation.settings (i : Invocation) : IO (Except SettingsError Settings) := do
  match i.configPath with
  | none => return .ok {}
  | some path =>
    try
      return CommandLine.readSettings (← IO.FS.readFile path)
    catch e => return .error (.unreadable (toString e))

/-- Takes the lines of the console one by one, printing what each one gives. -/
partial def feedLines (input output : IO.FS.Stream) (s : Session) : IO Session := do
  let text ← input.getLine
  if text.isEmpty then return s
  let (printed, s) := s.feedAll ((Text.lines text.toList).map String.ofList)
  output.putStr printed
  output.flush
  feedLines input output s

/-- A console session on the standard streams. -/
def runConsole (settings : Settings) : IO UInt32 := do
  let output ← IO.getStdout
  let s ← feedLines (← IO.getStdin) output (.new settings.board settings.protocol)
  output.putStr s.finish.1
  return 0

def printReport (report : Report) : IO UInt32 := do
  (← IO.getStdout).putStr report.stdout
  (← IO.getStderr).putStr report.stderr
  return report.exitCode

def Invocation.run (i : Invocation) : IO UInt32 := do
  let settings ← i.settings
  let path := i.configPath.getD ""
  let json := i.words.contains "--json"
  match i.words.filter (· != "--json") ++ i.operands with
  | ["exec", command] => printReport (CommandLine.performWith path settings (.exec command json))
  | ["parse", command] => printReport (CommandLine.performWith path settings (.parse command))
  | words =>
    if words = [] ∨ words = ["run"] then
      match settings with
      | .ok settings => runConsole settings
      | .error _ => printReport (CommandLine.performWith path settings (.run ""))
    else
      (← IO.getStderr).putStrLn
        "usage: [--config FILE] [run | exec [--json] COMMAND | parse COMMAND]"
      return 2

def main (args : List String) : IO UInt32 :=
  (Invocation.ofArguments args {}).run
