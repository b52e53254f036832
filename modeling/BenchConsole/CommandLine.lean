import BenchConsole.LogLevel
import BenchConsole.Session
import BenchConsole.Settings

/-!
# The command line

The program runs one command and prints its answer, shows how a command is read, or runs a
console session. What it does is a function of its settings and its input.
-/

namespace BenchConsole

open Number

/-- What the program is asked to do. -/
inductive Task where
  /-- Runs one command; the answer is printed as JSON if `json`. -/
  | exec (command : String) (json : Bool)
  /-- Shows how a command is read. -/
  | parse (command : String)
  /-- Runs a console session on an input. -/
  | run (input : String)

/-- What the program leaves behind. -/
structure Report where
  exitCode : UInt32 := 0
  stdout : String := ""
  stderr : String := ""

namespace Report

def failure (message : String) : Report where
  exitCode := 1
  stderr := message ++ "\n"

def ofLines (lines : List String) : Report where
  stdout := Session.printedLines lines

end Report

/-- A character inside a JSON text. -/
def jsonChar (c : Char) : List Char :=
  if c = '"' then ['\\', '"']
  else if c = '\\' then ['\\', '\\']
  else if c = '\n' then ['\\', 'n']
  else if c = '\r' then ['\\', 'r']
  else if c = '\t' then ['\\', 't']
  else if c = '\x08' then ['\\', 'b']
  else if c = '\x0c' then ['\\', 'f']
  else if c.toNat < 0x20 then
    let digits := Nat.toDigits 16 c.toNat
    '\\' :: 'u' :: List.replicate (4 - digits.length) '0' ++ digits
  else [c]

/-- A JSON text. -/
def jsonString (s : String) : String :=
  String.ofList ('"' :: s.toList.flatMap jsonChar ++ ['"'])

/-- An answer as a JSON object, one field per line. -/
def Answer.jsonLines (r : Answer) : List String :=
  ["\x7b", "  \"value_text\": " ++ jsonString r.text ++ ",",
    "  \"type_tag\": " ++ jsonString r.tag.name ++ ",",
    "  \"numeric\": " ++ String.ofList (jsonText r.numeric), "\x7d"]

def Form.title : Form → String
  | .keyword => "Keyword"
  | .verb => "Verb"

/-- The lines that show how a command was read. -/
def Command.describe (c : Command) : List String :=
  ["canonical:  " ++ c.render, "function:   " ++ c.function, "category:   " ++ c.category.name,
    "sub-action: " ++ c.action.name ++ " (" ++ c.form.title ++ ")"] ++
  c.arguments.mapIdx fun i a =>
    "arg[" ++ toString i ++ "]:     " ++ a.render ++ " (" ++ a.value.typeName ++ ")"

namespace CommandLine

/-- Reads the settings of the program from the text of a document. -/
def readSettings (text : String) : Except SettingsError Settings :=
  Settings.ofText LogLevel.isLevel text

/-- Does a task with valid settings. -/
def perform (settings : Settings) : Task → Report
  | .exec command json =>
    match ((Session.new settings.board settings.protocol).call command).1 with
    | .ok r => .ofLines (if json then r.jsonLines else [Session.answerText r])
    | .error e => .failure (Session.failureText e)
  | .parse command =>
    match Command.parse command with
    | .ok c => .ofLines c.describe
    | .error e => .failure (Session.failureText e)
  | .run input => { stdout := ((Session.new settings.board settings.protocol).run input).1 }

/-- Does a task with the settings of a document that was found at `path`. -/
def performWith (path : String) (settings : Except SettingsError Settings) (task : Task) : Report :=
  match settings with
  | .ok settings => perform settings task
  | .error e => .failure ("Failed to load config " ++ path ++ ": " ++ e.message)

end CommandLine

end BenchConsole
