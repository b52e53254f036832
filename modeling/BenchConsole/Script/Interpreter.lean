import BenchConsole.Script.Value
import BenchConsole.Text.Line

/-!
# Script runtimes

The rest of the library sees a scripting runtime as a `Runtime`: it executes code, assigns a
global variable, and says whether either is safe while a script is printing.

`Interpreter` is a small runtime of its own. Its programs are lines `name = literal`; blank lines
and lines that start with `#` are skipped. The statements before one that fails stay done.
-/

namespace BenchConsole.Script

open Text

/-- Why code did not run to its end. -/
inductive Error where
  | syntaxError (detail : String)
  | runtime (detail : String)
  deriving DecidableEq

def Error.message : Error → String
  | syntaxError detail => "syntax error: " ++ detail
  | runtime detail => "runtime error: " ++ detail

/-- A scripting runtime with states `ρ`. -/
structure Runtime (ρ : Type) where
  execute : String → ρ → Except Error Unit × ρ
  assign : String → Value → ρ → Except Error Unit × ρ
  /-- Whether the runtime may be entered while it is printing. -/
  reentrySafe : ρ → Bool

/-- The source of an assignment. -/
def assignment (name : String) (v : Value) : String :=
  name ++ " = " ++ v.literal

/-- A runtime that assigns by executing an assignment, and that may always be entered. -/
def Runtime.ofExecute {ρ : Type} (execute : String → ρ → Except Error Unit × ρ) : Runtime ρ where
  execute
  assign name v := execute (assignment name v)
  reentrySafe _ := true

/-- A letter or an underscore. -/
def startsIdentifier (c : Char) : Bool :=
  c.isAlpha || c == '_'

/-- A letter, a digit or an underscore. -/
def continuesIdentifier (c : Char) : Bool :=
  c.isAlphanum || c == '_'

/-- Identifiers consist of ASCII letters, digits and underscores, and do not start with a digit. -/
def isIdentifier : List Char → Bool
  | [] => false
  | c :: cs => startsIdentifier c && cs.all continuesIdentifier

/-! ## Global variables -/

/-- The global variables with their values, in ascending order of the names. -/
abbrev Globals := List (String × Value)

def Globals.insert (name : String) (v : Value) : Globals → Globals
  | [] => [(name, v)]
  | (other, w) :: rest =>
    if name = other then (name, v) :: rest
    else if name < other then (name, v) :: (other, w) :: rest
    else (other, w) :: Globals.insert name v rest

def Globals.get? (globals : Globals) (name : String) : Option Value :=
  globals.lookup name

/-! ## Statements -/

/-- The text that a quoted text stands for, its quotes taken off. -/
def unescape : List Char → Except Error (List Char)
  | [] => .ok []
  | '\\' :: [] => .error (.syntaxError "unterminated escape")
  | '\\' :: c :: cs =>
    if c = 'n' then (unescape cs).map ('\n' :: ·)
    else if c = 'r' then (unescape cs).map ('\r' :: ·)
    else if c = '"' ∨ c = '\\' ∨ c = '\'' then (unescape cs).map (c :: ·)
    else .error (.syntaxError ("unknown escape '\\" ++ String.singleton c ++ "'"))
  | c :: cs => (unescape cs).map (c :: ·)

/-- What stands between double quotes at both ends of a text. -/
def doubleQuoted? : List Char → Option (List Char)
  | [] => none
  | mark :: cs => if mark == '"' && cs.getLast? == some '"' then some cs.dropLast else none

/-- Reads a literal: `None`, a text in double quotes with escapes, or any argument literal. -/
def readValue (cs : List Char) : Except Error Value :=
  if cs = "None".toList then .ok .none
  else
    match doubleQuoted? cs with
    | some inner => (unescape inner).map fun text => .str (String.ofList text)
    | none => .ok (.ofLiteral (Literal.ofChars cs))

def runStatement (statement : List Char) (globals : Globals) : Except Error Globals :=
  match statement.span (· != '=') with
  | (_, []) =>
    .error (.syntaxError ("expected assignment, got '" ++ String.ofList statement ++ "'"))
  | (name, _ :: value) =>
    if isIdentifier (trim name) then do
      return globals.insert (String.ofList (trim name)) (← readValue (trim value))
    else .error (.syntaxError ("'" ++ String.ofList (trim name) ++ "' is not a valid name"))

/-- Executes statements up to the first one that fails. -/
def runStatements : List (List Char) → Globals → Except Error Unit × Globals
  | [], globals => (.ok (), globals)
  | statement :: rest, globals =>
    match runStatement statement globals with
    | .ok globals => runStatements rest globals
    | .error e => (.error e, globals)

def statements (code : List Char) : List (List Char) :=
  ((lines code).map trim).filter fun s => !s.isEmpty && s.head? != some '#'

/-! ## The interpreter -/

/-- The state of the small runtime. -/
structure Interpreter where
  globals : Globals := []
  reentrySafe : Bool := true
  /-- How often the runtime was entered. -/
  entries : Nat := 0
  deriving DecidableEq

namespace Interpreter

def execute (code : String) (s : Interpreter) : Except Error Unit × Interpreter :=
  let (outcome, globals) := runStatements (statements code.toList) s.globals
  (outcome, { s with globals, entries := s.entries + 1 })

/-- Assigns a variable. A name that is not an identifier is refused at the door. -/
def assign (name : String) (v : Value) (s : Interpreter) : Except Error Unit × Interpreter :=
  if isIdentifier name.toList then
    (.ok (), { s with globals := s.globals.insert name v, entries := s.entries + 1 })
  else (.error (.runtime ("'" ++ name ++ "' is not a valid name")), s)

/-- The small runtime as a runtime. -/
def runtime : Runtime Interpreter where
  execute := execute
  assign := assign
  reentrySafe := reentrySafe

end Interpreter

end BenchConsole.Script
