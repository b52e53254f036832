import BenchConsole.Argument
import BenchConsole.FunctionTable

/-!
# Commands

A command is a call of a known function whose action is settled. It is written the way it was
called: `Command.chars` gives its *canonical* text, `function(arguments)`, where a function that
takes its action as a keyword has the keyword in front of the arguments.
-/

namespace BenchConsole

open Text

/-- A call of a known function. -/
structure Command where
  /-- The function's name as it was written. -/
  function : String
  category : Category
  action : Action
  /-- The keyword as it was written, or the verb that the function's name starts with. -/
  actionText : String
  form : Form
  /-- The arguments, without the keyword. -/
  arguments : List Argument
  deriving DecidableEq

namespace Command

/-- The pieces between a command's parentheses. -/
def pieces (c : Command) : List (List Char) :=
  let arguments := c.arguments.map Argument.chars
  match c.form with
  | .keyword => c.actionText.toList :: arguments
  | .verb => arguments

def chars (c : Command) : List Char :=
  c.function.toList ++ '(' :: joinPieces c.pieces ++ [')']

def render (c : Command) : String :=
  String.ofList c.chars

/-- The values passed by position, in order. -/
def positional (c : Command) : List Literal :=
  (c.arguments.filter fun a => a.name.isNone).map Argument.value

/-- The first value passed by a given name, in any case of its letters. -/
def named (c : Command) (name : String) : Option Literal :=
  (c.arguments.find? fun a => a.name.any (sameName · name)).map Argument.value

end Command

end BenchConsole
