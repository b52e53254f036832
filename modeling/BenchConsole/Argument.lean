import BenchConsole.Literal

/-!
# Arguments

An argument is a literal, with a name in front of it or without: `0` or `save=false`. An equals
sign sets off a name only if it comes before every quotation mark and parenthesis and if
something other than blanks stands before it; otherwise the whole text is the literal.
-/

namespace BenchConsole

open Text

/-- A literal passed to a command, by name or by position. -/
structure Argument where
  name : Option String
  value : Literal
  deriving DecidableEq

namespace Argument

def positional (value : Literal) : Argument :=
  ⟨none, value⟩

/-- An argument passed by name; a long name is cut. -/
def named (name : List Char) (value : Literal) : Argument :=
  ⟨some (String.ofList (bounded name)), value⟩

def chars (a : Argument) : List Char :=
  match a.name with
  | some name => name.toList ++ '=' :: a.value.chars
  | none => a.value.chars

def render (a : Argument) : String :=
  String.ofList a.chars

/-- The characters that end the search for a name. -/
def endsName (c : Char) : Bool :=
  c == '=' || isQuote c || c == '(' || c == ')'

def ofChars (cs : List Char) : Argument :=
  let text := trim cs
  match text.span (fun c => !endsName c) with
  | (name, '=' :: value) =>
    if (trim name).isEmpty then positional (Literal.ofChars text)
    else named (trim name) (Literal.ofChars value)
  | _ => positional (Literal.ofChars text)

def parse (s : String) : Argument :=
  ofChars s.toList

end Argument

end BenchConsole
