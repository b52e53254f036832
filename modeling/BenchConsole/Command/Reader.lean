import BenchConsole.Command
import BenchConsole.Failure

/-!
# Reading commands

A command text is `name(body)`: the name ends at the first opening parenthesis, the body at the
last closing one, and only blanks may follow. The body is cut at its commas into at most
`maxPieces` pieces, none of which may be blank. The checks come in a fixed order, and the first
one that fails gives the error: the parentheses, the name, the pieces, the action.
-/

namespace BenchConsole

open Text

namespace Command

/-- The most pieces that a body may have, keyword included. -/
def maxPieces : Nat := 8

/-- An error about the parentheses of a command text. -/
def malformed (problem : String) (text : List Char) : Failure :=
  .invalidCommand (problem ++ " in '" ++ String.ofList text ++ "'")

/-- Splits a text at the last occurrence of a character. -/
def splitLast? (mark : Char) (cs : List Char) : Option (List Char × List Char) :=
  match cs.reverse.span (· != mark) with
  | (_, []) => none
  | (after, _ :: before) => some (before.reverse, after.reverse)

/-- Splits a command text without blanks around it into name and body. -/
def splitCall (text : List Char) : Except Failure (List Char × List Char) :=
  match text.span (· != '(') with
  | (_, []) => .error (malformed "missing '('" text)
  | (name, _ :: rest) =>
    match splitLast? ')' rest with
    | none => .error (malformed "missing ')'" text)
    | some (body, after) =>
      if !(trim after).isEmpty then .error (malformed "unexpected text after ')'" text)
      else if (trim name).isEmpty then .error (malformed "missing function name" text)
      else .ok (bounded (trim name), body)

/-- The pieces of a body, without the blanks around them; a blank body has none. -/
def bodyPieces (body : List Char) : List (List Char) :=
  if (trim body).isEmpty then [] else (cutAtCommas body).map trim

/-- The pieces of a body, if there are not too many and none is blank. -/
def checkedPieces (function : String) (body : List Char) :
    Except Failure (List (List Char)) :=
  let pieces := bodyPieces body
  if maxPieces < pieces.length then
    .error (.invalidParameterType (function ++ " takes at most " ++ toString maxPieces ++
      " arguments, got " ++ toString pieces.length))
  else
    match pieces.findIdx? List.isEmpty with
    | some i =>
      .error (.invalidParameterType ("empty argument at position " ++ toString (i + 1) ++ " in " ++
        function))
    | none => .ok pieces

/-- The word that a piece stands for as a keyword: it has no name and reads as a text. -/
def keywordWord? (piece : List Char) : Option String :=
  match Argument.ofChars piece with
  | ⟨none, .string word⟩ => some word
  | _ => none

/-- The command of a function and its pieces. -/
def ofPieces (function : String) (entry : FunctionEntry) (pieces : List (List Char)) :
    Except Failure Command :=
  match entry.form with
  | .keyword =>
    let keyword := pieces.headD []
    match (keywordWord? keyword).bind entry.category.lookup with
    | some action =>
      .ok
        { function
          category := entry.category
          action
          actionText := String.ofList keyword
          form := .keyword
          arguments := pieces.tail.map Argument.ofChars }
    | none => .error (.invalidSubaction function (String.ofList keyword))
  | .verb =>
    let verb := (FunctionTable.verbOf? function).getD ""
    match FunctionTable.impliedAction function entry.category with
    | some action =>
      .ok
        { function
          category := entry.category
          action
          actionText := verb
          form := .verb
          arguments := pieces.map Argument.ofChars }
    | none => .error (.invalidSubaction function verb)

def ofChars (cs : List Char) : Except Failure Command := do
  let (name, body) ← splitCall (trim cs)
  let function := String.ofList name
  match FunctionTable.resolve function with
  | none => .error (.invalidFunction function)
  | some entry => ofPieces function entry (← checkedPieces function body)

def parse (s : String) : Except Failure Command :=
  ofChars s.toList

end Command

end BenchConsole
