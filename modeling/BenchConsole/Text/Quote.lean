/-!
# Quotation marks

A quotation opens at a `"` or a `'` and lasts up to the next mark of the same kind, or to the
end of the text; there are no escapes. `cutAtCommas` cuts a text at the commas that stand
outside every quotation. `joinPieces` is the way back: pieces separated by commas.
-/

namespace BenchConsole.Text

def isQuote (c : Char) : Bool :=
  c == '"' || c == '\''

/-- The open quotation after reading `c`, given the one that was open before it. -/
def nextQuote (inside : Option Char) (c : Char) : Option Char :=
  match inside with
  | some mark => if c = mark then none else some mark
  | none => if isQuote c then some c else none

/-- Cuts at each comma outside quotations, `inside` being the quotation that is open at the
start. There is always at least one piece. -/
def cutAtCommasFrom (inside : Option Char) : List Char → List (List Char)
  | [] => [[]]
  | c :: cs =>
    if inside = none ∧ c = ',' then
      [] :: cutAtCommasFrom none cs
    else
      match cutAtCommasFrom (nextQuote inside c) cs with
      | [] => [[c]]
      | piece :: pieces => (c :: piece) :: pieces

/-- Cuts a text at each comma outside quotations. -/
def cutAtCommas (cs : List Char) : List (List Char) :=
  cutAtCommasFrom none cs

/-- Pieces one after the other, separated by a comma and a space. -/
def joinPieces : List (List Char) → List Char
  | [] => []
  | [piece] => piece
  | piece :: pieces => piece ++ ',' :: ' ' :: joinPieces pieces

end BenchConsole.Text
