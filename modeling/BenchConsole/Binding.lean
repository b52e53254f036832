import BenchConsole.Command
import BenchConsole.Failure
import BenchConsole.Signature

/-!
# Binding arguments to parameters

A binding is a signature in which each parameter has received a value or none. Arguments passed by
position fill the parameters in order; then those passed by name are placed one after the other;
then every parameter is checked, in order: its value has to be of its kind, and a required one
has to have a value.

The *echo* of a binding is the call written out with every value by name.
-/

namespace BenchConsole

open Text

/-- A parameter with the value it received. -/
structure Place where
  parameter : Parameter
  value : Option Literal
  deriving DecidableEq

/-- The arguments of a command, matched to the parameters of its action. -/
structure Binding where
  category : Category
  action : Action
  places : List Place
  deriving DecidableEq

/-- The category and action of a command, as errors name them. -/
def Command.heading (c : Command) : String :=
  c.category.name ++ "(" ++ c.action.name ++ ")"

namespace Place

/-- What is wrong with a parameter after all arguments are placed. -/
def fault? (heading : String) (place : Place) : Option Failure :=
  match place.value with
  | some v =>
    if place.parameter.kind.accepts v then none
    else
      some (.invalidParameterType (heading ++ " expects " ++ place.parameter.kind.description ++
        " for '" ++ place.parameter.name ++ "', got " ++ v.typeName ++ " " ++ v.render))
  | none =>
    if place.parameter.required then some (.missingParameter heading place.parameter.name) else none

/-- How a value is echoed; a level always as its word. -/
def echoValue (kind : ParameterKind) (v : Literal) : String :=
  match kind, v with
  | .level, .bool b => levelWord b
  | .level, .int v => levelWord (v != 0)
  | .level, .string s => String.ofList (upper s.toList)
  | _, v => v.render

/-- The part of the echo that is about one parameter. -/
def echo (place : Place) : String :=
  match place.value with
  | some v => ", " ++ place.parameter.name ++ "=" ++ echoValue place.parameter.kind v
  | none => ""

end Place

namespace Binding

/-- Gives the values passed by position to the first parameters; `none` if they are too many. -/
def fillPositional : List Parameter → List Literal → Option (List Place)
  | parameters, [] => some (parameters.map (⟨·, none⟩))
  | [], _ :: _ => none
  | p :: parameters, v :: values => (fillPositional parameters values).map (⟨p, some v⟩ :: ·)

/-- Gives a value to the parameter of a given name. -/
def fillNamed (heading : String) (places : List Place) (name : String) (v : Literal) :
    Except Failure (List Place) :=
  match places.findIdx? (fun place => sameName place.parameter.name name) with
  | none => .error (.invalidParameterType (heading ++ " has no parameter '" ++ name ++ "'"))
  | some i =>
    match places[i]? with
    | some ⟨parameter, none⟩ => .ok (places.set i ⟨parameter, some v⟩)
    | some ⟨parameter, some _⟩ =>
      .error (.invalidParameterType (heading ++ " given '" ++ parameter.name ++ "' twice"))
    | none => .ok places

/-- Places one argument that is passed by name; others are left out. -/
def placeNamed (heading : String) (places : List Place) (a : Argument) :
    Except Failure (List Place) :=
  match a.name with
  | some name => fillNamed heading places name a.value
  | none => .ok places

def fill (c : Command) (parameters : List Parameter) : Except Failure (List Place) :=
  match fillPositional parameters c.positional with
  | none =>
    .error (.invalidParameterType (c.heading ++ " takes " ++ toString parameters.length ++
      " argument(s), got more"))
  | some places => c.arguments.foldlM (placeNamed c.heading) places

/-- Matches the arguments of a command to parameters. -/
def ofCommand (c : Command) (parameters : List Parameter) : Except Failure Binding := do
  let places ← fill c parameters
  match places.findSome? (Place.fault? c.heading) with
  | some e => .error e
  | none => .ok ⟨c.category, c.action, places⟩

/-- The call with the values that were supplied, each by name. -/
def echo (b : Binding) : String :=
  b.category.name ++ "(" ++ b.action.name ++ String.join (b.places.map Place.echo) ++ ")"

/-! ## Values of parameters -/

/-- The value that a parameter received. -/
def value? (b : Binding) (name : String) : Option Literal :=
  (b.places.find? fun place => place.parameter.name == name).bind Place.value

/-- The error for a parameter without a usable value. -/
def missing (b : Binding) (name : String) : Failure :=
  .missingParameter b.echo name

def int64 (b : Binding) (name : String) : Except Failure Int64 :=
  match b.value? name with
  | some (.int v) => .ok v
  | _ => .error (b.missing name)

/-- The value of an integer parameter that has to fit `width` bits without a sign. -/
def unsigned (b : Binding) (width : Nat) (name : String) : Except Failure Nat := do
  let v ← b.int64 name
  if 0 ≤ v.toInt ∧ v.toInt < Nat.pow 2 width then return v.toInt.toNat
  else
    .error (.invalidParameterType (name ++ " value " ++ toString v.toInt ++ " out of range"))

def uint8 (b : Binding) (name : String) : Except Failure UInt8 :=
  (b.unsigned 8 name).map UInt8.ofNat

def uint16 (b : Binding) (name : String) : Except Failure UInt16 :=
  (b.unsigned 16 name).map UInt16.ofNat

def uint32 (b : Binding) (name : String) : Except Failure UInt32 :=
  (b.unsigned 32 name).map UInt32.ofNat

/-- An integer of 8 bits, zero if it was not supplied. -/
def uint8OrZero (b : Binding) (name : String) : Except Failure UInt8 :=
  match b.value? name with
  | some _ => b.uint8 name
  | none => .ok 0

def number (b : Binding) (name : String) : Except Failure Float :=
  match (b.value? name).bind Literal.number? with
  | some x => .ok x
  | none => .error (b.missing name)

/-- The value of a text parameter; a value that is not a text is written out. -/
def text (b : Binding) (name : String) : Except Failure String :=
  match b.value? name with
  | some (.string s) => .ok s
  | some v => .ok v.render
  | none => .error (b.missing name)

/-- The value of a flag, true if it was not supplied. -/
def flagOrTrue (b : Binding) (name : String) : Bool :=
  match b.value? name with
  | some (.bool flag) => flag
  | some (.int v) => v != 0
  | _ => true

/-- The value of a level parameter. -/
def level (b : Binding) (name : String) : Except Failure Bool :=
  match b.value? name with
  | some (.bool high) => .ok high
  | some (.int v) => .ok (v != 0)
  | some (.string s) =>
    match levelOfWord? s with
    | some high => .ok high
    | none => .error (b.missing name)
  | _ => .error (b.missing name)

end Binding

end BenchConsole
