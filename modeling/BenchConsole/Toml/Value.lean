/-!
# Values of a configuration document

A document is a table of values by key. Tables remember how they came about, because that decides
what may still be added to them. Numbers are kept as they are written: what a numeral is worth, and
whether anything can hold it, is asked only of the values that are used. The moments in time that
the format knows are checked when they are read, but their values are not kept.
-/

namespace BenchConsole.Toml

/-- How a table came about. -/
inductive TableKind where
  /-- By a header of its own. -/
  | header
  /-- By a header of a table inside it. -/
  | implied
  /-- By a dotted key. -/
  | dotted
  /-- Written between braces; nothing can be added to it. -/
  | inline
  deriving DecidableEq

/-- A value of a document. -/
inductive Value where
  | string (value : String)
  /-- An integer, by its sign and its digits in some base. -/
  | integer (base : Nat) (numeral : List Char)
  /-- A float, by its numeral. -/
  | float (numeral : List Char)
  | boolean (value : Bool)
  | datetime
  | array (items : List Value)
  | table (kind : TableKind) (entries : List (String × Value))
  /-- An array of tables, each begun by a header; the last one is open to additions. -/
  | tables (earlier : List (List (String × Value))) (last : List (String × Value))

/-- The keys of a table with their values. -/
abbrev Entries := List (String × Value)

namespace Entries

/-- Changes the value of one key; the change fails or gives the new value. -/
def alter (key : String) (change : Option Value → Option Value) : Entries → Option Entries
  | [] => (change none).map fun v => [(key, v)]
  | (other, v) :: rest =>
    if other = key then (change (some v)).map fun v => (key, v) :: rest
    else (alter key change rest).map ((other, v) :: ·)

/-- Changes the table that the path of a header leads to. Tables on the way that are missing are
implied by the header; an array of tables stands for its last table. -/
def atTable (change : Entries → Option Entries) : List String → Entries → Option Entries
  | [], entries => change entries
  | key :: path, entries =>
    entries.alter key fun
      | none => (atTable change path []).map (.table .implied)
      | some (.table .inline _) => none
      | some (.table kind inner) => (atTable change path inner).map (.table kind)
      | some (.tables earlier last) => (atTable change path last).map (.tables earlier)
      | some _ => none

/-- Begins a table by its header; only an implied table may get a header later. -/
def define (key : String) (entries : Entries) : Option Entries :=
  entries.alter key fun
    | none => some (.table .header [])
    | some (.table .implied inner) => some (.table .header inner)
    | some _ => none

/-- Begins another table of an array of tables. -/
def append (key : String) (entries : Entries) : Option Entries :=
  entries.alter key fun
    | none => some (.tables [] [])
    | some (.tables earlier last) => some (.tables (earlier ++ [last]) [])
    | some _ => none

/-- Gives a key its value, once. A dotted key leads through tables that dotted keys made, or that
are implied, or that are the last of an array of tables; it ends in a table that takes keys, which
`accepts` says of the table at hand. -/
def assign (v : Value) : Bool → List String → Entries → Option Entries
  | _, [], _ => none
  | accepts, [key], entries =>
    if accepts then
      entries.alter key fun
        | none => some v
        | some _ => none
    else none
  | _, key :: path, entries =>
    entries.alter key fun
      | none => (assign v true path []).map (.table .dotted)
      | some (.table .dotted inner) => (assign v true path inner).map (.table .dotted)
      | some (.table .implied inner) => (assign v false path inner).map (.table .implied)
      | some (.tables earlier last) => (assign v false path last).map (.tables earlier)
      | some _ => none

end Entries

end BenchConsole.Toml
