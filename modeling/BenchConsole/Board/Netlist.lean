/-!
# Sets of connections

A connection joins two different nodes; the smaller number comes first. A netlist holds each of
its connections once, in ascending order, which is also the order it is listed in.
-/

namespace BenchConsole.Board

/-- A pair of nodes. -/
structure Link where
  low : UInt16
  high : UInt16
  deriving DecidableEq

namespace Link

/-- The pair of two nodes, the smaller one first. -/
def between (a b : UInt16) : Link :=
  if a ≤ b then ⟨a, b⟩ else ⟨b, a⟩

/-- Links are ordered by their low ends, then by their high ends. -/
def before (x y : Link) : Bool :=
  x.low < y.low || (x.low == y.low && x.high < y.high)

def text (link : Link) : String :=
  toString link.low.toNat ++ "-" ++ toString link.high.toNat

end Link

/-- A set of links, in ascending order. -/
structure Netlist where
  links : List Link := []
  deriving DecidableEq

namespace Netlist

def contains (nets : Netlist) (link : Link) : Bool :=
  nets.links.contains link

/-- A link put in its place in an ascending list, unless it is there already. -/
def insertSorted (link : Link) : List Link → List Link
  | [] => [link]
  | other :: links =>
    if link = other then other :: links
    else if link.before other then link :: other :: links
    else other :: insertSorted link links

def insert (nets : Netlist) (link : Link) : Netlist :=
  ⟨insertSorted link nets.links⟩

def erase (nets : Netlist) (link : Link) : Netlist :=
  ⟨nets.links.erase link⟩

def size (nets : Netlist) : Nat :=
  nets.links.length

/-- The links in order, separated by commas. -/
def text (nets : Netlist) : String :=
  if nets.links.isEmpty then "no connections"
  else String.intercalate "," (nets.links.map Link.text)

end Netlist

end BenchConsole.Board
