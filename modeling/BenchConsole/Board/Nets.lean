import BenchConsole.Board.Limits
import BenchConsole.Board.Netlist
import BenchConsole.Board.Reply

/-!
# The crossbar and its slots

Connections are live; those made to persist are saved as well. A slot keeps a copy of the live
connections. Loading a slot makes its copy both live and saved; an empty slot counts as a copy
without connections.
-/

namespace BenchConsole.Board

inductive Nets.Request where
  | connect (a b : UInt16) (persist : Bool)
  | disconnect (a b : UInt16) (persist : Bool)
  | clear (persist : Bool)
  | connected (a b : UInt16)
  | list
  | loadSlot (slot : UInt8)
  | saveSlot (slot : UInt8)
  | clearSlot (slot : UInt8)
  | currentSlot
  deriving DecidableEq

structure Nets where
  live : Netlist := {}
  saved : Netlist := {}
  slots : Array (Option Netlist)
  current : UInt8 := 0
  deriving DecidableEq

namespace Nets

def new (limits : Limits) : Nets :=
  { slots := Array.replicate limits.slots.toNat none }

/-- Changes the live connections, and the saved ones too if the change persists. -/
def update (nets : Nets) (persist : Bool) (change : Netlist → Netlist) : Nets :=
  { nets with
    live := change nets.live
    saved := if persist then change nets.saved else nets.saved }

/-- What a slot holds. -/
def stored (nets : Nets) (slot : UInt8) : Netlist :=
  (nets.slots[slot.toNat]?.join).getD {}

/-- Puts something else into a slot. -/
def store (nets : Nets) (slot : UInt8) (content : Option Netlist) : Nets :=
  { nets with slots := nets.slots.setIfInBounds slot.toNat content }

def handle (limits : Limits) (nets : Nets) : Request → Except Fault (Reply × Nets)
  | .connect a b persist => do
    requireNode limits a
    requireNode limits b
    if a = b then
      .error (.failed ("cannot connect node " ++ toString a.toNat ++ " to itself"))
    else
      return (.done, nets.update persist (·.insert (.between a b)))
  | .disconnect a b persist => do
    requireNode limits a
    requireNode limits b
    return (.done, nets.update persist (·.erase (.between a b)))
  | .clear persist => .ok (.done, nets.update persist fun _ => {})
  | .connected a b => do
    requireNode limits a
    requireNode limits b
    return (.flag (nets.live.contains (.between a b)), nets)
  | .list => .ok (.text nets.live.text, nets)
  | .loadSlot slot => do
    requireIndex "slot" slot limits.slots
    return (.done,
      { nets with live := nets.stored slot, saved := nets.stored slot, current := slot })
  | .saveSlot slot => do
    requireIndex "slot" slot limits.slots
    return (.done, { nets.store slot (some nets.live) with current := slot })
  | .clearSlot slot => do
    requireIndex "slot" slot limits.slots
    return (.done, nets.store slot none)
  | .currentSlot => .ok (.int (Int64.ofNat nets.current.toNat), nets)

end Nets

end BenchConsole.Board
