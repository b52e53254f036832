import BenchConsole.Board.Fault
import BenchConsole.Board.Reply

/-!
# The target board and its serial bridge

The target can be reset at any time, but flashed only through a connected bridge. Both are counted;
at the end of its range a counter does not start again but stops the program.
-/

namespace BenchConsole.Board

inductive Target.Request where
  | reset
  | flash
  | uartConnect
  | uartDisconnect
  | uartSetBaud (baud : UInt32)
  | uartGetBaud
  deriving DecidableEq

structure Target where
  uartConnected : Bool := false
  uartBaud : UInt32
  resets : UInt32 := 0
  flashes : UInt32 := 0
  deriving DecidableEq

/-- The next value of a counter. -/
def increment (count : UInt32) : Except Stop UInt32 :=
  if count.toNat + 1 < UInt32.size then .ok (count + 1) else .error .overflow

def Target.handle (target : Target) : Target.Request → Except Stop (Reply × Target)
  | .reset => do
    let resets ← increment target.resets
    return (.done, { target with resets })
  | .flash =>
    if target.uartConnected then do
      let flashes ← increment target.flashes
      return (.done, { target with flashes })
    else .error (.refused (.notConnected "uart bridge"))
  | .uartConnect => .ok (.done, { target with uartConnected := true })
  | .uartDisconnect => .ok (.done, { target with uartConnected := false })
  | .uartSetBaud baud =>
    if baud = 0 then .error (.refused (.failed "baud rate must be > 0"))
    else .ok (.done, { target with uartBaud := baud })
  | .uartGetBaud => .ok (.int (Int64.ofNat target.uartBaud.toNat), target)

end BenchConsole.Board
