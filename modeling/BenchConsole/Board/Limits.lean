import BenchConsole.Board.Fault

/-!
# Limits of a board

How many pins, nodes, channels, sensors and slots a board has, and the voltages its converter may
be set to. Node numbers start at one, all other numbers at zero.
-/

namespace BenchConsole.Board

structure Limits where
  gpioPins : UInt8 := 10
  nodeCount : UInt16 := 120
  dacChannels : UInt8 := 4
  dacMinVolts : Float := -8.0
  dacMaxVolts : Float := 8.0
  adcChannels : UInt8 := 5
  currentSensors : UInt8 := 2
  slots : UInt8 := 8
  uartBaud : UInt32 := 115200
  deriving DecidableEq

/-- Refuses a node that the board lacks. -/
def requireNode (limits : Limits) (node : UInt16) : Except Fault Unit :=
  if node = 0 ∨ limits.nodeCount < node then
    .error (.outOfRange "node" node.toNat (limits.nodeCount.toNat + 1))
  else .ok ()

/-- Refuses the number of a channel, sensor or slot that the board lacks. -/
def requireIndex (what : String) (index limit : UInt8) : Except Fault Unit :=
  if limit ≤ index then .error (.outOfRange what index.toNat limit.toNat) else .ok ()

end BenchConsole.Board
