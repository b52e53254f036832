import BenchConsole.Board.Limits
import BenchConsole.Board.Reply

/-!
# Converters and current sensors

The output converter (DAC) holds a voltage per channel. The input converter (ADC) reads the output
channel of the same number back, unless a reading is pinned to its channel. A current sensor has a
fixed current; its bus is at the voltage of the output channel of the same number.
-/

namespace BenchConsole.Board

inductive Quantity where
  | current
  | shuntVoltage
  | busVoltage
  | power
  deriving DecidableEq

inductive Analog.Request where
  | dacSet (channel : UInt8) (volts : Float) (persist : Bool)
  | dacGet (channel : UInt8)
  | adcGet (channel : UInt8)
  | sense (sensor : UInt8) (quantity : Quantity)
  deriving DecidableEq

structure Analog where
  dac : Array Float
  dacSaved : Array Float
  /-- Readings pinned to input channels; the first entry of a channel counts. -/
  pinned : List (UInt8 × Float) := []
  milliamps : Array Float
  deriving DecidableEq

namespace Analog

/-- The resistance of every sensor's shunt. -/
def shuntResistance : Float := 2.0

def new (limits : Limits) : Analog where
  dac := Array.replicate limits.dacChannels.toNat 0.0
  dacSaved := Array.replicate limits.dacChannels.toNat 0.0
  milliamps := Array.replicate limits.currentSensors.toNat 0.0

def pinReading (analog : Analog) (channel : UInt8) (volts : Float) : Analog :=
  { analog with pinned := (channel, volts) :: analog.pinned }

/-- Sets the current through a sensor; a sensor that the board lacks is ignored. -/
def setCurrent (analog : Analog) (sensor : UInt8) (milliamps : Float) : Analog :=
  { analog with milliamps := analog.milliamps.setIfInBounds sensor.toNat milliamps }

/-- The voltage of an output channel, zero if the board lacks it. -/
def output (analog : Analog) (channel : UInt8) : Float :=
  analog.dac[channel.toNat]?.getD 0.0

/-- The voltage that an input channel reads. -/
def input (analog : Analog) (channel : UInt8) : Float :=
  (analog.pinned.lookup channel).getD (analog.output channel)

def measure (analog : Analog) (sensor : UInt8) : Quantity → Reply
  | .current => .milliamps (analog.milliamps[sensor.toNat]?.getD 0.0)
  | .shuntVoltage =>
    .volts (analog.milliamps[sensor.toNat]?.getD 0.0 / 1000.0 * shuntResistance)
  | .busVoltage => .volts (analog.output sensor)
  | .power => .milliwatts (analog.milliamps[sensor.toNat]?.getD 0.0 * analog.output sensor)

/-- Sets an output channel, and its saved voltage too if the change persists. -/
def setOutput (analog : Analog) (channel : UInt8) (volts : Float) (persist : Bool) : Analog :=
  { analog with
    dac := analog.dac.setIfInBounds channel.toNat volts
    dacSaved :=
      if persist then analog.dacSaved.setIfInBounds channel.toNat volts else analog.dacSaved }

def handle (limits : Limits) (analog : Analog) : Request → Except Fault (Reply × Analog)
  | .dacSet channel volts persist => do
    requireIndex "dac channel" channel limits.dacChannels
    if limits.dacMinVolts ≤ volts ∧ volts ≤ limits.dacMaxVolts then
      return (.done, analog.setOutput channel volts persist)
    else
      .error (.voltageOutOfRange volts limits.dacMinVolts limits.dacMaxVolts)
  | .dacGet channel => do
    requireIndex "dac channel" channel limits.dacChannels
    return (.volts (analog.output channel), analog)
  | .adcGet channel => do
    requireIndex "adc channel" channel limits.adcChannels
    return (.volts (analog.input channel), analog)
  | .sense sensor quantity => do
    requireIndex "current sensor" sensor limits.currentSensors
    return (analog.measure sensor quantity, analog)

end Analog

end BenchConsole.Board
