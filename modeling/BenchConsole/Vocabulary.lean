import BenchConsole.Text.Word

/-!
# Categories and actions

A command names a *category* of the board and an *action* on it. Each category has its keywords;
several keywords may stand for one action.
-/

namespace BenchConsole

open Text

/-- A part of the board that commands address. -/
inductive Category where
  | gpio
  | nodes
  | dac
  | adc
  | currentSense
  | config
  | target
  | uart
  | probe
  | wheel
  | oled
  | display
  | slot
  | panel
  deriving DecidableEq, Repr

/-- What a command does to its category. -/
inductive Action where
  | set
  | get
  | direction
  | pulls
  | connect
  | disconnect
  | clear
  | check
  | current
  | shuntVoltage
  | busVoltage
  | power
  | reset
  | flash
  | print
  | simulate
  | load
  | save
  deriving DecidableEq, Repr

/-- Where a function takes its action from: the first argument names it, or the function's own name
starts with a verb. -/
inductive Form where
  | keyword
  | verb
  deriving DecidableEq, Repr

/-- The keyword that an action is written with. -/
def Action.name : Action → String
  | set => "set"
  | get => "get"
  | direction => "direction"
  | pulls => "pulls"
  | connect => "connect"
  | disconnect => "disconnect"
  | clear => "clear"
  | check => "check"
  | current => "current"
  | shuntVoltage => "shunt"
  | busVoltage => "voltage"
  | power => "power"
  | reset => "reset"
  | flash => "flash"
  | print => "print"
  | simulate => "simulate"
  | load => "load"
  | save => "save"

def Action.all : List Action :=
  [.set, .get, .direction, .pulls, .connect, .disconnect, .clear, .check, .current, .shuntVoltage,
    .busVoltage, .power, .reset, .flash, .print, .simulate, .load, .save]

namespace Category

def all : List Category :=
  [gpio, nodes, dac, adc, currentSense, config, target, uart, probe, wheel, oled, display, slot,
    panel]

/-- The name of the function that takes the category's actions as keywords. -/
def name : Category → String
  | gpio => "gpio"
  | nodes => "nodes"
  | dac => "dac"
  | adc => "adc"
  | currentSense => "ina"
  | config => "config"
  | target => "target"
  | uart => "uart"
  | probe => "probe"
  | wheel => "wheel"
  | oled => "oled"
  | display => "display"
  | slot => "slot"
  | panel => "panel"

/-- The keywords of a category and the actions they stand for. -/
def keywords : Category → List (String × Action)
  | gpio =>
    [("set", .set), ("get", .get), ("direction", .direction), ("dir", .direction),
      ("pulls", .pulls), ("pull", .pulls)]
  | nodes =>
    [("connect", .connect), ("add", .connect), ("disconnect", .disconnect),
      ("remove", .disconnect), ("clear", .clear), ("check", .check)]
  | dac => [("set", .set), ("get", .get)]
  | adc => [("get", .get), ("read", .get)]
  | currentSense =>
    [("current", .current), ("get", .current), ("shunt", .shuntVoltage),
      ("voltage", .busVoltage), ("bus_voltage", .busVoltage), ("power", .power)]
  | config => [("get", .get), ("set", .set), ("reset", .reset)]
  | target => [("reset", .reset), ("flash", .flash)]
  | uart => [("connect", .connect), ("disconnect", .disconnect), ("set", .set), ("get", .get)]
  | probe => [("get", .get), ("read", .get), ("simulate", .simulate)]
  | wheel => [("get", .get), ("simulate", .simulate)]
  | oled =>
    [("print", .print), ("clear", .clear), ("connect", .connect), ("disconnect", .disconnect)]
  | display => [("print", .print), ("set", .set), ("get", .get)]
  | slot => [("load", .load), ("save", .save), ("clear", .clear), ("get", .get)]
  | panel => [("set", .set), ("get", .get)]

/-- The action that a keyword stands for, in any case of its letters. -/
def lookup (category : Category) (keyword : String) : Option Action :=
  (category.keywords.find? fun entry => sameName entry.1 keyword).map Prod.snd

end Category

end BenchConsole
