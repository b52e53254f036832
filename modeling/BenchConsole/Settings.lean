import BenchConsole.Board.Limits
import BenchConsole.Relay.Protocol
import BenchConsole.Toml.Document

/-!
# Settings

The settings of the relay, the board and the log come from a configuration document. Everything
in it has a default, and keys without a meaning are ignored. Settings that are well formed are
*valid* if the relay and the board can work with them.
-/

namespace BenchConsole

open Number

structure Settings where
  protocol : Relay.Protocol := {}
  board : Board.Limits := {}
  /-- The log level, as it was written. -/
  logLevel : String := "info"
  deriving DecidableEq

/-- Why settings cannot be used. -/
inductive SettingsError where
  /-- The document cannot be had. -/
  | unreadable (reason : String)
  /-- The document is malformed, or a value in it has the wrong type or size. -/
  | malformed
  | invalid (reason : String)
  deriving DecidableEq

def SettingsError.message : SettingsError → String
  | unreadable reason => "IO error: " ++ reason
  | malformed => "TOML parse error"
  | invalid reason => "invalid config: " ++ reason

namespace Settings

/-! ## Validity -/

/-- Whether one text starts with another. -/
def startsWith (text start : String) : Bool :=
  start.toList.isPrefixOf text.toList

/-- The first reason for which settings are not valid. The log decides on what a level is. -/
def problem? (s : Settings) (isLevel : String → Bool) : Option String :=
  let p := s.protocol
  let b := s.board
  if p.queueCapacity = 0 then some "queue_capacity must be > 0"
  else if p.pollAttempts = 0 then some "poll_attempts must be > 0"
  else if p.syncSentinel.isEmpty || p.queueSentinel.isEmpty then
    some "sentinel prefixes must not be empty"
  else if startsWith p.syncSentinel p.queueSentinel ||
      startsWith p.queueSentinel p.syncSentinel then
    some ("sentinel prefixes '" ++ p.syncSentinel ++ "' and '" ++ p.queueSentinel ++ "' overlap")
  else if b.dacMaxVolts ≤ b.dacMinVolts then
    some ("dac range " ++ String.ofList (floatText b.dacMinVolts) ++ ".." ++
      String.ofList (floatText b.dacMaxVolts) ++ " is empty")
  else if !isLevel s.logLevel then some ("unknown log level '" ++ s.logLevel ++ "'")
  else none

def validate (s : Settings) (isLevel : String → Bool) : Except SettingsError Unit :=
  match s.problem? isLevel with
  | some reason => .error (.invalid reason)
  | none => .ok ()

/-! ## Reading -/

/-- The value of a field of a record: by its name in a table, by its place in an array. -/
def field? (record : Toml.Value) (place : Nat) (name : String) : Option Toml.Value :=
  match record with
  | .table _ entries => entries.lookup name
  | .array items => items[place]?
  | _ => none

/-- The values that can stand for a record with some fields. A date or time is one without any.
The entries of a table beyond the fields have no meaning, but they have to be readable; the items
of an array beyond the fields are not looked at. -/
def isRecord (fields : List String) : Toml.Value → Bool
  | .table _ entries => entries.all fun (name, v) => fields.contains name || v.isReadable
  | .array _ => true
  | .datetime => true
  | _ => false

/-- A field of a record, or its default if it is missing. -/
def read {α : Type} (record : Toml.Value) (place : Nat) (name : String)
    (convert : Toml.Value → Option α) (default : α) : Option α :=
  match field? record place name with
  | some v => convert v
  | none => some default

def asText : Toml.Value → Option String
  | .string s => some s
  | _ => none

/-- An integer from zero up to a bound. -/
def asBelow (bound : Nat) : Toml.Value → Option Nat
  | .integer base numeral =>
    (Toml.integerValue? base numeral).bind fun v =>
      if 0 ≤ v ∧ v < bound then some v.toNat else none
  | _ => none

/-- A float, or an integer that fits 64 bits with or without a sign. -/
def asFloat : Toml.Value → Option Float
  | .float numeral => Toml.floatValue? numeral
  | .integer base numeral =>
    (Toml.integerValue? base numeral).bind fun v =>
      if -(Nat.pow 2 63 : Int) ≤ v ∧ v < Nat.pow 2 64 then some (Binary64.ofInt v) else none
  | _ => none

def protocolFields : List String :=
  ["sync_prefix", "queue_prefix", "queue_capacity", "poll_attempts", "poll_interval_us",
    "parse_cache_capacity"]

/-- The settings of the relay. -/
def readProtocol (record : Toml.Value) : Option Relay.Protocol :=
  if !isRecord protocolFields record then none
  else do
    let d : Relay.Protocol := {}
    return {
      syncSentinel := ← read record 0 "sync_prefix" asText d.syncSentinel
      queueSentinel := ← read record 1 "queue_prefix" asText d.queueSentinel
      queueCapacity := ← read record 2 "queue_capacity" (asBelow (Nat.pow 2 64)) d.queueCapacity
      pollAttempts := ← read record 3 "poll_attempts" (asBelow (Nat.pow 2 32)) d.pollAttempts
      pollInterval := ← read record 4 "poll_interval_us" (asBelow (Nat.pow 2 64)) d.pollInterval
      memoCapacity :=
        ← read record 5 "parse_cache_capacity" (asBelow (Nat.pow 2 64)) d.memoCapacity }

def asUInt8 (v : Toml.Value) : Option UInt8 :=
  (asBelow (Nat.pow 2 8) v).map UInt8.ofNat

def asUInt16 (v : Toml.Value) : Option UInt16 :=
  (asBelow (Nat.pow 2 16) v).map UInt16.ofNat

def asUInt32 (v : Toml.Value) : Option UInt32 :=
  (asBelow (Nat.pow 2 32) v).map UInt32.ofNat

def boardFields : List String :=
  ["gpio_pins", "node_count", "dac_channels", "dac_min_volts", "dac_max_volts", "adc_channels",
    "current_sensors", "slots", "uart_baud"]

def readBoard (record : Toml.Value) : Option Board.Limits :=
  if !isRecord boardFields record then none
  else do
    let d : Board.Limits := {}
    return {
      gpioPins := ← read record 0 "gpio_pins" asUInt8 d.gpioPins
      nodeCount := ← read record 1 "node_count" asUInt16 d.nodeCount
      dacChannels := ← read record 2 "dac_channels" asUInt8 d.dacChannels
      dacMinVolts := ← read record 3 "dac_min_volts" asFloat d.dacMinVolts
      dacMaxVolts := ← read record 4 "dac_max_volts" asFloat d.dacMaxVolts
      adcChannels := ← read record 5 "adc_channels" asUInt8 d.adcChannels
      currentSensors := ← read record 6 "current_sensors" asUInt8 d.currentSensors
      slots := ← read record 7 "slots" asUInt8 d.slots
      uartBaud := ← read record 8 "uart_baud" asUInt32 d.uartBaud }

def readLogging (record : Toml.Value) : Option String :=
  if !isRecord ["level"] record then none else read record 0 "level" asText "info"

/-- The settings in a document, valid or not. -/
def ofEntries (entries : Toml.Entries) : Option Settings :=
  let record := Toml.Value.table .header entries
  if !isRecord ["protocol", "board", "logging"] record then none
  else do
    return {
      protocol := ← read record 0 "protocol" readProtocol {}
      board := ← read record 1 "board" readBoard {}
      logLevel := ← read record 2 "logging" readLogging "info" }

/-- Reads valid settings from the text of a document. -/
def ofText (isLevel : String → Bool) (text : String) : Except SettingsError Settings :=
  match (Toml.parse? text).bind ofEntries with
  | none => .error .malformed
  | some s => (s.validate isLevel).map fun () => s

end Settings

end BenchConsole
