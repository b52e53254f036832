import BenchConsole.Board.Fault

/-!
# Failures of commands

Each failure has a kind, which error responses carry, and a message.
-/

namespace BenchConsole

inductive FailureKind where
  | invalidCommand
  | invalidFunction
  | invalidSubaction
  | invalidParameterType
  | missingParameter
  | hardwareError
  | queueFull
  | syncTimeout
  | rejected
  | deferred
  deriving DecidableEq

def FailureKind.text : FailureKind → String
  | invalidCommand => "invalid command"
  | invalidFunction => "invalid function"
  | invalidSubaction => "invalid sub-action"
  | invalidParameterType => "invalid parameter type"
  | missingParameter => "missing parameter"
  | hardwareError => "hardware error"
  | queueFull => "queue full"
  | syncTimeout => "sync timeout"
  | rejected => "rejected"
  | deferred => "deferred"

def FailureKind.name : FailureKind → String
  | invalidCommand => "InvalidCommand"
  | invalidFunction => "InvalidFunction"
  | invalidSubaction => "InvalidSubaction"
  | invalidParameterType => "InvalidParameterType"
  | missingParameter => "MissingParameter"
  | hardwareError => "HardwareError"
  | queueFull => "QueueFull"
  | syncTimeout => "SyncTimeout"
  | rejected => "Rejected"
  | deferred => "Deferred"

/-- Why a command gave no result. -/
inductive Failure where
  | invalidCommand (detail : String)
  | invalidFunction (function : String)
  | invalidSubaction (function action : String)
  | invalidParameterType (detail : String)
  | missingParameter (command parameter : String)
  | hardware (fault : Board.Fault)
  | queueFull (capacity : Nat)
  | syncTimeout (attempts : Nat)
  /-- The command ran, and its response is an error with this message. -/
  | rejected (message : String)
  /-- The command could not run now; it waits in the queue as number `pending`. -/
  | deferred (pending : Nat)
  deriving DecidableEq

namespace Failure

def kind : Failure → FailureKind
  | invalidCommand _ => .invalidCommand
  | invalidFunction _ => .invalidFunction
  | invalidSubaction _ _ => .invalidSubaction
  | invalidParameterType _ => .invalidParameterType
  | missingParameter _ _ => .missingParameter
  | hardware _ => .hardwareError
  | queueFull _ => .queueFull
  | syncTimeout _ => .syncTimeout
  | rejected _ => .rejected
  | deferred _ => .deferred

def message : Failure → String
  | invalidCommand detail => "invalid command: " ++ detail
  | invalidFunction function => "unknown function '" ++ function ++ "'"
  | invalidSubaction function action =>
    "invalid sub-action '" ++ action ++ "' for " ++ function
  | invalidParameterType detail => "invalid parameter type: " ++ detail
  | missingParameter command parameter =>
    "missing parameter '" ++ parameter ++ "' for " ++ command
  | hardware fault => fault.message
  | queueFull capacity => "command queue full (" ++ toString capacity ++ " entries)"
  | syncTimeout attempts => "no result after " ++ toString attempts ++ " polls"
  | rejected message => message
  | deferred pending => "command deferred to queue slot " ++ toString pending

end Failure

end BenchConsole
