import BenchConsole.Board.Reply
import BenchConsole.Failure
import BenchConsole.Signature

/-!
# Responses

The answer to a command is a single line: `SUCCESS: summary`, `SUCCESS: summary = value` or
`ERROR: message`. The summary of a command that ran is its echo.
-/

namespace BenchConsole

/-- The answer to a command. -/
inductive Response where
  | success (summary : String) (value : Option String)
  | error (kind : FailureKind) (message : String)
  deriving DecidableEq

namespace Response

def successMark : String := "SUCCESS:"

def errorMark : String := "ERROR:"

/-- What stands between the summary and the value of a success. -/
def separator : String := " = "

def line : Response → String
  | success summary (some value) => successMark ++ " " ++ summary ++ separator ++ value
  | success summary none => successMark ++ " " ++ summary
  | error _ message => errorMark ++ " " ++ message

def isError : Response → Bool
  | success _ _ => false
  | error _ _ => true

/-- The kind of an error response. -/
def errorKind? : Response → Option FailureKind
  | success _ _ => none
  | error kind _ => some kind

/-- The response to a command that gave no result. -/
def ofFailure (e : Failure) : Response :=
  error e.kind e.message

/-- The text of a reply's value, with its unit; a reply without a value has none. -/
def valueText? : Board.Reply → Option String
  | .done => none
  | .level high => some (levelWord high)
  | .flag holds => some (if holds then "true" else "false")
  | .int v => some (String.ofList (Number.intText v.toInt))
  | .volts x => some (Board.fixed 3 x ++ " V")
  | .milliamps x => some (Board.fixed 3 x ++ " mA")
  | .milliwatts x => some (Board.fixed 3 x ++ " mW")
  | .text s => some s

/-- The response to a command that reached the hardware. -/
def ofReply (echo : String) : Except Board.Fault Board.Reply → Response
  | .ok reply => success echo (valueText? reply)
  | .error fault => error .hardwareError (echo ++ ": " ++ fault.message)

end Response

end BenchConsole
