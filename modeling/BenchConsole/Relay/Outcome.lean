import BenchConsole.Response
import BenchConsole.Text.Printable

/-!
# Outcomes

What becomes of a line that the runtime prints, and how diagnostics name it.
-/

namespace BenchConsole.Relay

open Text

/-- What the relay did with a line that the runtime printed. -/
inductive Outcome where
  /-- The command ran at once. -/
  | executed (response : Response)
  /-- The command is in the queue, which now has this many entries. -/
  | queued (pending : Nat)
  /-- The command could not be queued. -/
  | rejected (error : Failure)
  /-- The line is ordinary output. -/
  | passthrough (text : String)
  deriving DecidableEq

namespace Outcome

/-- A response in the notation of diagnostics. -/
def responseText : Response → String
  | .success summary none => "Success \x7b summary: " ++ quoteDebug summary ++ ", value: None \x7d"
  | .success summary (some value) =>
    "Success \x7b summary: " ++ quoteDebug summary ++ ", value: Some(" ++ quoteDebug value ++
      ") \x7d"
  | .error kind message =>
    "Error \x7b kind: " ++ kind.name ++ ", message: " ++ quoteDebug message ++ " \x7d"

/-- An outcome in the notation of diagnostics. -/
def describe : Outcome → String
  | executed response => "Executed(" ++ responseText response ++ ")"
  | queued pending => "Queued \x7b pending: " ++ toString pending ++ " \x7d"
  | rejected error => "Rejected(" ++ error.message ++ ")"
  | passthrough text => "Passthrough(" ++ quoteDebug text ++ ")"

end Outcome

end BenchConsole.Relay
