/-!
# The relay's protocol

A script reaches the relay by printing a line that starts with one of two sentinels. The protocol
fixes the sentinels and the sizes of the relay.
-/

namespace BenchConsole.Relay

/-- The parameters of the relay. -/
structure Protocol where
  /-- Starts a line whose command runs at once. -/
  syncSentinel : String := "::SYNC::"
  /-- Starts a line whose command is queued. -/
  queueSentinel : String := "::QUEUE::"
  queueCapacity : Nat := 5
  /-- How often a result is asked for before giving up. -/
  pollAttempts : Nat := 100
  /-- Microseconds between two polls. -/
  pollInterval : Nat := 1000
  /-- How many command texts are remembered; none if zero. -/
  memoCapacity : Nat := 16
  deriving DecidableEq

end BenchConsole.Relay
