/-!
# Replies of the board
-/

namespace BenchConsole.Board

/-- The value that a request produces. The unit of a measured value is part of its kind. -/
inductive Reply where
  | done
  /-- A logic level. -/
  | level (high : Bool)
  /-- The answer to a question. -/
  | flag (holds : Bool)
  | int (value : Int64)
  | volts (value : Float)
  | milliamps (value : Float)
  | milliwatts (value : Float)
  | text (value : String)
  deriving DecidableEq

end BenchConsole.Board
