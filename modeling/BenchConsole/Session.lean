import BenchConsole.Relay

/-!
# Console sessions

A session is a relay on a simulated board together with the small script runtime. It takes the
lines that a user types. A line may list the global variables (`globals`), be a sentinel line, call
a function, or assign the answer to a call to a variable; any other line is printed back. What a
line prints is a text; the response lines that the relay echoed come with it.
-/

namespace BenchConsole

open Board Relay Script Text

/-- What a user works with at the console. -/
structure Session where
  relay : Relay Board
  interpreter : Interpreter := {}

namespace Session

def new (limits : Limits) (protocol : Protocol) : Session where
  relay := .new (.new limits) protocol

def printed (line : String) : String :=
  line ++ "\n"

def printedLines (lines : List String) : String :=
  String.join (lines.map printed)

def failureText (e : Failure) : String :=
  e.kind.text ++ ": " ++ e.message

def answerText (r : Answer) : String :=
  r.text ++ " (" ++ r.tag.name ++ ")"

/-- Prints the lines that the relay echoed. -/
def flush (s : Session) : String × Session :=
  let (lines, relay) := s.relay.takeEchoes
  (printedLines lines, { s with relay })

/-- Whether a text is an identifier followed by something in parentheses. -/
def isCall (cs : List Char) : Bool :=
  match cs.span (· != '(') with
  | (_, []) => false
  | (name, _) => isIdentifier (trim name) && cs.getLast? == some ')'

/-- The variable and the call of an assignment. -/
def assignment? (cs : List Char) : Option (String × String) :=
  match cs.span (· != '=') with
  | (_, []) => none
  | (name, _ :: call) =>
    if isIdentifier (trim name) && isCall (trim call) then
      some (String.ofList (trim name), String.ofList (trim call))
    else none

/-- Whether a text starts with one of the sentinels. -/
def isSentinelLine (p : Protocol) (cs : List Char) : Bool :=
  p.syncSentinel.toList.isPrefixOf cs || p.queueSentinel.toList.isPrefixOf cs

/-- The global variables as they are printed. -/
def globalsText (globals : Globals) : String :=
  printedLines (globals.map fun (name, v) => assignment name v)

/-- Hands a line to the relay. -/
def receive (s : Session) (line : String) : Outcome × Session :=
  let (outcome, relay, interpreter) :=
    s.relay.receive Board.simulated Interpreter.runtime s.interpreter line
  (outcome, ⟨relay, interpreter⟩)

/-- Runs a command and waits for its answer. -/
def call (s : Session) (command : String) : Except Failure Answer × Session :=
  let (result, relay, interpreter) :=
    s.relay.ask Board.simulated Interpreter.runtime s.interpreter command
  (result, ⟨relay, interpreter⟩)

/-- Assigns a variable; gives what there is to print. -/
def assignGlobal (s : Session) (name : String) (v : Value) : String × Session :=
  match s.interpreter.assign name v with
  | (.ok (), interpreter) => ("", { s with interpreter })
  | (.error e, interpreter) => (printed e.message, { s with interpreter })

def feedSentinel (s : Session) (line : String) : String × Session :=
  let (outcome, s) := s.receive line
  let text :=
    match outcome with
    | .queued pending => printed ("queued (" ++ toString pending ++ " pending)")
    | .rejected e => printed (failureText e)
    | _ => ""
  let (echoed, s) := s.flush
  (text ++ echoed, s)

def feedAssignment (s : Session) (name command : String) : String × Session :=
  let (result, s) := s.call command
  let (text, s) :=
    match result with
    | .ok r => s.assignGlobal name (.ofAnswer r)
    | .error e => (printed (failureText e), s)
  let (echoed, s) := s.flush
  (text ++ echoed, s)

def feedCall (s : Session) (command : String) : String × Session :=
  let (result, s) := s.call command
  let (echoed, s) := s.flush
  match result with
  | .ok r => (echoed ++ printed (answerText r), s)
  | .error e => (echoed ++ printed (failureText e), s)

/-- Takes any other line. -/
def feedOther (s : Session) (line : String) : String × Session :=
  match s.receive line with
  | (.passthrough text, s) => (text, s)
  | (_, s) => ("", s)

/-- Takes a line; gives what it prints. -/
def feed (s : Session) (line : String) : String × Session :=
  let cs := trim line.toList
  if cs.isEmpty then ("", s)
  else if cs = "globals".toList then (globalsText s.interpreter.globals, s)
  else if isSentinelLine s.relay.protocol cs then s.feedSentinel (String.ofList cs)
  else
    match assignment? cs with
    | some (name, command) => s.feedAssignment name command
    | none => if isCall cs then s.feedCall (String.ofList cs) else s.feedOther line

/-- Takes lines one after the other. -/
def feedAll : Session → List String → String × Session
  | s, [] => ("", s)
  | s, line :: lines =>
    let (text, s) := s.feed line
    let (more, s) := feedAll s lines
    (text ++ more, s)

/-- Works off the queue and prints what it echoed. -/
def finish (s : Session) : String × Session :=
  let (_, relay, interpreter) :=
    s.relay.drain Board.simulated Interpreter.runtime s.interpreter
  flush ⟨relay, interpreter⟩

/-- Takes a whole input, then works off the queue; gives all that is printed. -/
def run (s : Session) (input : String) : String × Session :=
  let (text, s) := s.feedAll ((lines input.toList).map String.ofList)
  let (rest, s) := s.finish
  (text ++ rest, s)

end Session

end BenchConsole
