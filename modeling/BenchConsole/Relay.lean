import BenchConsole.Bench
import BenchConsole.Answer
import BenchConsole.Relay.Memo
import BenchConsole.Relay.Outcome
import BenchConsole.Relay.PendingQueue
import BenchConsole.Relay.Protocol
import BenchConsole.Script.Interpreter

/-!
# The relay

The relay joins a bench to a scripting runtime. Every line that the runtime prints goes through
`Relay.receive`. A line with the sync sentinel runs its command at once; the answer is kept, and
published in global variables of the runtime. A line with the queue sentinel, or a sync line of a
runtime that may not be entered now, puts its command into the queue, which `Relay.drain` works
off later. Any other line passes through. `Relay.ask` and `Relay.post` hand in a line with a
sentinel and give what becomes of it.

The response line of every command that runs this way is echoed; the latest `maxEchoes` lines are
held until they are taken. Publishing may fail, which changes nothing for the relay.
-/

namespace BenchConsole

open Script Text

/-- A bench with all that it takes to serve a scripting runtime. -/
structure Relay (σ : Type) where
  bench : Bench σ
  memo : Relay.Memo
  queue : Relay.PendingQueue
  /-- The answer of the latest command that ran at once, if no later one was begun. -/
  answer : Option Answer
  protocol : Relay.Protocol
  /-- Echoed lines that were not taken yet, oldest first. -/
  echoes : List String

namespace Relay

/-! ## Publication -/

def readyVariable : String := "_sync_result_ready"

def textVariable : String := "_sync_value"

def tagVariable : String := "_sync_type"

def numericVariable : String := "_sync_numeric"

/-- The variable with the text of the latest command from the queue. -/
def queuedCommandVariable : String := "_queued_command"

/-- The variable with the response line of that command. -/
def queuedResponseVariable : String := "_queued_result"

/-- Source code that assigns variables, one per line. -/
def assignmentCode (pairs : List (String × Value)) : String :=
  String.intercalate "\n" (pairs.map fun (name, v) => assignment name v)

/-- The code that publishes an answer. The variable that says it is ready comes last, so that code
that stops half way never leaves an answer that seems complete. -/
def answerCode (a : Answer) : String :=
  assignmentCode
    [(textVariable, .str a.text), (tagVariable, .str a.tag.name),
      (numericVariable, .float a.numeric), (readyVariable, .bool true)]

/-- The code that publishes a command from the queue. -/
def queuedCode (entry : DeferredCommand) : String :=
  assignmentCode
    [(queuedCommandVariable, .str entry.command), (queuedResponseVariable, .str entry.response)]

/-! ## Echoes -/

/-- The most echoed lines that are held. -/
def maxEchoes : Nat := 64

/-- Appends a line; the oldest one makes room if there is none. -/
def pushEcho (echoes : List String) (line : String) : List String :=
  (if maxEchoes ≤ echoes.length then echoes.tail else echoes) ++ [line]

variable {σ ρ : Type}

def echo (e : Relay σ) (line : String) : Relay σ :=
  { e with echoes := pushEcho e.echoes line }

/-- The echoed lines, which the relay then no longer holds. -/
def takeEchoes (e : Relay σ) : List String × Relay σ :=
  (e.echoes, { e with echoes := [] })

/-! ## Commands -/

def new (device : σ) (protocol : Protocol) : Relay σ where
  bench := { device }
  memo := { capacity := protocol.memoCapacity }
  queue := .new protocol.queueCapacity
  answer := none
  protocol
  echoes := []

/-- Reads a command with the help of the memo and executes it. -/
def execute (h : Hardware σ) (e : Relay σ) (text : String) : Response × Relay σ :=
  let (parsed, memo) := e.memo.read (trimmed text)
  let (response, bench) := e.bench.executeParsed h parsed
  (response, { e with memo, bench })

def postpone (e : Relay σ) (command : String) : Outcome × Relay σ :=
  match e.queue.enqueue (trimmed command) with
  | .ok (pending, queue) => (.queued pending, { e with queue })
  | .error failure => (.rejected failure, e)

/-- Executes a command, echoes its response and keeps the answer. -/
def runNow (h : Hardware σ) (e : Relay σ) (command : String) : Response × Relay σ :=
  let (response, e) := e.execute h command
  (response, { e.echo response.line with answer := some (.ofResponse response) })

/-- The rest of a line after a sentinel, if it starts with it. -/
def afterSentinel? (sentinel line : String) : Option String :=
  (sentinel.toList.isPrefixOf? line.toList).map String.ofList

/-- Takes a line that the runtime prints. -/
def receive (h : Hardware σ) (rt : Runtime ρ) (e : Relay σ) (r : ρ) (line : String) :
    Outcome × Relay σ × ρ :=
  let stripped := String.ofList (dropLineEnds line.toList)
  match afterSentinel? e.protocol.syncSentinel stripped with
  | some command =>
    if rt.reentrySafe r then
      let (response, e) := e.runNow h command
      (.executed response, e, (rt.execute (answerCode (.ofResponse response)) r).2)
    else
      let (outcome, e) := e.postpone command
      (outcome, e, r)
  | none =>
    match afterSentinel? e.protocol.queueSentinel stripped with
    | some command =>
      let (outcome, e) := e.postpone command
      (outcome, e, r)
    | none => (.passthrough (String.ofList (withCrlfEndings line.toList)), e, r)

/-! ## Calls -/

/-- Asks for the answer as often as the protocol allows, which may be never. -/
def awaitAnswer (e : Relay σ) : Except Failure Answer :=
  match e.answer with
  | some a =>
    if e.protocol.pollAttempts = 0 then .error (.syncTimeout e.protocol.pollAttempts) else .ok a
  | none => .error (.syncTimeout e.protocol.pollAttempts)

/-- The answer of a call, a failure if the response was an error. -/
def answerOfCall (e : Relay σ) : Except Failure Answer := do
  let a ← e.awaitAnswer
  if a.isError then .error (.rejected a.text) else return a

/-- Runs a command through the sync sentinel and waits for its answer. -/
def ask (h : Hardware σ) (rt : Runtime ρ) (e : Relay σ) (r : ρ) (command : String) :
    Except Failure Answer × Relay σ × ρ :=
  let e := { e with answer := none }
  let r := (rt.assign readyVariable (.bool false) r).2
  match e.receive h rt r (e.protocol.syncSentinel ++ command) with
  | (.queued pending, e, r) => (.error (.deferred pending), e, r)
  | (.rejected failure, e, r) => (.error failure, e, r)
  | (.executed _, e, r) => (e.answerOfCall, e, r)
  | (.passthrough _, e, r) => (e.answerOfCall, e, r)

/-- Queues a command through the queue sentinel and gives the number of pending ones. -/
def post (h : Hardware σ) (rt : Runtime ρ) (e : Relay σ) (r : ρ) (command : String) :
    Except Failure Nat × Relay σ × ρ :=
  match e.receive h rt r (e.protocol.queueSentinel ++ command) with
  | (.queued pending, e, r) => (.ok pending, e, r)
  | (.rejected failure, e, r) => (.error failure, e, r)
  | (outcome, e, r) =>
    (.error (.invalidCommand ("unexpected hook outcome " ++ outcome.describe)), e, r)

/-! ## The queue -/

/-- Executes a command that was taken out of the queue and publishes its response. -/
def runDeferred (h : Hardware σ) (rt : Runtime ρ) (e : Relay σ) (r : ρ)
    (entry : DeferredCommand) : DeferredCommand × Relay σ × ρ :=
  let (response, e) := e.execute h entry.command
  let entry := { entry with response := response.line }
  (entry, e.echo response.line, (rt.execute (queuedCode entry) r).2)

/-- Executes at most `fuel` pending commands, oldest first. -/
def drainAtMost (h : Hardware σ) (rt : Runtime ρ) : Nat → Relay σ → ρ →
    List DeferredCommand × Relay σ × ρ
  | 0, e, r => ([], e, r)
  | fuel + 1, e, r =>
    match e.queue.pop? with
    | none => ([], e, r)
    | some (entry, queue) =>
      let (entry, e, r) := { e with queue }.runDeferred h rt r entry
      let (entries, e, r) := drainAtMost h rt fuel e r
      (entry :: entries, e, r)

/-- Executes every pending command, oldest first. Running one never adds another, so their number
at the start bounds the steps. -/
def drain (h : Hardware σ) (rt : Runtime ρ) (e : Relay σ) (r : ρ) :
    List DeferredCommand × Relay σ × ρ :=
  drainAtMost h rt e.queue.count e r

end Relay

end BenchConsole
