import BenchConsole.Proofs.Relay.Backlog
import BenchConsole.Proofs.Session

/-!
# Transcripts of sessions

A line is taken for one of a few kinds (`LineKind`), and its kind settles both what it has the relay
do (`operations`) and what it prints (`parts`). So an input is a `history` of the relay
(`relay_run`), and what it prints is a `transcript` (`run_fst`): response lines, and everything
else, such as answers, failures and the number of pending commands. The response lines among them
are those that the history takes (`responsesOf_transcript`).
-/

namespace BenchConsole.Session

open Board Relay Script Text

variable {p : Protocol} {line : String}

/-! ## Kinds of lines -/

/-- What a line is taken for. -/
inductive LineKind where
  | blank
  | globals
  | sentinel (text : String)
  | assignment (name command : String)
  | call (command : String)
  | other (line : String)

def lineKind (p : Protocol) (line : String) : LineKind :=
  let cs := trim line.toList
  if cs.isEmpty then .blank
  else if cs = "globals".toList then .globals
  else if isSentinelLine p cs then .sentinel (String.ofList cs)
  else
    match assignment? cs with
    | some (name, command) => .assignment name command
    | none => if isCall cs then .call (String.ofList cs) else .other line

/-- Takes a line of some kind. -/
def feedAs (s : Session) : LineKind → String × Session
  | .blank => ("", s)
  | .globals => (globalsText s.interpreter.globals, s)
  | .sentinel text => s.feedSentinel text
  | .assignment name command => s.feedAssignment name command
  | .call command => s.feedCall command
  | .other line => s.feedOther line

theorem feed_eq (s : Session) (line : String) :
    s.feed line = s.feedAs (lineKind s.relay.protocol line) := by
  simp only [feed, lineKind]
  generalize trim line.toList = cs
  split
  · rfl
  split
  · rfl
  split
  · rfl
  cases assignment? cs with
  | some assignment => rfl
  | none =>
    dsimp only
    split <;> rfl

theorem lineKind_eq_other {other : String} (h : lineKind p line = .other other) :
    other = line ∧ isSentinelLine p (trim line.toList) = false := by
  simp only [lineKind] at h
  split at h
  · cases h
  split at h
  · cases h
  split at h
  · cases h
  next hsentinel =>
  split at h
  · cases h
  split at h
  · cases h
  cases h
  exact ⟨rfl, Bool.not_eq_true _ ▸ hsentinel⟩

/-! ## Histories -/

/-- What a line of some kind has the relay do. -/
def operations (s : Session) : LineKind → List Operation
  | .blank | .globals => []
  | .sentinel text => [.receive Interpreter.runtime s.interpreter text, .takeEchoes]
  | .assignment _ command => [.ask Interpreter.runtime s.interpreter command, .takeEchoes]
  | .call command => [.ask Interpreter.runtime s.interpreter command, .takeEchoes]
  | .other line => [.receive Interpreter.runtime s.interpreter line]

/-- What the lines of an input and its end have the relay do. -/
def history : Session → List String → List Operation
  | s, [] => [.drain Interpreter.runtime s.interpreter, .takeEchoes]
  | s, line :: lines =>
    s.operations (lineKind s.relay.protocol line) ++ history (s.feed line).2 lines

theorem relay_assignGlobal (s : Session) (name : String) (v : Value) :
    (s.assignGlobal name v).2.relay = s.relay := by
  unfold assignGlobal
  split <;> rfl

theorem relay_feedAs (s : Session) (kind : LineKind) :
    (s.feedAs kind).2.relay = s.relay.after Board.simulated (s.operations kind) := by
  cases kind with
  | blank | globals | sentinel text => rfl
  | assignment name command =>
    simp only [feedAs, feedAssignment]
    cases (s.call command).1 with
    | ok a =>
      have hrelay := (s.call command).2.relay_assignGlobal name (.ofAnswer a)
      exact congrArg (fun e => e.takeEchoes.2) hrelay
    | error e => rfl
  | call command =>
    simp only [feedAs, feedCall]
    split <;> rfl
  | other line =>
    simp only [feedAs, feedOther]
    split <;> next hreceive => exact congrArg (fun x => x.2.relay) hreceive.symm

theorem isDirect_operations (s : Session) (kind : LineKind) :
    ∀ op ∈ s.operations kind, op.isDirect = false := by
  cases kind with
  | blank | globals => exact nofun
  | sentinel | assignment | call | other => simp [operations, Operation.isDirect]

theorem isDirect_history (s : Session) (lines : List String) :
    ∀ op ∈ s.history lines, op.isDirect = false := by
  induction lines generalizing s with
  | nil => simp [history, Operation.isDirect]
  | cons line lines ih =>
    exact List.forall_mem_append.mpr ⟨s.isDirect_operations _, ih _⟩

/-- What an input and its end do to the relay. -/
theorem relay_feedAll (s : Session) (lines : List String) :
    (s.feedAll lines).2.finish.2.relay = s.relay.after Board.simulated (s.history lines) := by
  induction lines generalizing s with
  | nil => rfl
  | cons line lines ih =>
    rw [feedAll_cons, ih, history, after_append, ← relay_feedAs, ← feed_eq]

theorem relay_run (s : Session) (input : String) : (s.run input).2.relay =
    s.relay.after Board.simulated (s.history ((lines input.toList).map String.ofList)) :=
  s.relay_feedAll _

/-! ## Transcripts -/

/-- A part of what is printed. -/
inductive Part where
  /-- The response line of a command. -/
  | response (line : String)
  /-- The number of pending commands. -/
  | pending (count : Nat)
  | answer (a : Answer)
  | failure (e : Failure)
  /-- Why a variable was not assigned. -/
  | refusal (e : Script.Error)
  /-- The global variables. -/
  | listing (globals : Globals)
  /-- A line that passed through. -/
  | passed (text : String)

def Part.text : Part → String
  | response line => printed line
  | pending count => printed ("queued (" ++ toString count ++ " pending)")
  | answer a => printed (answerText a)
  | failure e => printed (failureText e)
  | refusal e => printed e.message
  | listing globals => globalsText globals
  | passed text => text

def Part.response? : Part → Option String
  | response line => some line
  | _ => none

/-- What a list of parts looks like. -/
def textOf (parts : List Part) : String :=
  String.join (parts.map Part.text)

/-- The response lines among some parts. -/
def responsesOf (parts : List Part) : List String :=
  parts.filterMap Part.response?

def outcomeParts : Outcome → List Part
  | .queued pending => [.pending pending]
  | .rejected e => [.failure e]
  | _ => []

def passedParts : Outcome → List Part
  | .passthrough text => [.passed text]
  | _ => []

def resultPart : Except Failure Answer → Part
  | .ok a => .answer a
  | .error e => .failure e

/-- What is printed when the result of a call is assigned to a variable. -/
def assignedParts (s : Session) (name : String) : Except Failure Answer → List Part
  | .ok a =>
    match (s.interpreter.assign name (.ofAnswer a)).1 with
    | .ok () => []
    | .error e => [.refusal e]
  | .error e => [.failure e]

/-- The lines that the relay of a session holds. -/
def heldParts (s : Session) : List Part :=
  s.relay.echoes.map .response

/-- What a line of some kind prints. -/
def parts (s : Session) : LineKind → List Part
  | .blank => []
  | .globals => [.listing s.interpreter.globals]
  | .sentinel text => outcomeParts (s.receive text).1 ++ (s.receive text).2.heldParts
  | .assignment name command =>
    (s.call command).2.assignedParts name (s.call command).1 ++ (s.call command).2.heldParts
  | .call command => (s.call command).2.heldParts ++ [resultPart (s.call command).1]
  | .other line => passedParts (s.receive line).1

/-- A session with its queue worked off. -/
def drained (s : Session) : Session :=
  let (_, relay, interpreter) :=
    s.relay.drain Board.simulated Interpreter.runtime s.interpreter
  ⟨relay, interpreter⟩

/-- What the lines of an input and its end print. -/
def transcript : Session → List String → List Part
  | s, [] => s.drained.heldParts
  | s, line :: lines =>
    s.parts (lineKind s.relay.protocol line) ++ transcript (s.feed line).2 lines

theorem textOf_append (parts more : List Part) :
    textOf (parts ++ more) = textOf parts ++ textOf more := by
  rw [textOf, List.map_append, String.join_append]
  rfl

theorem textOf_singleton (part : Part) : textOf [part] = part.text := by
  rw [textOf, List.map_singleton, String.join_cons, String.join_nil, String.append_empty]

theorem textOf_heldParts (s : Session) : textOf s.heldParts = printedLines s.relay.echoes := by
  rw [textOf, heldParts, List.map_map]
  rfl

theorem textOf_assignedParts (s : Session) (name : String) (a : Answer) :
    textOf (s.assignedParts name (.ok a)) = (s.assignGlobal name (.ofAnswer a)).1 := by
  simp only [assignedParts, assignGlobal]
  rcases s.interpreter.assign name (.ofAnswer a) with ⟨_ | _, interpreter⟩
  · exact textOf_singleton _
  · rfl

theorem textOf_parts (s : Session) (kind : LineKind) :
    textOf (s.parts kind) = (s.feedAs kind).1 := by
  cases kind with
  | blank => rfl
  | globals => exact textOf_singleton (.listing _)
  | sentinel text =>
    simp only [parts, textOf_append, textOf_heldParts, feedAs, feedSentinel]
    cases (s.receive text).1 with
    | queued pending | rejected e => rw [outcomeParts, textOf_singleton]; rfl
    | executed | passthrough => rfl
  | assignment name command =>
    simp only [parts, textOf_append, textOf_heldParts, feedAs, feedAssignment]
    cases (s.call command).1 with
    | ok a =>
      rw [textOf_assignedParts, ← (s.call command).2.relay_assignGlobal name (.ofAnswer a)]
      rfl
    | error e => rw [assignedParts, textOf_singleton]; rfl
  | call command =>
    simp only [parts, textOf_append, textOf_heldParts, textOf_singleton, feedAs, feedCall]
    split <;> next hresult => rw [hresult]; rfl
  | other line =>
    simp only [parts, feedAs, feedOther]
    cases hreceive : s.receive line with
    | mk outcome later =>
      cases outcome with
      | passthrough text => exact textOf_singleton (.passed text)
      | _ => rfl

/-- What a session prints on an input is its transcript. -/
theorem textOf_transcript (s : Session) (lines : List String) :
    textOf (s.transcript lines) = (s.feedAll lines).1 ++ (s.feedAll lines).2.finish.1 := by
  induction lines generalizing s with
  | nil =>
    rw [transcript, textOf_heldParts]
    exact (String.empty_append).symm
  | cons line lines ih =>
    rw [transcript, textOf_append, textOf_parts, ← feed_eq, ih, ← String.append_assoc]
    rfl

theorem run_fst (s : Session) (input : String) :
    (s.run input).1 = textOf (s.transcript ((lines input.toList).map String.ofList)) := by
  rw [textOf_transcript]
  rfl

/-! ## Responses -/

theorem responsesOf_append (parts more : List Part) :
    responsesOf (parts ++ more) = responsesOf parts ++ responsesOf more :=
  List.filterMap_append

theorem responsesOf_heldParts (s : Session) : responsesOf s.heldParts = s.relay.echoes := by
  rw [responsesOf, heldParts, List.filterMap_map]
  exact List.filterMap_some

theorem responsesOf_outcomeParts (outcome : Outcome) : responsesOf (outcomeParts outcome) = [] := by
  cases outcome <;> rfl

theorem responsesOf_passedParts (outcome : Outcome) : responsesOf (passedParts outcome) = [] := by
  cases outcome <;> rfl

theorem responsesOf_resultPart (result : Except Failure Answer) :
    responsesOf [resultPart result] = [] := by
  cases result <;> rfl

theorem responsesOf_assignedParts (s : Session) (name : String) (result : Except Failure Answer) :
    responsesOf (s.assignedParts name result) = [] := by
  cases result with
  | ok a =>
    rw [assignedParts]
    split <;> rfl
  | error e => rfl

theorem responsesOf_parts (s : Session) (kind : LineKind) :
    responsesOf (s.parts kind) = takenLines Board.simulated s.relay (s.operations kind) := by
  cases kind with
  | blank | globals => rfl
  | sentinel text =>
    rw [parts, responsesOf_append, responsesOf_outcomeParts, responsesOf_heldParts]
    exact (List.append_nil _).symm
  | assignment name command =>
    rw [parts, responsesOf_append, responsesOf_assignedParts, responsesOf_heldParts]
    exact (List.append_nil _).symm
  | call command =>
    rw [parts, responsesOf_append, responsesOf_resultPart, responsesOf_heldParts]
    rfl
  | other line => exact responsesOf_passedParts _

/-- The response lines in a transcript are those that the history takes. -/
theorem responsesOf_transcript (s : Session) (lines : List String) :
    responsesOf (s.transcript lines) = takenLines Board.simulated s.relay (s.history lines) := by
  induction lines generalizing s with
  | nil => exact (responsesOf_heldParts s.drained).trans (List.append_nil _).symm
  | cons line lines ih =>
    rw [transcript, history, responsesOf_append, responsesOf_parts, ih, takenLines,
      collect_append, ← relay_feedAs, ← feed_eq]

end BenchConsole.Session
