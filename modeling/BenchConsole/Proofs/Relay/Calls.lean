import BenchConsole.Proofs.Answer
import BenchConsole.Proofs.Relay.PendingQueue
import BenchConsole.Proofs.Relay.Routing

/-!
# Calls through the sync sentinel

A call hands its command in behind the sync sentinel, where it is found again (`route_sync`). If
the runtime may be entered, the command is run, and what the call gives is the answer to its own
response (`resultOf`). If not, the command waits in the queue or is refused (`Refusal`), and no
answer is ready. `ask_result` says both; the runtime is asked whether it may be entered after the
flag in it was cleared.
-/

namespace BenchConsole.Relay

open Script Text

variable {σ ρ : Type} {e : Relay σ}

/-- What a call gives whose command got this response. -/
def resultOf : Response → Except Failure Answer
  | .success summary value => .ok (.ofResponse (.success summary value))
  | .error _ message => .error (.rejected (trimmed message))

/-- What a call gives whose command was handed to a queue instead. -/
inductive Refusal (q : PendingQueue) (command : String) : Failure → Prop
  | deferred : q.count < q.capacity → command.length ≤ PendingQueue.maxCommandLength →
    Refusal q command (.deferred (q.count + 1))
  | full : q.count = q.capacity → Refusal q command (.queueFull q.capacity)
  | tooLong : q.count < q.capacity → PendingQueue.maxCommandLength < command.length →
    Refusal q command (.invalidCommand
      ("command longer than " ++ toString PendingQueue.maxCommandLength ++ " characters"))

/-! ## Executing -/

theorem execute_trimmed (h : Hardware σ) (e : Relay σ) {text other : String}
    (ht : trimmed text = trimmed other) : e.execute h text = e.execute h other := by
  rw [execute, execute, ht]

/-- The answer of a command that was run is the one of its response, as long as it is asked for. -/
theorem answerOfCall_runNow (h : Hardware σ) (command : String)
    (hpolls : 1 ≤ e.protocol.pollAttempts) :
    (e.runNow h command).2.answerOfCall = resultOf (e.execute h command).1 := by
  have hne : e.protocol.pollAttempts ≠ 0 := by omega
  have hready : (e.runNow h command).2.awaitAnswer = .ok (.ofResponse (e.execute h command).1) :=
    if_neg hne
  rw [answerOfCall, hready]
  cases hr : (e.execute h command).1 with
  | success summary value =>
    have hfine : (Answer.ofResponse (.success summary value)).isError = false :=
      Answer.isError_ofResponse _
    simp only [bind, Except.bind, hfine, Bool.false_eq_true, if_false]
    rfl
  | error kind message =>
    simp only [bind, Except.bind, Answer.ofResponse_error]
    rfl

/-! ## Calls -/

theorem route_sync {p : Protocol}
    (hends : ∀ c ∈ p.syncSentinel.toList.getLast?, isLineEnd c = false) (safe : Bool)
    (command : String) : route p safe (p.syncSentinel ++ command) =
      if safe then .run (stripped command) else .postpone (stripped command) := by
  rw [route, afterSentinel?_append hends]

/-- A command that is postponed waits at the end of the queue, or it changes nothing. -/
theorem refusal_of_postpone (e : Relay σ) (command : String) :
    (∃ pending q, e.postpone command = (.queued pending, { e with queue := q }) ∧
      Refusal e.queue (trimmed command) (.deferred pending)) ∨
    (∃ failure, e.postpone command = (.rejected failure, e) ∧
      Refusal e.queue (trimmed command) failure) := by
  unfold postpone
  rcases e.queue.enqueue_cases (trimmed command) with
    ⟨hfull, he⟩ | ⟨hroom, hlong, he⟩ | ⟨hroom, hshort, q, he, -⟩
  · rw [he]
    exact .inr ⟨_, rfl, .full hfull⟩
  · rw [he]
    exact .inr ⟨_, rfl, .tooLong hroom hlong⟩
  · rw [he]
    exact .inl ⟨_, q, rfl, .deferred hroom hshort⟩

/-! ## What a call makes of its line -/

section

variable {h : Hardware σ} {rt : Runtime ρ} {r r' : ρ} {command : String} {later : Relay σ}

/-- What becomes of the line of a call: the flag is cleared before, in the relay and in the
runtime. -/
def receiveCall (h : Hardware σ) (rt : Runtime ρ) (e : Relay σ) (r : ρ) (command : String) :
    Outcome × Relay σ × ρ :=
  { e with answer := none }.receive h rt (rt.assign readyVariable (.bool false) r).2
    (e.protocol.syncSentinel ++ command)

theorem ask_of_receiveCall {outcome : Outcome}
    (hr : e.receiveCall h rt r command = (outcome, later, r')) :
    e.ask h rt r command = (answerOfLine later outcome, later, r') := by
  rw [ask_eq, ← receiveCall, hr]

end

/-- A call gives the answer to the response of its own command, whatever was asked before, when the
runtime may be entered. When it may not, the call gives a refusal, nothing is run, and no answer is
ready afterwards. -/
theorem ask_result (h : Hardware σ) (rt : Runtime ρ) (e : Relay σ) (r : ρ) (command : String)
    (hpolls : 1 ≤ e.protocol.pollAttempts)
    (hends : ∀ c ∈ e.protocol.syncSentinel.toList.getLast?, isLineEnd c = false) :
    let cleared := (rt.assign readyVariable (.bool false) r).2
    let result := (e.ask h rt r command).1
    let later := (e.ask h rt r command).2.1
    (rt.reentrySafe cleared = true →
      result = resultOf (e.execute h command).1 ∧ later.bench = (e.execute h command).2.bench ∧
        ∀ n, result ≠ .error (.syncTimeout n) ∧ result ≠ .error (.deferred n)) ∧
    (rt.reentrySafe cleared = false →
      (∃ failure, result = .error failure ∧ Refusal e.queue (trimmed command) failure) ∧
        later.bench = e.bench ∧ later.answer = none ∧
        later.awaitAnswer = .error (.syncTimeout e.protocol.pollAttempts)) := by
  intro cleared result later
  have hroute := @route_sync e.protocol hends (rt.reentrySafe cleared) command
  constructor
  · intro hsafe
    rw [hsafe, if_pos rfl, ← hsafe] at hroute
    have hask := ask_of_receiveCall (receive_of_run (e := { e with answer := none }) (h := h) hroute)
    have hexecute := execute_trimmed h { e with answer := none } (trimmed_stripped command)
    have hresult : result = resultOf (e.execute h command).1 := by
      have hanswer := @answerOfCall_runNow σ { e with answer := none } h (stripped command) hpolls
      rw [hexecute] at hanswer
      exact (congrArg Prod.fst hask).trans hanswer
    refine ⟨hresult, ?_, fun n => ?_⟩
    · have hbench := congrArg (fun x => x.2.bench) hexecute
      exact (congrArg (fun x => x.2.1.bench) hask).trans hbench
    · rw [hresult]
      cases (e.execute h command).1 <;> simp [resultOf]
  · intro hclosed
    rw [hclosed, if_neg Bool.false_ne_true, ← hclosed] at hroute
    have hreceive : e.receiveCall h rt r command = _ :=
      receive_of_postpone (e := { e with answer := none }) (h := h) hroute
    rcases refusal_of_postpone { e with answer := none } (stripped command) with
      ⟨pending, q, hp, href⟩ | ⟨failure, hp, href⟩
    · rw [hp] at hreceive
      have hask := ask_of_receiveCall hreceive
      rw [trimmed_stripped] at href
      exact ⟨⟨_, congrArg Prod.fst hask, href⟩, congrArg (fun x => x.2.1.bench) hask,
        congrArg (fun x => x.2.1.answer) hask, congrArg (fun x => x.2.1.awaitAnswer) hask⟩
    · rw [hp] at hreceive
      have hask := ask_of_receiveCall hreceive
      rw [trimmed_stripped] at href
      exact ⟨⟨_, congrArg Prod.fst hask, href⟩, congrArg (fun x => x.2.1.bench) hask,
        congrArg (fun x => x.2.1.answer) hask, congrArg (fun x => x.2.1.awaitAnswer) hask⟩

/-- A relay that still holds the answer of an earlier call. -/
def answeredRelay : Relay Board :=
  { Relay.new (Board.new {}) {} with answer := some ⟨"2.500", .float, 2.5⟩ }

theorem ask_result_answeredRelay :
    1 ≤ answeredRelay.protocol.pollAttempts ∧
      (∀ c ∈ answeredRelay.protocol.syncSentinel.toList.getLast?, isLineEnd c = false) ∧
      (answeredRelay.ask Board.simulated Interpreter.runtime {} "slot(get)\n").1 =
        resultOf (.success "slot(get)" (some "0")) ∧
      (answeredRelay.ask Board.simulated Interpreter.runtime { reentrySafe := false }
        "slot(get)\n").2.1.awaitAnswer = .error (.syncTimeout 100) := by
  have hends : ∀ c ∈ answeredRelay.protocol.syncSentinel.toList.getLast?, isLineEnd c = false := by
    intro c hc
    obtain rfl : ':' = c := Option.some.inj hc
    rfl
  have hresponse : (answeredRelay.execute Board.simulated "slot(get)\n").1 =
      .success "slot(get)" (some "0") := by rfl
  have hentered := (ask_result Board.simulated Interpreter.runtime answeredRelay {} "slot(get)\n"
    (by decide) hends).1 rfl
  have hrefused := (ask_result Board.simulated Interpreter.runtime answeredRelay
    { reentrySafe := false } "slot(get)\n" (by decide) hends).2 rfl
  rw [hresponse] at hentered
  exact ⟨by decide, hends, hentered.1, hrefused.2.2.2⟩

end BenchConsole.Relay
