import BenchConsole.LogLevel
import BenchConsole.Proofs.Relay.Calls
import BenchConsole.Proofs.Settings

/-!
# Lines with a sentinel

What becomes of a line follows its way: a command is run (`Outcome.IsExecuted`), or it has to wait
or is refused (`Outcome.IsPostponed`), or the line passes through. A question times out exactly if
its line passes through (`timesOut_iff`), and a post meets an outcome that it does not expect exactly
if its line has not to wait (`unexpected_iff`).

Valid settings keep the sentinels apart, so lines that are handed in behind them go the way that
their sentinel says, as long as it stays whole (`valid_sentinels_served`). Validity does not see to
the latter: a sentinel may end in a line end, and is not found any more in front of a command that is
nothing but line ends (`not_forall_valid_sentinels_served`).
-/

namespace BenchConsole.Relay

open Script Text

/-! ## Outcomes -/

namespace Outcome

/-- The command was run. -/
def IsExecuted (outcome : Outcome) : Prop := ∃ response, outcome = executed response

/-- The command has to wait, or was refused a place in the queue. -/
inductive IsPostponed : Outcome → Prop
  | queued (pending : Nat) : IsPostponed (queued pending)
  | rejected (failure : Failure) : IsPostponed (rejected failure)

end Outcome

/-- What a post gives for an outcome that it does not expect. -/
def unexpected (outcome : Outcome) : Failure :=
  .invalidCommand ("unexpected hook outcome " ++ outcome.describe)

variable {σ ρ : Type} {h : Hardware σ} {rt : Runtime ρ} {e : Relay σ} {r : ρ}
  {line command : String}

theorem isPostponed_postpone (e : Relay σ) (command : String) :
    (e.postpone command).1.IsPostponed := by
  rcases refusal_of_postpone e command with ⟨pending, q, hp, -⟩ | ⟨failure, hp, -⟩
  · rw [hp]
    exact .queued pending
  · rw [hp]
    exact .rejected failure

/-- A line is served at once exactly if its way says so. -/
theorem isExecuted_iff : (e.receive h rt r line).1.IsExecuted ↔
    ∃ command, route e.protocol (rt.reentrySafe r) line = .run command := by
  cases hroute : route e.protocol (rt.reentrySafe r) line with
  | run command =>
    rw [receive_of_run hroute]
    exact iff_of_true ⟨_, rfl⟩ ⟨_, rfl⟩
  | postpone command =>
    rw [receive_of_postpone hroute]
    refine iff_of_false ?_ nofun
    rintro ⟨response, hresponse⟩
    have hpostponed := isPostponed_postpone e command
    rw [hresponse] at hpostponed
    cases hpostponed
  | pass =>
    rw [receive_of_pass hroute]
    exact iff_of_false nofun nofun

theorem isPostponed_iff : (e.receive h rt r line).1.IsPostponed ↔
    ∃ command, route e.protocol (rt.reentrySafe r) line = .postpone command := by
  cases hroute : route e.protocol (rt.reentrySafe r) line with
  | run command =>
    rw [receive_of_run hroute]
    exact iff_of_false nofun nofun
  | postpone command =>
    rw [receive_of_postpone hroute]
    exact iff_of_true (isPostponed_postpone e command) ⟨_, rfl⟩
  | pass =>
    rw [receive_of_pass hroute]
    exact iff_of_false nofun nofun

/-! ## What a host is told -/

theorem resultOf_ne_syncTimeout (response : Response) (n : Nat) :
    resultOf response ≠ .error (.syncTimeout n) := by
  cases response <;> simp [resultOf]

theorem Refusal.ne_syncTimeout {q : PendingQueue} {failure : Failure}
    (hrefusal : Refusal q command failure) (n : Nat) : failure ≠ .syncTimeout n := by
  cases hrefusal <;> nofun

theorem Refusal.ne_unexpected {q : PendingQueue} {failure : Failure}
    (hrefusal : Refusal q command failure) (outcome : Outcome) : failure ≠ unexpected outcome := by
  cases hrefusal with
  | deferred _ _ | full _ => nofun
  | tooLong _ _ =>
    intro he
    have hhead := congrArg (fun text => text.toList.head?) (Failure.invalidCommand.inj he)
    simp [String.toList_append] at hhead

theorem timesOut_iff (hpolls : e.protocol.pollAttempts ≠ 0) :
    (∃ n, (e.ask h rt r command).1 = .error (.syncTimeout n)) ↔
      route e.protocol (rt.reentrySafe (rt.assign readyVariable (.bool false) r).2)
        (e.protocol.syncSentinel ++ command) = .pass := by
  let cleared := { e with answer := none }
  rw [ask_eq]
  cases hroute : route e.protocol (rt.reentrySafe (rt.assign readyVariable (.bool false) r).2)
      (e.protocol.syncSentinel ++ command) with
  | run command =>
    rw [receive_of_run (e := cleared) hroute]
    refine iff_of_false ?_ nofun
    rintro ⟨n, htimeout⟩
    exact resultOf_ne_syncTimeout _ n
      ((answerOfCall_runNow h command (Nat.one_le_iff_ne_zero.mpr hpolls)).symm.trans htimeout)
  | postpone command =>
    rw [receive_of_postpone (e := cleared) hroute]
    refine iff_of_false ?_ nofun
    rintro ⟨n, htimeout⟩
    rcases refusal_of_postpone cleared command with ⟨pending, q, hp, -⟩ | ⟨failure, hp, hrefusal⟩
    · rw [hp] at htimeout
      cases htimeout
    · rw [hp] at htimeout
      exact hrefusal.ne_syncTimeout n (Except.error.inj htimeout)
  | pass =>
    rw [receive_of_pass (e := cleared) hroute]
    exact iff_of_true ⟨e.protocol.pollAttempts, rfl⟩ rfl

theorem unexpected_iff : (∃ outcome, (e.post h rt r command).1 = .error (unexpected outcome)) ↔
    ¬∃ command', route e.protocol (rt.reentrySafe r) (e.protocol.queueSentinel ++ command) =
      .postpone command' := by
  rw [post_eq]
  cases hroute : route e.protocol (rt.reentrySafe r) (e.protocol.queueSentinel ++ command) with
  | run command =>
    rw [receive_of_run hroute]
    exact iff_of_true ⟨_, rfl⟩ nofun
  | postpone command =>
    rw [receive_of_postpone hroute]
    refine iff_of_false ?_ (fun hno => hno ⟨command, rfl⟩)
    rintro ⟨outcome, hunexpected⟩
    rcases refusal_of_postpone e command with ⟨pending, q, hp, -⟩ | ⟨failure, hp, hrefusal⟩
    · rw [hp] at hunexpected
      cases hunexpected
    · rw [hp] at hunexpected
      exact hrefusal.ne_unexpected outcome (Except.error.inj hunexpected)
  | pass =>
    rw [receive_of_pass hroute]
    exact iff_of_true ⟨_, rfl⟩ nofun

/-! ## Valid settings -/

/-- The line of a command behind the sync sentinel is served: at once, if the runtime may be
entered. -/
def ServesSync (h : Hardware σ) (rt : Runtime ρ) (e : Relay σ) (r : ρ) (command : String) : Prop :=
  let outcome := (e.receive h rt r (e.protocol.syncSentinel ++ command)).1
  if rt.reentrySafe r then outcome.IsExecuted else outcome.IsPostponed

/-- The line of a command behind the queue sentinel is served, always later. -/
def ServesQueue (h : Hardware σ) (rt : Runtime ρ) (e : Relay σ) (r : ρ) (command : String) : Prop :=
  (e.receive h rt r (e.protocol.queueSentinel ++ command)).1.IsPostponed

theorem servesSync_iff (hapart : Apart e.protocol.syncSentinel e.protocol.queueSentinel) :
    ServesSync h rt e r command ↔ StaysWhole e.protocol.syncSentinel command := by
  simp only [ServesSync, isExecuted_iff, isPostponed_iff, route_sync_of_apart hapart]
  by_cases hwhole : StaysWhole e.protocol.syncSentinel command
  · cases rt.reentrySafe r <;> simp [hwhole]
  · cases rt.reentrySafe r <;> simp [hwhole]

theorem servesQueue_iff (hapart : Apart e.protocol.syncSentinel e.protocol.queueSentinel) :
    ServesQueue h rt e r command ↔ StaysWhole e.protocol.queueSentinel command := by
  rw [ServesQueue, isPostponed_iff, route_queue_of_apart hapart]
  by_cases hwhole : StaysWhole e.protocol.queueSentinel command
  · simp [hwhole]
  · simp [hwhole]

/-- A relay with valid settings serves lines with its sentinels just as long as these stay whole. A
command behind the queue sentinel is never run at once. Questions time out and posts meet outcomes
that they do not expect in the remaining case only. -/
theorem valid_sentinels_served {s : Settings} {isLevel : String → Bool}
    (hs : s.validate isLevel = .ok ()) (h : Hardware σ) (rt : Runtime ρ) (e : Relay σ)
    (he : e.protocol = s.protocol) (r : ρ) (command : String) :
    (ServesSync h rt e r command ↔ StaysWhole s.protocol.syncSentinel command) ∧
      ((∃ n, (e.ask h rt r command).1 = .error (.syncTimeout n)) ↔
        ¬StaysWhole s.protocol.syncSentinel command) ∧
      (ServesQueue h rt e r command ↔ StaysWhole s.protocol.queueSentinel command) ∧
      ¬(e.receive h rt r (s.protocol.queueSentinel ++ command)).1.IsExecuted ∧
      ((∃ outcome, (e.post h rt r command).1 = .error (unexpected outcome)) ↔
        ¬StaysWhole s.protocol.queueSentinel command) := by
  have husable := Settings.validate_eq_ok_iff.mp hs
  have hapart := husable.apart
  have hpolls := husable.pollAttempts
  rw [← he] at hapart hpolls ⊢
  refine ⟨servesSync_iff hapart, ?_, servesQueue_iff hapart, ?_, ?_⟩
  · rw [timesOut_iff hpolls, route_sync_eq_pass_iff hapart]
  · rw [isExecuted_iff, route_queue_of_apart hapart]
    split <;> simp
  · rw [unexpected_iff, ← isPostponed_iff (h := h)]
    exact not_congr (servesQueue_iff hapart)

/-- Settings whose sentinels are lines of their own. -/
def lineSettings : Settings :=
  { protocol := { syncSentinel := "S\n", queueSentinel := "Q\n" } }

def lineRelay : Relay Board := Relay.new (Board.new {}) lineSettings.protocol

theorem valid_sentinels_served_lineSettings :
    lineSettings.validate LogLevel.isLevel = .ok () ∧ lineRelay.protocol = lineSettings.protocol ∧
      ServesSync Board.simulated Interpreter.runtime lineRelay {} "slot(get)" ∧
      ∃ n, (lineRelay.ask Board.simulated Interpreter.runtime {} "").1 =
        .error (.syncTimeout n) := by
  have hs : lineSettings.validate LogLevel.isLevel = .ok () := by rfl
  have hwhole : StaysWhole lineSettings.protocol.syncSentinel "slot(get)" := by decide
  have hbroken : ¬StaysWhole lineSettings.protocol.syncSentinel "" := by decide
  refine ⟨hs, rfl, ?_, ?_⟩
  · exact (valid_sentinels_served hs Board.simulated Interpreter.runtime lineRelay rfl {} _).1.mpr
      hwhole
  · exact (valid_sentinels_served hs Board.simulated Interpreter.runtime lineRelay rfl {}
      _).2.1.mpr hbroken

/-- The line of an empty command is the sentinel alone, and loses its line end. -/
theorem not_forall_valid_sentinels_served :
    ¬∀ (s : Settings) (e : Relay Board) (r : Interpreter) (command : String),
      s.validate LogLevel.isLevel = .ok () → e.protocol = s.protocol →
      ServesSync Board.simulated Interpreter.runtime e r command ∧
        (∀ n, (e.ask Board.simulated Interpreter.runtime r command).1 ≠ .error (.syncTimeout n)) ∧
        ServesQueue Board.simulated Interpreter.runtime e r command ∧
        ∀ outcome, (e.post Board.simulated Interpreter.runtime r command).1 ≠
          .error (unexpected outcome) := by
  intro hall
  obtain ⟨-, -, hserved, -⟩ := hall lineSettings lineRelay {} "" rfl rfl
  have hpass : (lineRelay.receive Board.simulated Interpreter.runtime {} "Q\n").1 =
      .passthrough "Q\r\n" := by rfl
  change (lineRelay.receive Board.simulated Interpreter.runtime {} "Q\n").1.IsPostponed at hserved
  rw [hpass] at hserved
  cases hserved

end BenchConsole.Relay
