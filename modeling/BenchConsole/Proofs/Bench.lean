import BenchConsole.Bench
import Mathlib.Data.List.Forall2

/-!
# Runs of a bench

What a command text comes to before any hardware is asked is its `Bench.prepared` echo and request,
or the failure that takes their place; from there on a run is one of two steps (`run_of_failed` and
`run_of_prepared`).

`Bench.runAll` runs command texts one after the other. `Bench.requests` are the requests that the
hardware is given on the way: the same run on hardware that also writes down what it is asked
(`Hardware.recorded`), which changes nothing else (`runAll_recorded`).
-/

namespace BenchConsole

open Board

variable {σ : Type}

/-- Hardware that also writes down the requests it is given. -/
def Hardware.recorded (h : Hardware σ) : Hardware (σ × List Request) where
  handle request state :=
    let (reply, device) := h.handle request state.1
    (reply, device, state.2 ++ [request])

namespace Bench

variable {h : Hardware σ} {texts : List String} {text echo : String} {request : Request}
  {failure : Failure}

/-! ## Single texts -/

/-- The echo and the request that a text stands for, or why it stands for none. -/
def prepared (text : String) : Except Failure (String × Request) :=
  Command.parse text >>= Command.prepare

theorem run_eq (x : Bench σ) (text : String) : x.run h text =
    match prepared text with
    | .error failure => x.reject failure
    | .ok (echo, request) => x.perform h echo request := by
  unfold run executeParsed prepared
  cases Command.parse text with
  | error failure => rfl
  | ok c => rfl

theorem run_of_failed (x : Bench σ) (hp : prepared text = .error failure) :
    x.run h text = x.reject failure := by
  rw [run_eq, hp]

theorem run_of_prepared (x : Bench σ) (hp : prepared text = .ok (echo, request)) :
    x.run h text = x.perform h echo request := by
  rw [run_eq, hp]

theorem prepared_of_parse {c : Command} (h : Command.parse text = .ok c) :
    prepared text = c.prepare := by
  rw [prepared, h]
  rfl

/-! ## Runs -/

/-- Runs command texts one after the other. -/
def runAll (h : Hardware σ) (x : Bench σ) : List String → List Response × Bench σ
  | [] => ([], x)
  | text :: texts =>
    let (response, x) := x.run h text
    let (responses, x) := x.runAll h texts
    (response :: responses, x)

theorem runAll_cons (x : Bench σ) (text : String) (texts : List String) :
    x.runAll h (text :: texts) =
      ((x.run h text).1 :: ((x.run h text).2.runAll h texts).1,
        ((x.run h text).2.runAll h texts).2) :=
  rfl

theorem runAll_append (x : Bench σ) (texts others : List String) :
    x.runAll h (texts ++ others) =
      ((x.runAll h texts).1 ++ ((x.runAll h texts).2.runAll h others).1,
        ((x.runAll h texts).2.runAll h others).2) := by
  induction texts generalizing x with
  | nil => rfl
  | cons text texts ih =>
    simp only [List.cons_append, runAll_cons, ih]

/-- A bench whose hardware has written down these requests. -/
def recording (x : Bench σ) (requests : List Request) : Bench (σ × List Request) :=
  ⟨(x.device, requests), x.stats⟩

/-- The requests that the hardware is given in a run. -/
def requests (h : Hardware σ) (x : Bench σ) (texts : List String) : List Request :=
  ((x.recording []).runAll h.recorded texts).2.device.2

/-- The request that a text stands for; texts that fail before they reach the hardware have
none. -/
def request? (text : String) : Option Request :=
  ((Command.parse text).toOption.bind fun c => c.prepare.toOption).map Prod.snd

theorem run_recorded (x : Bench σ) (requests : List Request) (text : String) :
    (x.recording requests).run h.recorded text =
      ((x.run h text).1, (x.run h text).2.recording (requests ++ (request? text).toList)) := by
  unfold run executeParsed request?
  cases Command.parse text with
  | error failure => simp [reject, recording, Except.toOption]
  | ok c =>
    simp only [execute]
    cases hp : c.prepare with
    | error failure => simp [reject, recording, hp, Except.toOption]
    | ok prepared => simp [perform, recording, hp, Except.toOption, Hardware.recorded]

/-- Writing down the requests changes neither the responses nor the bench. -/
theorem runAll_recorded (x : Bench σ) (requests : List Request) (texts : List String) :
    (x.recording requests).runAll h.recorded texts =
      ((x.runAll h texts).1,
        (x.runAll h texts).2.recording (requests ++ texts.filterMap request?)) := by
  induction texts generalizing x requests with
  | nil => simp [runAll]
  | cons text texts ih =>
    rw [runAll, run_recorded]
    simp only [ih, runAll, List.filterMap_cons, List.append_assoc]
    cases request? text <;> rfl

theorem request?_eq (text : String) : request? text = (prepared text).toOption.map Prod.snd := by
  unfold request? prepared
  cases Command.parse text <;> rfl

theorem requests_eq (x : Bench σ) (texts : List String) :
    x.requests h texts = texts.filterMap request? := by
  rw [requests, runAll_recorded]
  rfl

end Bench

end BenchConsole
