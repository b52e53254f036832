import BenchConsole.Binding.Request
import BenchConsole.Command.Reader
import BenchConsole.Response

/-!
# The bench

A bench owns hardware and counts what happens on it. A command is prepared completely, that is
bound and turned into a request, before the hardware sees anything of it; then the hardware
answers that one request.
-/

namespace BenchConsole

open Board

/-- What was counted on a bench. -/
structure Stats where
  total : Nat := 0
  successful : Nat := 0
  failed : Nat := 0
  hardwareCalls : Nat := 0
  deriving DecidableEq

namespace Stats

/-- One more command that failed before it reached the hardware. -/
def rejected (s : Stats) : Stats :=
  { s with total := s.total + 1, failed := s.failed + 1 }

/-- One more command that the hardware answered. -/
def answered (s : Stats) : Except Fault Reply → Stats
  | .ok _ =>
    { s with
      total := s.total + 1
      hardwareCalls := s.hardwareCalls + 1
      successful := s.successful + 1 }
  | .error _ =>
    { s with
      total := s.total + 1
      hardwareCalls := s.hardwareCalls + 1
      failed := s.failed + 1 }

end Stats

def Command.prepare (c : Command) : Except Failure (String × Request) :=
  match signature c.category c.action with
  | none => .error (.invalidSubaction c.function c.actionText)
  | some parameters => do
    let binding ← Binding.ofCommand c parameters
    return (binding.echo, ← binding.request)

/-- The state of some hardware, with the statistics of the commands that were run on it. -/
structure Bench (σ : Type) where
  device : σ
  stats : Stats := {}

namespace Bench

variable {σ : Type}

def reject (x : Bench σ) (e : Failure) : Response × Bench σ :=
  (.ofFailure e, { x with stats := x.stats.rejected })

/-- Hands a request to the hardware and counts the answer. -/
def perform (h : Hardware σ) (x : Bench σ) (echo : String) (request : Request) :
    Response × Bench σ :=
  let (reply, device) := h.handle request x.device
  (.ofReply echo reply, ⟨device, x.stats.answered reply⟩)

def execute (h : Hardware σ) (x : Bench σ) (c : Command) : Response × Bench σ :=
  match c.prepare with
  | .error e => x.reject e
  | .ok (echo, request) => x.perform h echo request

def executeParsed (h : Hardware σ) (x : Bench σ) (parsed : Except Failure Command) :
    Response × Bench σ :=
  match parsed with
  | .error e => x.reject e
  | .ok c => x.execute h c

def run (h : Hardware σ) (x : Bench σ) (text : String) : Response × Bench σ :=
  x.executeParsed h (Command.parse text)

end Bench

end BenchConsole
