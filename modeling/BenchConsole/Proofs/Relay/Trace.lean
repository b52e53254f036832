import BenchConsole.Relay

/-!
# Calls and what comes of them

A host works with a relay through calls (`Call`). A runtime is handed over with each of them, and is
asked at the hook, if the call comes to it, whether it may be entered. `Call.perform` is one call;
the `Turn` that comes of it holds what the runtime said, what the call gives back, and the relay and
the runtime from then on. Calls one after the other are `trace`, with a turn for each, and `follow`,
with the relay and the runtime at the end.
-/

namespace BenchConsole.Relay

open Script

variable {σ ρ : Type}

/-- What a host can ask of a relay. -/
inductive Call where
  | receive (line : String)
  | ask (command : String)
  | post (command : String)
  | awaitAnswer
  | execute (text : String)
  | drain
  | takeEchoes

/-- What a call gives back. -/
inductive Returned where
  | outcome (outcome : Outcome)
  | answer (result : Except Failure Answer)
  | pending (result : Except Failure Nat)
  | response (response : Response)
  | entries (entries : List DeferredCommand)
  | echoes (lines : List String)

/-- What comes of a call. -/
structure Turn (σ ρ : Type) where
  /-- What the runtime says at the hook on whether it may be entered; nothing if the call does not
  come to the hook. -/
  reentry : Option Bool
  returned : Returned
  relay : Relay σ
  runtime : ρ

/-- What the runtime says at the hook. It is asked there after a question has cleared the flag. -/
def Call.reentry (rt : Runtime ρ) (r : ρ) : Call → Option Bool
  | receive _ => some (rt.reentrySafe r)
  | ask _ => some (rt.reentrySafe (rt.assign readyVariable (.bool false) r).2)
  | post _ => some (rt.reentrySafe r)
  | _ => none

/-- What a call gives back, with the relay and the runtime after it. -/
def Call.result (h : Hardware σ) (rt : Runtime ρ) (e : Relay σ) (r : ρ) :
    Call → Returned × Relay σ × ρ
  | receive line => (e.receive h rt r line).map .outcome id
  | ask command => (e.ask h rt r command).map .answer id
  | post command => (e.post h rt r command).map .pending id
  | awaitAnswer => (.answer e.awaitAnswer, e, r)
  | execute text => (.response (e.execute h text).1, (e.execute h text).2, r)
  | drain => (e.drain h rt r).map .entries id
  | takeEchoes => (.echoes e.takeEchoes.1, e.takeEchoes.2, r)

def Call.perform (h : Hardware σ) (rt : Runtime ρ) (e : Relay σ) (r : ρ) (call : Call) :
    Turn σ ρ :=
  let (returned, relay, runtime) := call.result h rt e r
  { reentry := call.reentry rt r, returned, relay, runtime }

/-- The turns of calls that are made one after the other. -/
def trace (h : Hardware σ) (rt : Runtime ρ) : Relay σ → ρ → List Call → List (Turn σ ρ)
  | _, _, [] => []
  | e, r, call :: calls =>
    let turn := call.perform h rt e r
    turn :: trace h rt turn.relay turn.runtime calls

/-- The relay and the runtime after such calls. -/
def follow (h : Hardware σ) (rt : Runtime ρ) : Relay σ → ρ → List Call → Relay σ × ρ
  | e, r, [] => (e, r)
  | e, r, call :: calls =>
    let turn := call.perform h rt e r
    follow h rt turn.relay turn.runtime calls

end BenchConsole.Relay
