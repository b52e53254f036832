import BenchConsole.Proofs.Relay
import BenchConsole.Proofs.Relay.Routing
import BenchConsole.Proofs.Relay.Trace
import Mathlib.Data.List.Forall2

/-!
# What a relay does not depend on

Two relays that stand in a `Lockstep` give the same back to every call and stay in it, and what they
hand to their runtimes is the same (`Lockstep.result`). By induction so do whole traces, in two
ways:

* Relays that differ in their memos only (`SameButMemo`) are in lockstep, since a memo holds nothing
  but what reading gives. So it does not matter how much a memo may hold (`memo_changes_nothing`).
* A relay is in lockstep with itself, whatever runtime it serves. So nothing comes back from the
  runtime but the word on whether it may be entered (`runtime_changes_nothing`).
-/

namespace BenchConsole.Relay

open Script Text

variable {σ τ ρ ρ' α β : Type}

/-! ## Lockstep -/

/-- Relays that show the same, what they work on aside. -/
structure SameView (e : Relay σ) (e' : Relay τ) : Prop where
  queue : e'.queue = e.queue
  answer : e'.answer = e.answer
  echoes : e'.echoes = e.echoes
  syncSentinel : e'.protocol.syncSentinel = e.protocol.syncSentinel
  queueSentinel : e'.protocol.queueSentinel = e.protocol.queueSentinel
  pollAttempts : e'.protocol.pollAttempts = e.protocol.pollAttempts

/-- Related relays show the same, and whatever is done to both of them leaves them related. The
hardware that they work on may differ. -/
structure Lockstep (h : Hardware σ) (h' : Hardware τ) (R : Relay σ → Relay τ → Prop) : Prop where
  view : ∀ {e e'}, R e e' → SameView e e'
  response : ∀ {e e'}, R e e' → ∀ text, (e'.execute h' text).1 = (e.execute h text).1
  execute : ∀ {e e'}, R e e' → ∀ text, R (e.execute h text).2 (e'.execute h' text).2
  withQueue : ∀ {e e'}, R e e' → ∀ queue, R { e with queue } { e' with queue }
  withAnswer : ∀ {e e'}, R e e' → ∀ answer, R { e with answer } { e' with answer }
  withEchoes : ∀ {e e'}, R e e' → ∀ echoes, R { e with echoes } { e' with echoes }

/-- Whatever is handed to both of two related runtimes leaves them related. -/
structure Driven (rt : Runtime ρ) (rt' : Runtime ρ') (S : ρ → ρ' → Prop) : Prop where
  execute : ∀ {r r'}, S r r' → ∀ code, S (rt.execute code r).2 (rt'.execute code r').2
  assign : ∀ {r r'}, S r r' → ∀ name v, S (rt.assign name v r).2 (rt'.assign name v r').2

/-- Two results are the same, with related relays and related runtimes. -/
structure Matched (R : Relay σ → Relay τ → Prop) (S : ρ → ρ' → Prop) (x : α × Relay σ × ρ)
    (y : α × Relay τ × ρ') : Prop where
  value : y.1 = x.1
  relay : R x.2.1 y.2.1
  runtime : S x.2.2 y.2.2

section

variable {h : Hardware σ} {h' : Hardware τ} {rt : Runtime ρ} {rt' : Runtime ρ'} {e : Relay σ}
  {e' : Relay τ} {r : ρ} {r' : ρ'} {R : Relay σ → Relay τ → Prop} {S : ρ → ρ' → Prop}

theorem Matched.map {x : α × Relay σ × ρ} {y : α × Relay τ × ρ'} (hm : Matched R S x y)
    (f : α → β) : Matched R S (x.map f id) (y.map f id) :=
  ⟨congrArg f hm.value, hm.relay, hm.runtime⟩

namespace Lockstep

theorem echo (hR : Lockstep h h' R) (he : R e e') (line : String) :
    R (e.echo line) (e'.echo line) := by
  rw [Relay.echo, Relay.echo, (hR.view he).echoes]
  exact hR.withEchoes he _

theorem runNow (hR : Lockstep h h' R) (he : R e e') (command : String) :
    (e'.runNow h' command).1 = (e.runNow h command).1 ∧
      R (e.runNow h command).2 (e'.runNow h' command).2 := by
  have hresponse := hR.response he command
  refine ⟨hresponse, ?_⟩
  simp only [Relay.runNow, hresponse]
  exact hR.withAnswer (hR.echo (hR.execute he command) _) _

theorem postpone (hR : Lockstep h h' R) (he : R e e') (command : String) :
    (e'.postpone command).1 = (e.postpone command).1 ∧
      R (e.postpone command).2 (e'.postpone command).2 := by
  unfold Relay.postpone
  rw [(hR.view he).queue]
  cases e.queue.enqueue (trimmed command) with
  | ok queued => exact ⟨rfl, hR.withQueue he queued.2⟩
  | error failure => exact ⟨rfl, he⟩

theorem route (hR : Lockstep h h' R) (he : R e e') (safe : Bool) (line : String) :
    Relay.route e'.protocol safe line = Relay.route e.protocol safe line := by
  unfold Relay.route
  rw [(hR.view he).syncSentinel, (hR.view he).queueSentinel]

theorem receive (hR : Lockstep h h' R) (hS : Driven rt rt' S) (he : R e e') (hr : S r r')
    (hsafe : rt'.reentrySafe r' = rt.reentrySafe r) (line : String) :
    Matched R S (e.receive h rt r line) (e'.receive h' rt' r' line) := by
  rw [receive_eq, receive_eq, hsafe, hR.route he]
  cases Relay.route e.protocol (rt.reentrySafe r) line with
  | run command =>
    obtain ⟨hresponse, hrelay⟩ := hR.runNow he command
    simp only [hresponse]
    exact ⟨rfl, hrelay, hS.execute hr _⟩
  | postpone command =>
    obtain ⟨houtcome, hrelay⟩ := hR.postpone he command
    exact ⟨houtcome, hrelay, hr⟩
  | pass => exact ⟨rfl, he, hr⟩

theorem awaitAnswer (hR : Lockstep h h' R) (he : R e e') : e'.awaitAnswer = e.awaitAnswer := by
  unfold Relay.awaitAnswer
  rw [(hR.view he).answer, (hR.view he).pollAttempts]

theorem answerOfLine (hR : Lockstep h h' R) (he : R e e') (outcome : Outcome) :
    Relay.answerOfLine e' outcome = Relay.answerOfLine e outcome := by
  cases outcome with
  | executed response | passthrough text =>
    simp only [Relay.answerOfLine, Relay.answerOfCall, hR.awaitAnswer he]
  | _ => rfl

theorem ask (hR : Lockstep h h' R) (hS : Driven rt rt' S) (he : R e e') (hr : S r r')
    (hsafe : rt'.reentrySafe (rt'.assign readyVariable (.bool false) r').2 =
      rt.reentrySafe (rt.assign readyVariable (.bool false) r).2) (command : String) :
    Matched R S (e.ask h rt r command) (e'.ask h' rt' r' command) := by
  rw [ask_eq, ask_eq, (hR.view he).syncSentinel]
  have hm := hR.receive hS (hR.withAnswer he none) (hS.assign hr readyVariable (.bool false)) hsafe
    (e.protocol.syncSentinel ++ command)
  refine ⟨?_, hm.relay, hm.runtime⟩
  change Relay.answerOfLine _ _ = Relay.answerOfLine _ _
  rw [hm.value, hR.answerOfLine hm.relay]

theorem post (hR : Lockstep h h' R) (hS : Driven rt rt' S) (he : R e e') (hr : S r r')
    (hsafe : rt'.reentrySafe r' = rt.reentrySafe r) (command : String) :
    Matched R S (e.post h rt r command) (e'.post h' rt' r' command) := by
  rw [post_eq, post_eq, (hR.view he).queueSentinel]
  have hm := hR.receive hS he hr hsafe (e.protocol.queueSentinel ++ command)
  exact ⟨congrArg pendingOfLine hm.value, hm.relay, hm.runtime⟩

theorem runDeferred (hR : Lockstep h h' R) (hS : Driven rt rt' S) (he : R e e') (hr : S r r')
    (entry : DeferredCommand) :
    Matched R S (e.runDeferred h rt r entry) (e'.runDeferred h' rt' r' entry) := by
  have hresponse := hR.response he entry.command
  simp only [Relay.runDeferred, hresponse]
  exact ⟨rfl, hR.echo (hR.execute he entry.command) _, hS.execute hr _⟩

theorem drainAtMost (hR : Lockstep h h' R) (hS : Driven rt rt' S) (he : R e e') (hr : S r r')
    (fuel : Nat) :
    Matched R S (Relay.drainAtMost h rt fuel e r) (Relay.drainAtMost h' rt' fuel e' r') := by
  induction fuel generalizing e e' r r' with
  | zero => exact ⟨rfl, he, hr⟩
  | succ fuel ih =>
    simp only [Relay.drainAtMost, (hR.view he).queue]
    cases e.queue.pop? with
    | none => exact ⟨rfl, he, hr⟩
    | some popped =>
      obtain ⟨entry, queue⟩ := popped
      have hfirst := hR.runDeferred hS (hR.withQueue he queue) hr entry
      have hrest := ih hfirst.relay hfirst.runtime
      exact ⟨congrArg₂ _ hfirst.value hrest.value, hrest.relay, hrest.runtime⟩

theorem drain (hR : Lockstep h h' R) (hS : Driven rt rt' S) (he : R e e') (hr : S r r') :
    Matched R S (e.drain h rt r) (e'.drain h' rt' r') := by
  unfold Relay.drain
  rw [(hR.view he).queue]
  exact hR.drainAtMost hS he hr _

/-- A call gives the same back and leaves the relays in lockstep, if both runtimes say the same on
whether they may be entered. -/
theorem result (hR : Lockstep h h' R) (hS : Driven rt rt' S) (he : R e e') (hr : S r r')
    {call : Call} (hentry : call.reentry rt' r' = call.reentry rt r) :
    Matched R S (call.result h rt e r) (call.result h' rt' e' r') := by
  cases call with
  | receive line => exact (hR.receive hS he hr (Option.some.inj hentry) line).map _
  | ask command => exact (hR.ask hS he hr (Option.some.inj hentry) command).map _
  | post command => exact (hR.post hS he hr (Option.some.inj hentry) command).map _
  | awaitAnswer => exact ⟨congrArg _ (hR.awaitAnswer he), he, hr⟩
  | execute text => exact ⟨congrArg _ (hR.response he text), hR.execute he text, hr⟩
  | drain => exact (hR.drain hS he hr).map _
  | takeEchoes => exact ⟨congrArg _ (hR.view he).echoes, hR.withEchoes he [], hr⟩

end Lockstep

end

variable {h : Hardware σ} {rt : Runtime ρ} {e e' : Relay σ} {r : ρ}

/-! ## Memos -/

/-- Relays that differ in nothing but their memos and in how much these may hold. -/
structure SameButMemo (e e' : Relay σ) : Prop where
  bench : e'.bench = e.bench
  queue : e'.queue = e.queue
  answer : e'.answer = e.answer
  echoes : e'.echoes = e.echoes
  protocol : e'.protocol = { e.protocol with memoCapacity := e'.protocol.memoCapacity }

theorem SameButMemo.view (he : SameButMemo e e') : SameView e e' where
  queue := he.queue
  answer := he.answer
  echoes := he.echoes
  syncSentinel := by rw [he.protocol]
  queueSentinel := by rw [he.protocol]
  pollAttempts := by rw [he.protocol]

/-- Relays that differ in their memos only are in lockstep while these are faithful. -/
theorem lockstep_of_memos (h : Hardware σ) : Lockstep h h fun e e' =>
    SameButMemo e e' ∧ e.memo.IsFaithful ∧ e'.memo.IsFaithful where
  view he := he.1.view
  response := by
    intro e e' ⟨hsame, hm, hm'⟩ text
    rw [(hm.execute_eq text).1, (hm'.execute_eq text).1, hsame.bench]
  execute := by
    intro e e' ⟨hsame, hm, hm'⟩ text
    refine ⟨{ hsame with bench := ?_ }, hm.read _, hm'.read _⟩
    rw [(hm.execute_eq text).2, (hm'.execute_eq text).2, hsame.bench]
  withQueue he _ := ⟨{ he.1 with queue := rfl }, he.2⟩
  withAnswer he _ := ⟨{ he.1 with answer := rfl }, he.2⟩
  withEchoes he _ := ⟨{ he.1 with echoes := rfl }, he.2⟩

theorem driven_eq (rt : Runtime ρ) : Driven rt rt Eq where
  execute hr _ := by rw [hr]
  assign hr _ _ := by rw [hr]

theorem trace_of_memos (rt : Runtime ρ) (r : ρ) (he : SameButMemo e e')
    (hm : e.memo.IsFaithful) (hm' : e'.memo.IsFaithful) (calls : List Call) :
    List.Forall₂ (fun x y => y.returned = x.returned ∧ SameButMemo x.relay y.relay ∧
      y.runtime = x.runtime) (trace h rt e r calls) (trace h rt e' r calls) := by
  induction calls generalizing e e' r with
  | nil => exact .nil
  | cons call calls ih =>
    obtain ⟨hvalue, ⟨hsame, hfaithful, hfaithful'⟩, hruntime⟩ :=
      (lockstep_of_memos h).result (driven_eq rt) ⟨he, hm, hm'⟩ rfl (rfl : call.reentry rt r = _)
    refine .cons ⟨hvalue, hsame, hruntime.symm⟩ ?_
    change List.Forall₂ _ _ (trace h rt _ (call.result h rt e' r).2.2 calls)
    rw [← hruntime]
    exact ih _ hsame hfaithful hfaithful'

/-- What a memo gives for texts that it reads one after the other. -/
def Memo.readAll : Memo → List String → List (Except Failure Command)
  | _, [] => []
  | memo, text :: texts => (memo.read text).1 :: Memo.readAll (memo.read text).2 texts

theorem Memo.IsFaithful.readAll_eq {memo : Memo} (hm : memo.IsFaithful) (texts : List String) :
    memo.readAll texts = texts.map Command.parse := by
  induction texts generalizing memo with
  | nil => rfl
  | cons text texts ih => rw [Memo.readAll, List.map_cons, hm.read_eq, ih (hm.read text)]

theorem Memo.isFaithful_new (capacity : Nat) : ({ capacity } : Memo).IsFaithful :=
  fun _ hentry => absurd hentry List.not_mem_nil

/-- How much the memo of a relay may hold is not seen: relays that can be reached and differ in
their memos only give the same back to the same calls, and differ in their memos only from then on.
A memo of any size gives for each text what reading it gives. -/
theorem memo_changes_nothing (he : Reachable h e) (he' : Reachable h e') (hsame : SameButMemo e e')
    (rt : Runtime ρ) (r : ρ) (calls : List Call) :
    List.Forall₂ (fun x y => y.returned = x.returned ∧ SameButMemo x.relay y.relay ∧
      y.runtime = x.runtime) (trace h rt e r calls) (trace h rt e' r calls) ∧
      ∀ (capacity : Nat) (texts : List String),
        ({ capacity } : Memo).readAll texts = texts.map Command.parse :=
  ⟨trace_of_memos rt r hsame he.memo_isFaithful he'.memo_isFaithful calls,
    fun capacity texts => (Memo.isFaithful_new capacity).readAll_eq texts⟩

theorem memo_changes_nothing_forgetful :
    let e := Relay.new (Board.new {}) {}
    let forgetful := Relay.new (Board.new {}) { memoCapacity := 0 }
    let calls : List Call := [.execute "slot(get)", .ask "slot(get)\n"]
    Reachable Board.simulated e ∧ Reachable Board.simulated forgetful ∧ SameButMemo e forgetful ∧
      (follow Board.simulated Interpreter.runtime e {} calls).1.memo.hits = 1 ∧
      (follow Board.simulated Interpreter.runtime forgetful {} calls).1.memo.hits = 0 ∧
      List.Forall₂ (fun x y => y.returned = x.returned ∧ SameButMemo x.relay y.relay ∧
        y.runtime = x.runtime) (trace Board.simulated Interpreter.runtime e {} calls)
        (trace Board.simulated Interpreter.runtime forgetful {} calls) := by
  intro e forgetful calls
  have hsame : SameButMemo e forgetful := ⟨rfl, rfl, rfl, rfl, rfl⟩
  exact ⟨.new _ _, .new _ _, hsame, by decide +kernel, by decide +kernel,
    (memo_changes_nothing (.new _ _) (.new _ _) hsame Interpreter.runtime {} calls).1⟩

/-! ## Runtimes -/

theorem lockstep_eq (h : Hardware σ) : Lockstep h h Eq where
  view he := by
    subst he
    exact ⟨rfl, rfl, rfl, rfl, rfl, rfl⟩
  response he _ := by rw [he]
  execute he _ := by rw [he]
  withQueue he _ := by rw [he]
  withAnswer he _ := by rw [he]
  withEchoes he _ := by rw [he]

/-- What is seen of a turn at the relay, the runtime aside. -/
def Turn.seen (turn : Turn σ ρ) : Returned × Relay σ :=
  (turn.returned, turn.relay)

/-- Two runtimes that say the same, at each hook call, on whether they may be entered get the same
from a relay and leave the same relay, call by call, whatever else they do. -/
theorem runtime_changes_nothing (h : Hardware σ) (e : Relay σ) (rt : Runtime ρ) (r : ρ)
    (rt' : Runtime ρ') (r' : ρ') (calls : List Call)
    (hentry : (trace h rt' e r' calls).map Turn.reentry = (trace h rt e r calls).map Turn.reentry) :
    (trace h rt' e r' calls).map Turn.seen = (trace h rt e r calls).map Turn.seen := by
  induction calls generalizing e r r' with
  | nil => rfl
  | cons call calls ih =>
    obtain ⟨hfirst, hrest⟩ := List.cons.inj hentry
    have hdriven : Driven rt rt' fun _ _ => True := ⟨fun _ _ => trivial, fun _ _ _ => trivial⟩
    obtain ⟨hvalue, hrelay, -⟩ := (lockstep_eq h).result hdriven (rfl : e = e) trivial hfirst
    have hrelay' : (call.perform h rt' e r').relay = (call.perform h rt e r).relay := hrelay.symm
    simp only [trace, List.map_cons]
    rw [hrelay'] at hrest ⊢
    exact congrArg₂ _ (Prod.ext hvalue hrelay') (ih _ _ _ hrest)

/-- A runtime that is always in the middle of something. -/
def busyRuntime : Runtime Unit :=
  .ofExecute fun _ _ => (.error (.runtime "interpreter busy"), ())

theorem runtime_changes_nothing_busyRuntime :
    let e := Relay.new (Board.new {}) {}
    let calls : List Call := [.execute "slot(get)", .ask "gpio(get, 99)", .awaitAnswer, .takeEchoes]
    let answered := trace Board.simulated Interpreter.runtime e {} calls
    let ignored := trace Board.simulated busyRuntime e () calls
    ignored.map Turn.reentry = answered.map Turn.reentry ∧
      ignored.map Turn.seen = answered.map Turn.seen := by
  intro e calls answered ignored
  have hentry : ignored.map Turn.reentry = answered.map Turn.reentry := by
    decide +kernel
  exact ⟨hentry, runtime_changes_nothing Board.simulated e Interpreter.runtime {} busyRuntime ()
    calls hentry⟩

end BenchConsole.Relay
