import BenchConsole.Proofs.Bench
import BenchConsole.Proofs.Relay
import BenchConsole.Proofs.Relay.PendingQueue
import BenchConsole.Proofs.Relay.Routing

/-!
# Histories of a relay

A history is a list of operations, each with the runtime that it meets. What an operation is seen to
do is written down in its `Effects`: the command texts that the queue accepts, the entries that are
given back with their responses, the texts that are run, and the lines that are echoed.

`Operation.law` ties these to the state: one operation runs the texts that are written down and no
others, and the pending commands with the accepted ones are those given back with those pending
then. By induction the same holds of whole histories, so a deferred command is run exactly once, by
the drain that gives it back, in the order of acceptance (`deferred_commands_run_once`).
-/

namespace BenchConsole.Relay

open Script Text

variable {σ ρ α : Type}

/-- What is seen of an operation. -/
structure Effects where
  /-- The command texts that the queue accepted. -/
  accepted : List String := []
  /-- The entries that a drain gave back with their responses. -/
  returned : List DeferredCommand := []
  /-- The texts that were run, in order. -/
  ran : List String := []
  /-- The response lines that were echoed, in order. -/
  echoed : List String := []

/-- What is seen of a line, by its outcome. -/
def Effects.ofLine (p : Protocol) (line : String) : Outcome → Effects
  | .executed response => { ran := (commandOf? p line).toList, echoed := [response.line] }
  | .queued _ => { accepted := ((commandOf? p line).map trimmed).toList }
  | .rejected _ => {}
  | .passthrough _ => {}

/-- What is seen of a drain. -/
def Effects.ofDrain (entries : List DeferredCommand) : Effects where
  returned := entries
  ran := entries.map DeferredCommand.command
  echoed := entries.map DeferredCommand.response

/-- An operation on a relay, with the runtime and the state that it meets it in. -/
inductive Operation : Type 1 where
  | receive {ρ : Type} (rt : Runtime ρ) (r : ρ) (line : String)
  | ask {ρ : Type} (rt : Runtime ρ) (r : ρ) (command : String)
  | post {ρ : Type} (rt : Runtime ρ) (r : ρ) (command : String)
  | execute (text : String)
  | takeEchoes
  | drain {ρ : Type} (rt : Runtime ρ) (r : ρ)

namespace Operation

/-- The relay after an operation. -/
def apply (h : Hardware σ) (e : Relay σ) : Operation → Relay σ
  | receive rt r line => (e.receive h rt r line).2.1
  | ask rt r command => (e.ask h rt r command).2.1
  | post rt r command => (e.post h rt r command).2.1
  | execute text => (e.execute h text).2
  | takeEchoes => e.takeEchoes.2
  | drain rt r => (e.drain h rt r).2.1

/-- What an operation is seen to do. -/
def effects (h : Hardware σ) (e : Relay σ) : Operation → Effects
  | receive rt r line => .ofLine e.protocol line (e.receive h rt r line).1
  | ask rt r command =>
    let line := e.protocol.syncSentinel ++ command
    let cleared := (rt.assign readyVariable (.bool false) r).2
    .ofLine e.protocol line ({ e with answer := none }.receive h rt cleared line).1
  | post rt r command =>
    let line := e.protocol.queueSentinel ++ command
    .ofLine e.protocol line (e.receive h rt r line).1
  | execute text => { ran := [text] }
  | takeEchoes => {}
  | drain rt r => .ofDrain (e.drain h rt r).1

/-- The echoed lines that an operation leaves in place. -/
def kept (e : Relay σ) : Operation → List String
  | takeEchoes => []
  | _ => e.echoes

end Operation

/-- The relay after a history. -/
def after (h : Hardware σ) (e : Relay σ) (history : List Operation) : Relay σ :=
  history.foldl (Operation.apply h) e

/-- What the operations of a history yield, one after the other. -/
def collect (h : Hardware σ) (yield : Relay σ → Operation → List α) :
    Relay σ → List Operation → List α
  | _, [] => []
  | e, op :: history => yield e op ++ collect h yield (op.apply h e) history

variable {h : Hardware σ} {rt : Runtime ρ} {e : Relay σ} {r : ρ}

theorem Reachable.apply (hr : Reachable h e) (op : Operation) : Reachable h (op.apply h e) := by
  cases op with
  | receive rt r line => exact hr.receive rt r line
  | ask rt r command => exact hr.ask rt r command
  | post rt r command => exact hr.post rt r command
  | execute text => exact hr.execute text
  | takeEchoes => exact hr.takeEchoes
  | drain rt r => exact hr.drain rt r

theorem Reachable.after (hr : Reachable h e) (history : List Operation) :
    Reachable h (e.after h history) := by
  induction history generalizing e with
  | nil => exact hr
  | cons op history ih => exact ih (hr.apply op)

theorem protocol_of_steps {e' : Relay σ} (hs : Relation.ReflTransGen (Step h) e e') :
    e'.protocol = e.protocol := by
  induction hs with
  | refl => rfl
  | tail _ hs ih =>
    rw [← ih]
    cases hs <;> rfl

theorem Operation.steps_apply (op : Operation) :
    Relation.ReflTransGen (Step h) e (op.apply h e) := by
  cases op with
  | receive rt r line => exact steps_receive h rt e r line
  | ask rt r command => exact steps_ask h rt e r command
  | post rt r command => exact steps_post h rt e r command
  | execute text => exact .single (.execute text)
  | takeEchoes => exact .single .take
  | drain rt r => exact steps_drainAtMost h rt e r _

/-- No operation changes the protocol. -/
theorem protocol_after (history : List Operation) : (e.after h history).protocol = e.protocol := by
  induction history generalizing e with
  | nil => rfl
  | cons op history ih => exact ih.trans (protocol_of_steps op.steps_apply)

/-! ## Lines -/

/-- What a line does to a relay, by its outcome. -/
inductive LineEffect (h : Hardware σ) (e : Relay σ) (line : String) : Outcome → Relay σ → Prop
  | executed : commandOf? e.protocol line = some command →
    LineEffect h e line (.executed (e.runNow h command).1) (e.runNow h command).2
  | queued : commandOf? e.protocol line = some command →
    q.toList = e.queue.toList ++ [⟨trimmed command, ""⟩] →
    LineEffect h e line (.queued pending) { e with queue := q }
  | rejected (failure : Failure) : LineEffect h e line (.rejected failure) e
  | passthrough (text : String) : LineEffect h e line (.passthrough text) e

theorem lineEffect_receive (h : Hardware σ) (rt : Runtime ρ) (e : Relay σ) (r : ρ)
    (line : String) :
    LineEffect h e line (e.receive h rt r line).1 (e.receive h rt r line).2.1 := by
  rw [receive_eq]
  cases hroute : route e.protocol (rt.reentrySafe r) line with
  | run command => exact .executed (commandOf?_of_run hroute)
  | postpone command =>
    have hcommand := commandOf?_of_postpone hroute
    cases hq : e.queue.enqueue (trimmed command) with
    | error failure =>
      simp only [postpone, hq]
      exact .rejected failure
    | ok queued =>
      simp only [postpone, hq]
      exact .queued hcommand (PendingQueue.toList_of_enqueue hq).1
  | pass => exact .passthrough _

/-! ## Drains -/

/-- What a drain does: it gives back the pending commands in their order, each with the line of its
own response, and leaves none. -/
structure Drained (h : Hardware σ) (e : Relay σ) (entries : List DeferredCommand)
    (later : Relay σ) : Prop where
  commands : entries.map DeferredCommand.command = e.queue.toList.map DeferredCommand.command
  responses : entries.map DeferredCommand.response =
    (e.bench.runAll h (entries.map DeferredCommand.command)).1.map Response.line
  bench : later.bench = (e.bench.runAll h (entries.map DeferredCommand.command)).2
  echoes : later.echoes = (entries.map DeferredCommand.response).foldl pushEcho e.echoes
  empty : later.queue.toList = []

theorem drained_of_empty (hempty : e.queue.toList = []) : Drained h e [] e where
  commands := by rw [hempty]
  responses := rfl
  bench := rfl
  echoes := rfl
  empty := hempty

/-- The first entry is run as it is taken out, then the others. -/
theorem Drained.cons (hm : e.memo.IsFaithful) {entry : DeferredCommand} {queue : PendingQueue}
    (hlist : e.queue.toList = entry :: queue.toList) {entries : List DeferredCommand}
    {later : Relay σ}
    (hd : Drained h ({ e with queue }.runDeferred h rt r entry).2.1 entries later) :
    Drained h e (({ e with queue }.runDeferred h rt r entry).1 :: entries) later := by
  obtain ⟨hresponse, hbench⟩ := Memo.IsFaithful.execute_eq (h := h) (e := { e with queue }) hm
    entry.command
  have hcommands : entries.map DeferredCommand.command =
      queue.toList.map DeferredCommand.command := hd.commands
  have hrun := hd.bench
  have hresponses := hd.responses
  have hfirst : ({ e with queue }.runDeferred h rt r entry).2.1.bench =
      (e.bench.run h entry.command).2 := hbench
  have hcommand : ({ e with queue }.runDeferred h rt r entry).1.command = entry.command := rfl
  have hline : ({ e with queue }.runDeferred h rt r entry).1.response =
      (e.bench.run h entry.command).1.line := congrArg Response.line hresponse
  rw [hfirst] at hrun hresponses
  constructor
  · rw [List.map_cons, hcommand, hlist, List.map_cons, hcommands]
  · rw [List.map_cons, List.map_cons, hcommand, Bench.runAll_cons, List.map_cons, hline, hresponses]
  · rw [List.map_cons, hcommand, Bench.runAll_cons, hrun]
  · exact hd.echoes
  · exact hd.empty

theorem drained_drainAtMost (hm : e.memo.IsFaithful) {fuel : Nat} (hfuel : e.queue.count ≤ fuel) :
    Drained h e (drainAtMost h rt fuel e r).1 (drainAtMost h rt fuel e r).2.1 := by
  induction fuel generalizing e r with
  | zero => exact drained_of_empty (PendingQueue.toList_eq_nil_iff.mpr (Nat.le_zero.mp hfuel))
  | succ fuel ih =>
    rw [drainAtMost]
    split
    · next hpop => exact drained_of_empty (PendingQueue.pop?_eq_none_iff.mp hpop)
    · next entry queue hpop =>
      have hlist := PendingQueue.toList_of_pop? hpop
      have hlength := congrArg List.length hlist
      rw [List.length_cons, PendingQueue.length_toList, PendingQueue.length_toList] at hlength
      refine (ih ?_ ?_).cons hm hlist
      · exact hm.read _
      · change queue.count ≤ fuel
        omega

theorem drained_drain (hm : e.memo.IsFaithful) :
    Drained h e (e.drain h rt r).1 (e.drain h rt r).2.1 :=
  drained_drainAtMost hm (Nat.le_refl _)

/-! ## Single operations -/

/-- How the state of a relay follows from what was seen of an operation. -/
structure Law (h : Hardware σ) (e : Relay σ) (kept : List String) (seen : Effects)
    (later : Relay σ) : Prop where
  queue : e.queue.toList.map DeferredCommand.command ++ seen.accepted =
    seen.returned.map DeferredCommand.command ++ later.queue.toList.map DeferredCommand.command
  bench : later.bench = (e.bench.runAll h seen.ran).2
  echoes : later.echoes = seen.echoed.foldl pushEcho kept

theorem bench_execute (hm : e.memo.IsFaithful) (text : String) :
    (e.execute h text).2.bench = (e.bench.runAll h [text]).2 := by
  rw [(hm.execute_eq text).2, Bench.runAll_cons]
  rfl

theorem LineEffect.law (hm : e.memo.IsFaithful) {line : String} {outcome : Outcome}
    {later : Relay σ} (hl : LineEffect h e line outcome later) :
    Law h e e.echoes (.ofLine e.protocol line outcome) later := by
  cases hl with
  | executed hcommand =>
    simp only [Effects.ofLine, hcommand]
    exact ⟨List.append_nil _, bench_execute hm _, rfl⟩
  | queued hcommand hlist =>
    simp only [Effects.ofLine, hcommand]
    refine ⟨?_, rfl, rfl⟩
    rw [hlist, List.map_append]
    rfl
  | rejected failure => exact ⟨List.append_nil _, rfl, rfl⟩
  | passthrough text => exact ⟨List.append_nil _, rfl, rfl⟩

theorem Drained.law {entries : List DeferredCommand} {later : Relay σ}
    (hd : Drained h e entries later) : Law h e e.echoes (.ofDrain entries) later := by
  refine ⟨?_, hd.bench, hd.echoes⟩
  rw [hd.empty]
  exact congrArg (· ++ []) hd.commands.symm

theorem Operation.law (hm : e.memo.IsFaithful) (op : Operation) :
    Law h e (op.kept e) (op.effects h e) (op.apply h e) := by
  cases op with
  | receive rt r line => exact (lineEffect_receive h rt e r line).law hm
  | ask rt r command =>
    rw [Operation.apply, ask_eq]
    obtain ⟨hqueue, hbench, hechoes⟩ := LineEffect.law (e := { e with answer := none }) hm
      (lineEffect_receive h rt _ (rt.assign readyVariable (.bool false) r).2
        (e.protocol.syncSentinel ++ command))
    exact ⟨hqueue, hbench, hechoes⟩
  | post rt r command =>
    rw [Operation.apply, post_eq]
    exact (lineEffect_receive h rt e r _).law hm
  | execute text => exact ⟨List.append_nil _, bench_execute hm text, rfl⟩
  | takeEchoes => exact ⟨List.append_nil _, rfl, rfl⟩
  | drain rt r => exact (drained_drain hm).law

/-! ## Histories -/

theorem Reachable.queue_after (hr : Reachable h e) (history : List Operation) :
    e.queue.toList.map DeferredCommand.command ++
        collect h (fun e op => (op.effects h e).accepted) e history =
      (collect h (fun e op => (op.effects h e).returned) e history).map DeferredCommand.command ++
        (e.after h history).queue.toList.map DeferredCommand.command := by
  induction history generalizing e with
  | nil => exact List.append_nil _
  | cons op history ih =>
    have hfirst := (op.law (h := h) hr.memo_isFaithful).queue
    have hrest := ih (hr.apply op)
    calc
      _ = (e.queue.toList.map DeferredCommand.command ++ (op.effects h e).accepted) ++
          collect h (fun e op => (op.effects h e).accepted) (op.apply h e) history := by
        rw [collect, List.append_assoc]
      _ = (op.effects h e).returned.map DeferredCommand.command ++
          ((op.apply h e).queue.toList.map DeferredCommand.command ++
            collect h (fun e op => (op.effects h e).accepted) (op.apply h e) history) := by
        rw [hfirst, List.append_assoc]
      _ = _ := by
        rw [hrest, collect, List.map_append, List.append_assoc]
        rfl

theorem Reachable.bench_after (hr : Reachable h e) (history : List Operation) :
    (e.after h history).bench =
      (e.bench.runAll h (collect h (fun e op => (op.effects h e).ran) e history)).2 := by
  induction history generalizing e with
  | nil => rfl
  | cons op history ih =>
    have hfirst : (op.apply h e).bench = (e.bench.runAll h (op.effects h e).ran).2 :=
      (op.law hr.memo_isFaithful).bench
    rw [collect, Bench.runAll_append, ← hfirst]
    exact ih (hr.apply op)

/-- A command that the queue accepts is not run by then, and nothing is echoed. -/
theorem Operation.idle_of_accepted {op : Operation} (ha : (op.effects h e).accepted ≠ []) :
    (op.effects h e).ran = [] ∧ (op.effects h e).echoed = [] := by
  have hline {p : Protocol} {line : String} {outcome : Outcome}
      (ha : (Effects.ofLine p line outcome).accepted ≠ []) :
      (Effects.ofLine p line outcome).ran = [] ∧
        (Effects.ofLine p line outcome).echoed = [] := by
    cases outcome with
    | queued pending => exact ⟨rfl, rfl⟩
    | _ => exact absurd rfl ha
  cases op with
  | receive rt r line | ask rt r command | post rt r command => exact hline ha
  | _ => exact absurd rfl ha

theorem receive_unchanged {ρ : Type} {rt : Runtime ρ} {r r' : ρ} {line : String}
    {outcome : Outcome} {later : Relay σ} (hr : e.receive h rt r line = (outcome, later, r'))
    (ho : (∃ failure, outcome = .rejected failure) ∨ ∃ text, outcome = .passthrough text) :
    later = e ∧ r' = r := by
  rw [receive_eq] at hr
  cases hroute : route e.protocol (rt.reentrySafe r) line with
  | run command =>
    rw [hroute] at hr
    cases hr
    rcases ho with ⟨_, ho⟩ | ⟨_, ho⟩ <;> cases ho
  | postpone command =>
    rw [hroute] at hr
    cases hr
    cases hq : e.queue.enqueue (trimmed command) with
    | error failure =>
      simp only [postpone, hq]
      trivial
    | ok queued =>
      simp only [postpone, hq] at ho
      rcases ho with ⟨_, ho⟩ | ⟨_, ho⟩ <;> cases ho
  | pass =>
    rw [hroute] at hr
    cases hr
    exact ⟨rfl, rfl⟩

/-- The commands that the queue accepts in a history are those that the drains give back, in the
order of acceptance, and then those still pending. The bench is the one that comes of running the
texts that were run: those run at once, and the deferred ones at the drains that give them back. -/
theorem deferred_commands_run_once (h : Hardware σ) (device : σ) (protocol : Protocol)
    (history : List Operation) :
    let start := Relay.new device protocol
    let e := start.after h history
    collect h (fun e op => (op.effects h e).accepted) start history =
        (collect h (fun e op => (op.effects h e).returned) start history).map
            DeferredCommand.command ++
          e.queue.toList.map DeferredCommand.command ∧
      e.bench =
        (start.bench.runAll h (collect h (fun e op => (op.effects h e).ran) start history)).2 ∧
      (∀ op : Operation, Law h e (op.kept e) (op.effects h e) (op.apply h e) ∧
        ((op.effects h e).accepted ≠ [] →
          (op.effects h e).ran = [] ∧ (op.effects h e).echoed = [])) ∧
      (∀ (ρ : Type) (rt : Runtime ρ) (r r' : ρ) (line : String) (outcome : Outcome)
        (later : Relay σ), e.receive h rt r line = (outcome, later, r') →
        ((∃ failure, outcome = .rejected failure) ∨ ∃ text, outcome = .passthrough text) →
        later = e ∧ r' = r) ∧
      ∀ (ρ : Type) (rt : Runtime ρ) (r : ρ),
        Drained h e (e.drain h rt r).1 (e.drain h rt r).2.1 := by
  intro start e
  have hstart : Reachable h start := .new device protocol
  have hm := (hstart.after history).memo_isFaithful
  refine ⟨hstart.queue_after history, hstart.bench_after history, fun op => ⟨op.law hm, ?_⟩, ?_, ?_⟩
  · exact Operation.idle_of_accepted
  · exact fun _ _ _ _ _ _ _ hr ho => receive_unchanged hr ho
  · exact fun _ _ _ => drained_drain hm

/-- Two commands that wait for the drain, a third one that the queue has no room for, a line that is
run before them, and a command that still waits at the end. -/
def fullQueueHistory : List Operation :=
  let rt := Interpreter.runtime
  [.post rt {} "gpio(set, 1, HIGH)", .receive rt {} "::QUEUE::dac(set)", .post rt {} "oled(clear)",
    .receive rt {} "::SYNC::gpio(get, 1)", .drain rt {}, .execute "gpio(get, 1)",
    .post rt {} "slot(get)"]

theorem deferred_commands_run_once_fullQueue :
    let h := Board.simulated
    let start := Relay.new (Board.new {}) { queueCapacity := 2 }
    let e := start.after h fullQueueHistory
    let returned := collect h (fun e op => (op.effects h e).returned) start fullQueueHistory
    collect h (fun e op => (op.effects h e).accepted) start fullQueueHistory =
        ["gpio(set, 1, HIGH)", "dac(set)", "slot(get)"] ∧
      returned.map (fun entry => (entry.command, entry.response)) =
        [("gpio(set, 1, HIGH)", "SUCCESS: gpio(set, pin=1, value=HIGH)"),
          ("dac(set)", "ERROR: missing parameter 'channel' for dac(set)")] ∧
      e.queue.toList.map DeferredCommand.command = ["slot(get)"] ∧
      e.bench = (start.bench.runAll h
        ["gpio(get, 1)", "gpio(set, 1, HIGH)", "dac(set)", "gpio(get, 1)"]).2 := by
  intro h start e returned
  have haccepted : collect h (fun e op => (op.effects h e).accepted) start fullQueueHistory =
      ["gpio(set, 1, HIGH)", "dac(set)", "slot(get)"] := by decide +kernel
  have hreturned : returned.map DeferredCommand.command = ["gpio(set, 1, HIGH)", "dac(set)"] := by
    decide +kernel
  have hran : collect h (fun e op => (op.effects h e).ran) start fullQueueHistory =
      ["gpio(get, 1)", "gpio(set, 1, HIGH)", "dac(set)", "gpio(get, 1)"] := by decide +kernel
  obtain ⟨hqueue, hbench, -⟩ := deferred_commands_run_once h (Board.new {})
    { queueCapacity := 2 } fullQueueHistory
  rw [haccepted, hreturned] at hqueue
  rw [hran] at hbench
  have hpending : ["gpio(set, 1, HIGH)", "dac(set)"] ++ ["slot(get)"] =
      ["gpio(set, 1, HIGH)", "dac(set)"] ++ e.queue.toList.map DeferredCommand.command := hqueue
  exact ⟨haccepted, by decide +kernel, (List.append_cancel_left hpending).symm, hbench⟩

end BenchConsole.Relay
