import BenchConsole.Proofs.Relay.Calls
import BenchConsole.Proofs.Relay.History
import BenchConsole.Proofs.Relay.Independence
import BenchConsole.Proofs.Relay.Memo

/-!
# Accounts of a relay

What a relay counts, held against what was done with it. Every command that is executed is read
through the memo once and counted once on the bench, so that the two counts agree; this and the
bounds on the memo and on the echoed lines are `Accounts`, which every step keeps.

How many commands there were is told by the history: those of the lines that were executed at once,
those of the entries that were drained, and those that were handed in directly
(`length_collect_ran`). How many requests there were is told by the hardware: a relay on hardware
that writes its requests down is in lockstep with the relay itself, and one request is written down
for each one that is counted (`lockstep_recorded`). `history_accounts` says all of it.
-/

namespace BenchConsole

open Board Script Text

variable {σ τ : Type} {h : Hardware σ} {s : Stats}

/-! ## Counters of a bench -/

/-- Every command is counted as successful or as failed, and a successful one as a hardware call. -/
structure Stats.IsBalanced (s : Stats) : Prop where
  total : s.total = s.successful + s.failed
  successful : s.successful ≤ s.hardwareCalls
  hardwareCalls : s.hardwareCalls ≤ s.total

theorem Stats.IsBalanced.rejected (hs : s.IsBalanced) : s.rejected.IsBalanced where
  total := congrArg (· + 1) hs.total
  successful := hs.successful
  hardwareCalls := Nat.le_succ_of_le hs.hardwareCalls

theorem Stats.IsBalanced.answered (hs : s.IsBalanced) (reply : Except Fault Reply) :
    (s.answered reply).IsBalanced := by
  obtain ⟨htotal, hsuccessful, hcalls⟩ := hs
  cases reply with
  | ok reply => constructor <;> simp only [Stats.answered] <;> omega
  | error fault => constructor <;> simp only [Stats.answered] <;> omega

theorem Stats.total_answered (s : Stats) (reply : Except Fault Reply) :
    (s.answered reply).total = s.total + 1 := by
  cases reply <;> rfl

theorem Stats.hardwareCalls_answered (s : Stats) (reply : Except Fault Reply) :
    (s.answered reply).hardwareCalls = s.hardwareCalls + 1 := by
  cases reply <;> rfl

namespace Bench

theorem executeParsed_cases (h : Hardware σ) (x : Bench σ) (parsed : Except Failure Command) :
    (∃ failure, x.executeParsed h parsed = x.reject failure) ∨
      ∃ echo request, x.executeParsed h parsed = x.perform h echo request := by
  cases parsed with
  | error failure => exact .inl ⟨failure, rfl⟩
  | ok c =>
    simp only [executeParsed, execute]
    cases c.prepare with
    | error failure => exact .inl ⟨failure, rfl⟩
    | ok prepared => exact .inr ⟨prepared.1, prepared.2, rfl⟩

theorem total_executeParsed (x : Bench σ) (parsed : Except Failure Command) :
    (x.executeParsed h parsed).2.stats.total = x.stats.total + 1 := by
  rcases executeParsed_cases h x parsed with ⟨failure, he⟩ | ⟨echo, request, he⟩
  · rw [he]
    rfl
  · rw [he]
    exact x.stats.total_answered _

theorem isBalanced_executeParsed {x : Bench σ} (hx : x.stats.IsBalanced)
    (parsed : Except Failure Command) : (x.executeParsed h parsed).2.stats.IsBalanced := by
  rcases executeParsed_cases h x parsed with ⟨failure, he⟩ | ⟨echo, request, he⟩
  · rw [he]
    exact hx.rejected
  · rw [he]
    exact hx.answered _

theorem total_runAll (x : Bench σ) (texts : List String) :
    (x.runAll h texts).2.stats.total = x.stats.total + texts.length := by
  induction texts generalizing x with
  | nil => rfl
  | cons text texts ih =>
    rw [runAll_cons, ih, run, total_executeParsed, List.length_cons, Nat.add_assoc, Nat.add_comm 1]

/-- Hardware that writes its requests down answers as it did, and writes one down for each hardware
call that is counted. -/
theorem executeParsed_recorded (h : Hardware σ) (x : Bench σ) (requests : List Request)
    (parsed : Except Failure Command) :
    ∃ more, (x.recording requests).executeParsed h.recorded parsed =
        ((x.executeParsed h parsed).1, (x.executeParsed h parsed).2.recording (requests ++ more)) ∧
      (x.executeParsed h parsed).2.stats.hardwareCalls = x.stats.hardwareCalls + more.length := by
  cases parsed with
  | error failure => exact ⟨[], by rw [List.append_nil]; rfl, rfl⟩
  | ok c =>
    simp only [executeParsed, execute]
    cases c.prepare with
    | error failure => exact ⟨[], by rw [List.append_nil]; rfl, rfl⟩
    | ok prepared => exact ⟨[prepared.2], rfl, x.stats.hardwareCalls_answered _⟩

end Bench

namespace Relay

variable {ρ : Type} {rt : Runtime ρ} {e : Relay σ} {r : ρ}

theorem length_pushEcho_le {echoes : List String} (hlength : echoes.length ≤ maxEchoes)
    (line : String) : (pushEcho echoes line).length ≤ maxEchoes :=
  length_append_le (by decide) hlength line

/-! ## Accounts -/

/-- Counters that agree, and bounds that are kept. -/
structure Accounts (e : Relay σ) : Prop where
  stats : e.bench.stats.IsBalanced
  reads : e.bench.stats.total = e.memo.hits + e.memo.misses
  memoCapacity : e.memo.capacity = e.protocol.memoCapacity
  memoSize : e.memo.size ≤ e.memo.capacity
  echoes : e.echoes.length ≤ maxEchoes

theorem accounts_new (device : σ) (protocol : Protocol) : Accounts (.new device protocol) where
  stats := ⟨rfl, Nat.le_refl 0, Nat.le_refl 0⟩
  reads := rfl
  memoCapacity := rfl
  memoSize := Nat.zero_le _
  echoes := Nat.zero_le _

theorem Accounts.execute (ha : Accounts e) (h : Hardware σ) (text : String) :
    Accounts (e.execute h text).2 where
  stats := Bench.isBalanced_executeParsed ha.stats _
  reads := by
    have htotal := e.bench.total_executeParsed (h := h) (e.memo.read (trimmed text)).1
    exact htotal.trans (by rw [ha.reads]; exact (e.memo.hits_add_misses_read _).symm)
  memoCapacity := (e.memo.capacity_read _).trans ha.memoCapacity
  memoSize := (Memo.size_read_le ha.memoSize _).trans (e.memo.capacity_read _).ge
  echoes := ha.echoes

/-- The accounts of a relay are in order, whatever was done with it. -/
theorem Reachable.accounts (hr : Reachable h e) : Accounts e := by
  refine hr.induction (motive := Accounts) accounts_new ?_
  intro e e' hs ha
  cases hs with
  | execute text => exact ha.execute h text
  | echo line => exact { ha with echoes := length_pushEcho_le ha.echoes line }
  | answer a => exact { ha with }
  | queue q => exact { ha with }
  | take => exact { ha with echoes := Nat.zero_le _ }

/-! ## Room in the queue -/

theorem capacity_postpone (e : Relay σ) (command : String) :
    (e.postpone command).2.queue.capacity = e.queue.capacity := by
  unfold postpone
  split
  · next hq => exact PendingQueue.capacity_of_enqueue hq
  · rfl

theorem capacity_receive (e : Relay σ) (line : String) :
    (e.receive h rt r line).2.1.queue.capacity = e.queue.capacity := by
  rw [receive_eq]
  split
  · rfl
  · exact capacity_postpone e _
  · rfl

theorem capacity_drainAtMost (fuel : Nat) (e : Relay σ) (r : ρ) :
    (drainAtMost h rt fuel e r).2.1.queue.capacity = e.queue.capacity := by
  induction fuel generalizing e r with
  | zero => rfl
  | succ fuel ih =>
    rw [drainAtMost]
    split
    · rfl
    · next entry queue hpop => exact (ih _ _).trans (PendingQueue.capacity_of_pop? hpop)

/-- No operation changes how much the queue has room for. -/
theorem Operation.capacity_apply (op : Operation) (e : Relay σ) :
    (op.apply h e).queue.capacity = e.queue.capacity := by
  cases op with
  | receive rt r line => exact capacity_receive e line
  | ask rt r command =>
    rw [Operation.apply, ask_eq]
    exact capacity_receive { e with answer := none } _
  | post rt r command =>
    rw [Operation.apply, post_eq]
    exact capacity_receive e _
  | execute text => rfl
  | takeEchoes => rfl
  | drain rt r => exact capacity_drainAtMost _ e r

theorem capacity_after (e : Relay σ) (history : List Operation) :
    (e.after h history).queue.capacity = e.queue.capacity := by
  induction history generalizing e with
  | nil => rfl
  | cons op history ih => exact (ih _).trans (op.capacity_apply e)

/-! ## Commands of a history -/

/-- The response of a line that was executed at once. -/
def Outcome.response? : Outcome → Option Response
  | executed response => some response
  | _ => none

namespace Operation

/-- The response that an operation gives to its line, if the line is executed at once. -/
def inlineResponse (h : Hardware σ) (e : Relay σ) : Operation → List Response
  | receive rt r line => (e.receive h rt r line).1.response?.toList
  | ask rt r command => (e.receiveCall h rt r command).1.response?.toList
  | post rt r command =>
    (e.receive h rt r (e.protocol.queueSentinel ++ command)).1.response?.toList
  | _ => []

/-- The text that an operation hands in directly. -/
def directText : Operation → List String
  | execute text => [text]
  | _ => []

end Operation

theorem LineEffect.length_ran {line : String} {outcome : Outcome} {later : Relay σ}
    (hl : LineEffect h e line outcome later) :
    (Effects.ofLine e.protocol line outcome).ran.length = outcome.response?.toList.length := by
  cases hl with
  | executed hcommand =>
    simp only [Effects.ofLine, hcommand]
    rfl
  | _ => rfl

theorem returned_ofLine (p : Protocol) (line : String) (outcome : Outcome) :
    (Effects.ofLine p line outcome).returned = [] := by
  cases outcome <;> rfl

/-- A text is run for a line that is executed at once, for a drained entry, or as it is handed
in. -/
theorem Operation.length_ran (op : Operation) (e : Relay σ) :
    (op.effects h e).ran.length = (op.inlineResponse h e).length +
      (op.effects h e).returned.length + op.directText.length := by
  cases op with
  | receive rt r line =>
    simp only [effects, returned_ofLine]
    exact (lineEffect_receive h rt e r line).length_ran
  | ask rt r command =>
    simp only [effects, returned_ofLine]
    exact (lineEffect_receive h rt { e with answer := none } _ _).length_ran
  | post rt r command =>
    simp only [effects, returned_ofLine]
    exact (lineEffect_receive h rt e r _).length_ran
  | execute text => rfl
  | takeEchoes => rfl
  | drain rt r => simp [effects, Effects.ofDrain, inlineResponse, directText]

theorem length_collect_ran (e : Relay σ) (history : List Operation) :
    (collect h (fun e op => (op.effects h e).ran) e history).length =
      (collect h (fun e op => op.inlineResponse h e) e history).length +
        (collect h (fun e op => (op.effects h e).returned) e history).length +
        (history.flatMap Operation.directText).length := by
  induction history generalizing e with
  | nil => rfl
  | cons op history ih =>
    have hfirst := op.length_ran (h := h) e
    have hrest := ih (op.apply h e)
    simp only [collect, List.flatMap_cons, List.length_append]
    omega

/-! ## Requests of a history -/

/-- The same relay on hardware that has written down these requests. -/
def recording (e : Relay σ) (requests : List Request) : Relay (σ × List Request) where
  bench := e.bench.recording requests
  memo := e.memo
  queue := e.queue
  answer := e.answer
  protocol := e.protocol
  echoes := e.echoes

/-- The second relay is the first one on hardware that has written down as many requests as were
counted. -/
def Recorded (e : Relay σ) (e' : Relay (σ × List Request)) : Prop :=
  ∃ requests, e' = e.recording requests ∧ e.bench.stats.hardwareCalls = requests.length

theorem execute_recorded (h : Hardware σ) (e : Relay σ) (requests : List Request)
    (text : String) :
    ∃ more, (e.recording requests).execute h.recorded text =
        ((e.execute h text).1, (e.execute h text).2.recording (requests ++ more)) ∧
      (e.execute h text).2.bench.stats.hardwareCalls =
        e.bench.stats.hardwareCalls + more.length := by
  obtain ⟨more, hexecute, hcalls⟩ :=
    Bench.executeParsed_recorded h e.bench requests (e.memo.read (trimmed text)).1
  refine ⟨more, ?_, hcalls⟩
  simp only [Relay.execute, recording, hexecute]

theorem lockstep_recorded (h : Hardware σ) : Lockstep h h.recorded Recorded where
  view := by
    rintro e _ ⟨requests, rfl, -⟩
    exact ⟨rfl, rfl, rfl, rfl, rfl, rfl⟩
  response := by
    rintro e _ ⟨requests, rfl, -⟩ text
    obtain ⟨more, hexecute, -⟩ := execute_recorded h e requests text
    rw [hexecute]
  execute := by
    rintro e _ ⟨requests, rfl, hcalls⟩ text
    obtain ⟨more, hexecute, hmore⟩ := execute_recorded h e requests text
    exact ⟨requests ++ more, by rw [hexecute], by rw [hmore, hcalls, List.length_append]⟩
  withQueue := by
    rintro e _ ⟨requests, rfl, hcalls⟩ queue
    exact ⟨requests, rfl, hcalls⟩
  withAnswer := by
    rintro e _ ⟨requests, rfl, hcalls⟩ answer
    exact ⟨requests, rfl, hcalls⟩
  withEchoes := by
    rintro e _ ⟨requests, rfl, hcalls⟩ echoes
    exact ⟨requests, rfl, hcalls⟩

section

variable {h' : Hardware τ} {e' : Relay τ} {R : Relay σ → Relay τ → Prop}

theorem Lockstep.apply (hR : Lockstep h h' R) (he : R e e') (op : Operation) :
    R (op.apply h e) (op.apply h' e') := by
  cases op with
  | receive rt r line => exact (hR.receive (driven_eq rt) he rfl rfl line).relay
  | ask rt r command => exact (hR.ask (driven_eq rt) he rfl rfl command).relay
  | post rt r command => exact (hR.post (driven_eq rt) he rfl rfl command).relay
  | execute text => exact hR.execute he text
  | takeEchoes => exact hR.withEchoes he []
  | drain rt r => exact (hR.drain (driven_eq rt) he rfl).relay

theorem Lockstep.after (hR : Lockstep h h' R) (he : R e e') (history : List Operation) :
    R (e.after h history) (e'.after h' history) := by
  induction history generalizing e e' with
  | nil => exact he
  | cons op history ih => exact ih (hR.apply he op)

end

/-! ## Histories -/

/-- The accounts of a new relay after any history, with any runtimes. The commands that were
executed are counted as successful or failed, and as remembered or read; they are those of the lines
executed at once, of the drained entries, and of the texts handed in directly. The hardware calls
that are counted are the requests that the hardware was given: hardware that writes these down has
written down as many, and nothing else comes of writing. -/
theorem history_accounts (h : Hardware σ) (device : σ) (protocol : Protocol)
    (history : List Operation) :
    let start := Relay.new device protocol
    let e := start.after h history
    let recorded := (Relay.new (device, []) protocol).after h.recorded history
    let stats := e.bench.stats
    stats.total = stats.successful + stats.failed ∧
      stats.total = e.memo.hits + e.memo.misses ∧
      stats.total = (collect h (fun e op => op.inlineResponse h e) start history).length +
        (collect h (fun e op => (op.effects h e).returned) start history).length +
        (history.flatMap Operation.directText).length ∧
      stats.successful ≤ stats.hardwareCalls ∧ stats.hardwareCalls ≤ stats.total ∧
      (recorded = e.recording recorded.bench.device.2 ∧
        stats.hardwareCalls = recorded.bench.device.2.length) ∧
      (e.queue.count ≤ e.queue.capacity ∧ e.queue.capacity = max protocol.queueCapacity 1) ∧
      e.memo.size ≤ protocol.memoCapacity ∧ e.echoes.length ≤ maxEchoes := by
  intro start e recorded stats
  have hstart : Reachable h start := .new device protocol
  have hprotocol : e.protocol = protocol := protocol_after history
  obtain ⟨hstats, hreads, hmemo, hsize, hechoes⟩ := (hstart.after history).accounts
  have htotal : stats.total =
      (collect h (fun e op => (op.effects h e).ran) start history).length := by
    have hbench := congrArg (fun x => x.stats.total) (hstart.bench_after history)
    exact hbench.trans ((Bench.total_runAll _ _).trans (Nat.zero_add _))
  rw [length_collect_ran] at htotal
  have hrecorded : Recorded e recorded :=
    (lockstep_recorded h).after (e := start) ⟨[], rfl, rfl⟩ history
  obtain ⟨requests, hsame, hcalls⟩ := hrecorded
  have hcapacity : e.queue.capacity = max protocol.queueCapacity 1 :=
    (capacity_after start history).trans Array.size_replicate
  refine ⟨hstats.total, hreads, htotal, hstats.successful, hstats.hardwareCalls, ?_,
    ⟨e.queue.count_le, hcapacity⟩, ?_, hechoes⟩
  · rw [hsame]
    exact ⟨rfl, hcalls⟩
  · rw [← hprotocol, ← hmemo]
    exact hsize

/-- One text is run at once, and again as it is handed in. Of two that are drained, one fails before
it comes to a request. -/
theorem history_accounts_fullQueue :
    let h := Board.simulated
    let start := Relay.new (Board.new {}) { queueCapacity := 2 }
    let e := start.after h fullQueueHistory
    let recorded := (Relay.new (Board.new {}, []) { queueCapacity := 2 }).after h.recorded
      fullQueueHistory
    let inline := collect h (fun e op => op.inlineResponse h e) start fullQueueHistory
    let returned := collect h (fun e op => (op.effects h e).returned) start fullQueueHistory
    let direct := fullQueueHistory.flatMap Operation.directText
    (inline.length = 1 ∧ returned.length = 2 ∧ direct = ["gpio(get, 1)"]) ∧
      e.bench.stats = ⟨4, 3, 1, 3⟩ ∧ e.memo.hits = 1 ∧ e.memo.misses = 3 ∧
      recorded.bench.device.2 = [.gpio (.get 1), .gpio (.set 1 true), .gpio (.get 1)] ∧
      e.bench.stats.total = inline.length + returned.length + direct.length ∧
      e.bench.stats.hardwareCalls = recorded.bench.device.2.length ∧
      e.queue.capacity = 2 ∧ e.memo.size ≤ 16 ∧ e.echoes.length ≤ 64 := by
  dsimp only
  obtain ⟨-, -, htotal, -, -, ⟨-, hcalls⟩, ⟨-, hcapacity⟩, hsize, hechoes⟩ :=
    history_accounts Board.simulated (Board.new {}) { queueCapacity := 2 } fullQueueHistory
  refine ⟨⟨?_, ?_, rfl⟩, ?_, ?_, ?_, ?_, htotal, hcalls, hcapacity, hsize, hechoes⟩
  all_goals decide +kernel

end Relay

end BenchConsole
