import BenchConsole.Proofs.Relay.Calls
import BenchConsole.Proofs.Relay.History
import BenchConsole.Proofs.Relay.Memo

/-!
# The backlog of echoed lines

A relay holds the `latest` of the lines that it echoed since they were last taken
(`foldl_pushEcho_latest`). The lines that a history echoes fall into `stretches`, one for each time
that the lines are taken and one for what comes after the last time. Together the stretches are all
that is echoed (`flatten_stretches`), and what is taken is the latest of each stretch
(`takenLines_append_echoes`). So everything is taken if and only if no stretch is longer than what
the relay can hold (`flatMap_latest_eq_flatten_iff`).

As long as no text is handed in directly, each text that a history runs has its response line
echoed, in the same order (`Reachable.echoed_eq`). A text that is handed in directly has nothing
echoed, nor has a line whose command is not run at once (`Operation.IsQuiet`). So what is taken the
next time are the newest response lines of the commands that were run at once or worked off from the
queue since the last time (`takeEchoes_newest`).
-/

namespace BenchConsole.Relay

open Script Text

variable {σ : Type} {h : Hardware σ} {e : Relay σ} {lines : List String}

/-! ## The newest lines -/

/-- The newest lines, as many as a relay holds. -/
def latest (lines : List String) : List String :=
  lines.rtake maxEchoes

theorem latest_eq_self_iff : latest lines = lines ↔ lines.length ≤ maxEchoes := by
  constructor
  · intro h
    have hlength := congrArg List.length h
    rw [latest, List.rtake, List.length_drop] at hlength
    omega
  · intro h
    rw [latest, List.rtake, Nat.sub_eq_zero_of_le h, List.drop_zero]

theorem latest_sublist (lines : List String) : (latest lines).Sublist lines :=
  List.drop_sublist _ _

theorem flatMap_latest_sublist (stretches : List (List String)) :
    (stretches.flatMap latest).Sublist stretches.flatten := by
  induction stretches with
  | nil => exact .slnil
  | cons stretch stretches ih => exact (latest_sublist stretch).append ih

/-- Nothing is lost if and only if no stretch is too long. -/
theorem flatMap_latest_eq_flatten_iff {stretches : List (List String)} :
    stretches.flatMap latest = stretches.flatten ↔
      ∀ stretch ∈ stretches, stretch.length ≤ maxEchoes := by
  induction stretches with
  | nil => exact iff_of_true rfl nofun
  | cons stretch stretches ih =>
    rw [List.flatMap_cons, List.flatten_cons, List.forall_mem_cons, ← ih, ← latest_eq_self_iff]
    constructor
    · intro heq
      have hlength := congrArg List.length heq
      have hfirst := (latest_sublist stretch).length_le
      have hrest := (flatMap_latest_sublist stretches).length_le
      rw [List.length_append, List.length_append] at hlength
      exact List.append_inj heq (by omega)
    · rintro ⟨hfirst, hrest⟩
      rw [hfirst, hrest]

theorem pushEcho_latest (lines : List String) (line : String) :
    pushEcho (latest lines) line = latest (lines ++ [line]) :=
  rtake_append (by decide) lines line

theorem foldl_pushEcho_latest (lines more : List String) :
    more.foldl pushEcho (latest lines) = latest (lines ++ more) := by
  induction more generalizing lines with
  | nil => rw [List.append_nil]; rfl
  | cons line more ih => rw [List.foldl_cons, pushEcho_latest, ih, List.append_assoc]; rfl

/-! ## Stretches -/

theorem Operation.kept_eq {op : Operation} (hop : .takeEchoes ≠ op) : op.kept e = e.echoes := by
  cases op with
  | takeEchoes => exact absurd rfl hop
  | _ => rfl

/-- An operation that takes nothing adds its lines to those held. -/
theorem Reachable.echoes_apply (hr : Reachable h e) (hheld : e.echoes = latest lines)
    {op : Operation} (hop : .takeEchoes ≠ op) :
    (op.apply h e).echoes = latest (lines ++ (op.effects h e).echoed) := by
  rw [(op.law hr.memo_isFaithful).echoes, op.kept_eq hop, hheld, foldl_pushEcho_latest]

theorem after_append (e : Relay σ) (history more : List Operation) :
    e.after h (history ++ more) = (e.after h history).after h more :=
  List.foldl_append

theorem collect_append {α : Type} (yield : Relay σ → Operation → List α) (e : Relay σ)
    (history more : List Operation) : collect h yield e (history ++ more) =
      collect h yield e history ++ collect h yield (e.after h history) more := by
  induction history generalizing e with
  | nil => rfl
  | cons op history ih =>
    rw [List.cons_append, collect, collect, ih, List.append_assoc]
    rfl

namespace Operation

/-- The lines that an operation takes. -/
def taken (e : Relay σ) : Operation → List String
  | takeEchoes => e.echoes
  | _ => []

/-- Whether an operation hands in a text directly, so that its response is not echoed. -/
def isDirect : Operation → Bool
  | execute _ => true
  | _ => false

end Operation

/-- The lines that a history takes, one after the other. -/
def takenLines (h : Hardware σ) : Relay σ → List Operation → List String :=
  collect h fun e op => op.taken e

/-- The lines that a history echoes, cut where lines are taken. `lines` were echoed before. -/
def stretches (h : Hardware σ) : Relay σ → List String → List Operation → List (List String)
  | _, lines, [] => [lines]
  | e, lines, .takeEchoes :: history => lines :: stretches h e.takeEchoes.2 [] history
  | e, lines, op :: history => stretches h (op.apply h e) (lines ++ (op.effects h e).echoed) history

theorem flatten_stretches (h : Hardware σ) (e : Relay σ) (lines : List String)
    (history : List Operation) : (stretches h e lines history).flatten =
      lines ++ collect h (fun e op => (op.effects h e).echoed) e history := by
  induction history generalizing e lines with
  | nil => exact List.flatten_singleton.trans (List.append_nil lines).symm
  | cons op history ih =>
    cases op with
    | takeEchoes => exact congrArg (lines ++ ·) (ih _ [])
    | _ => exact (ih _ _).trans (List.append_assoc _ _ _)

/-- What is taken, and what is held in the end, is the latest of each stretch. -/
theorem takenLines_append_echoes (hr : Reachable h e) (hheld : e.echoes = latest lines)
    (history : List Operation) : takenLines h e history ++ (e.after h history).echoes =
      (stretches h e lines history).flatMap latest := by
  induction history generalizing e lines with
  | nil => exact hheld.trans (List.append_nil _).symm
  | cons op history ih =>
    cases op with
    | takeEchoes =>
      have hnothing : (e.takeEchoes.2).echoes = latest [] := rfl
      have hrest := ih (hr.apply .takeEchoes) hnothing
      exact (List.append_assoc _ _ _).trans (congrArg₂ (· ++ ·) hheld hrest)
    | _ => exact ih (hr.apply _) (hr.echoes_apply hheld nofun)

/-! ## Texts that are run -/

theorem length_echoed_ofLine_le (p : Protocol) (line : String) (outcome : Outcome) :
    (Effects.ofLine p line outcome).echoed.length ≤ 1 := by
  cases outcome with
  | executed response => exact Nat.le_refl 1
  | _ => exact Nat.zero_le 1

/-- A line without a command has nothing echoed. -/
theorem LineEffect.echoed_eq_nil {line : String} {outcome : Outcome} {later : Relay σ}
    (hl : LineEffect h e line outcome later) (hcommand : commandOf? e.protocol line = none) :
    (Effects.ofLine e.protocol line outcome).echoed = [] := by
  cases hl with
  | executed hsome =>
    rw [hcommand] at hsome
    cases hsome
  | _ => rfl

theorem LineEffect.echoed_eq (hm : e.memo.IsFaithful) {line : String} {outcome : Outcome}
    {later : Relay σ} (hl : LineEffect h e line outcome later) :
    (Effects.ofLine e.protocol line outcome).echoed =
      (e.bench.runAll h (Effects.ofLine e.protocol line outcome).ran).1.map Response.line := by
  cases hl with
  | executed hcommand =>
    simp only [Effects.ofLine, hcommand]
    exact congrArg (fun response => [response.line]) (hm.execute_eq _).1
  | _ => rfl

theorem Operation.echoed_eq (hm : e.memo.IsFaithful) {op : Operation} (hop : op.isDirect = false) :
    (op.effects h e).echoed = (e.bench.runAll h (op.effects h e).ran).1.map Response.line := by
  cases op with
  | receive rt r line => exact (lineEffect_receive h rt e r line).echoed_eq hm
  | ask rt r command =>
    exact LineEffect.echoed_eq (e := { e with answer := none }) hm
      (lineEffect_receive h rt _ _ (e.protocol.syncSentinel ++ command))
  | post rt r command => exact (lineEffect_receive h rt e r _).echoed_eq hm
  | execute text => cases hop
  | takeEchoes => rfl
  | drain rt r => exact (drained_drain hm).responses

/-- Each text that a history runs has its response line echoed. -/
theorem Reachable.echoed_eq (hr : Reachable h e) {history : List Operation}
    (hdirect : ∀ op ∈ history, op.isDirect = false) :
    collect h (fun e op => (op.effects h e).echoed) e history =
      (e.bench.runAll h (collect h (fun e op => (op.effects h e).ran) e history)).1.map
        Response.line := by
  induction history generalizing e with
  | nil => rfl
  | cons op history ih =>
    obtain ⟨hop, hrest⟩ := List.forall_mem_cons.mp hdirect
    have hm := hr.memo_isFaithful
    rw [collect, collect, Operation.echoed_eq hm hop, ih (hr.apply op) hrest, Bench.runAll_append,
      ← (op.law hm).bench, List.map_append]

/-- A drain has as many lines echoed as there were commands in the queue. -/
theorem Reachable.length_echoed_drain (hr : Reachable h e) {ρ : Type} (rt : Runtime ρ) (r : ρ) :
    (Effects.ofDrain (e.drain h rt r).1).echoed.length = e.queue.count := by
  have hdrained : Drained h e (e.drain h rt r).1 (e.drain h rt r).2.1 :=
    drained_drain hr.memo_isFaithful
  have hlength := congrArg List.length hdrained.commands
  rw [List.length_map, List.length_map, PendingQueue.length_toList] at hlength
  rw [← hlength]
  exact List.length_map _

/-! ## From one take to the next -/

namespace Operation

/-- The response lines of the commands that an operation runs at once or works off from the
queue. -/
def responseLines (h : Hardware σ) (e : Relay σ) (op : Operation) : List String :=
  if op.isDirect then [] else (e.bench.runAll h (op.effects h e).ran).1.map Response.line

theorem echoed_eq_responseLines (hm : e.memo.IsFaithful) (op : Operation) :
    (op.effects h e).echoed = op.responseLines h e := by
  unfold responseLines
  split
  · next hdirect =>
    cases op with
    | execute text => rfl
    | _ => cases hdirect
  · next hdirect => exact echoed_eq hm (Bool.eq_false_iff.mpr hdirect)

/-- What becomes of the line that an operation hands in. -/
def outcome? (h : Hardware σ) (e : Relay σ) : Operation → Option Outcome
  | receive rt r line => some (e.receive h rt r line).1
  | ask rt r command => some (e.receiveCall h rt r command).1
  | post rt r command => some (e.receive h rt r (e.protocol.queueSentinel ++ command)).1
  | _ => none

/-- The operations that echo nothing: those whose line passes through, is deferred or is rejected,
and those that hand in a text directly. -/
inductive IsQuiet (h : Hardware σ) (e : Relay σ) : Operation → Prop
  | passedThrough : outcome? h e op = some (.passthrough text) → IsQuiet h e op
  | deferred : outcome? h e op = some (.queued pending) → IsQuiet h e op
  | rejected {failure : Failure} : outcome? h e op = some (.rejected failure) → IsQuiet h e op
  | direct (text : String) : IsQuiet h e (execute text)

theorem exists_effects_eq_ofLine {op : Operation} {outcome : Outcome}
    (ho : op.outcome? h e = some outcome) :
    ∃ line, op.effects h e = .ofLine e.protocol line outcome := by
  cases op with
  | receive rt r line | ask rt r command | post rt r command =>
    obtain rfl := Option.some.inj ho
    exact ⟨_, rfl⟩
  | _ => cases ho

theorem IsQuiet.echoed_eq_nil {op : Operation} (hq : op.IsQuiet h e) :
    (op.effects h e).echoed = [] := by
  cases hq with
  | passedThrough ho | deferred ho | rejected ho =>
    obtain ⟨line, heffects⟩ := exists_effects_eq_ofLine ho
    rw [heffects]
    rfl
  | direct text => rfl

theorem IsQuiet.ne_takeEchoes {op : Operation} (hq : op.IsQuiet h e) : .takeEchoes ≠ op := by
  rintro rfl
  cases hq with
  | passedThrough ho | deferred ho | rejected ho => cases ho

end Operation

/-- Until lines are taken again, the latest of all that is echoed is held. -/
theorem Reachable.echoes_after (hr : Reachable h e) (hheld : e.echoes = latest lines)
    {history : List Operation} (hnot : .takeEchoes ∉ history) :
    (e.after h history).echoes =
      latest (lines ++ collect h (fun e op => op.responseLines h e) e history) := by
  induction history generalizing e lines with
  | nil => rwa [collect, List.append_nil]
  | cons op history ih =>
    rw [List.mem_cons, not_or] at hnot
    have hfirst := hr.echoes_apply hheld hnot.1
    rw [op.echoed_eq_responseLines hr.memo_isFaithful] at hfirst
    rw [collect, ← List.append_assoc]
    exact ih (hr.apply op) hfirst hnot.2

/-- What is taken after a history in which nothing was taken are the newest of the response lines
of the commands that it ran at once or worked off from the queue, as many as a relay holds, in
order. -/
theorem takeEchoes_newest (h : Hardware σ) (device : σ) (protocol : Protocol)
    (before : List Operation) {between : List Operation} (hnot : .takeEchoes ∉ between) :
    let start := ((Relay.new device protocol).after h before).takeEchoes.2
    let later := start.after h between
    let lines := collect h (fun e op => op.responseLines h e) start between
    (later.takeEchoes.1 <:+ lines ∧ later.takeEchoes.1.length = min maxEchoes lines.length) ∧
      ∀ op : Operation, op.IsQuiet h later →
        op.responseLines h later = [] ∧ (op.apply h later).echoes = later.echoes := by
  intro start later lines
  have hstart : Reachable h start := ((Reachable.new device protocol).after before).takeEchoes
  have hlater : Reachable h later := hstart.after between
  have hnothing : start.echoes = latest [] := rfl
  have htaken : later.takeEchoes.1 = latest lines := hstart.echoes_after hnothing hnot
  refine ⟨?_, fun op hq => ?_⟩
  · rw [htaken]
    exact ⟨List.drop_suffix _ _, by rw [latest, List.rtake, List.length_drop]; omega⟩
  · have hm := hlater.memo_isFaithful
    have hechoes : (op.apply h later).echoes = (op.effects h later).echoed.foldl pushEcho _ :=
      (op.law hm).echoes
    rw [hq.echoed_eq_nil, op.kept_eq hq.ne_takeEchoes] at hechoes
    exact ⟨(op.echoed_eq_responseLines hm).symm.trans hq.echoed_eq_nil, hechoes⟩

/-- More lines than are held, the last one from the queue, and operations that echo nothing. -/
theorem takeEchoes_newest_crowdedHistory :
    let h := Board.simulated
    let rt := Interpreter.runtime
    let before : List Operation := [.receive rt {} "::SYNC::slot"]
    let between : List Operation :=
      .post rt {} "slot(get)" :: List.replicate 65 (.receive rt {} "::SYNC::slot") ++
        [.receive rt {} "slot(get)", .execute "slot(get)", .drain rt {}]
    let start := ((Relay.new (Board.new {}) {}).after h before).takeEchoes.2
    let taken := (start.after h between).takeEchoes.1
    let lines := collect h (fun e op => op.responseLines h e) start between
    .takeEchoes ∉ between ∧ lines.length = 66 ∧ taken <:+ lines ∧ taken.length = 64 := by
  intro h rt before between start taken lines
  have hnot : .takeEchoes ∉ between := by simp [between]
  have hlength : lines.length = 66 := by decide +kernel
  obtain ⟨⟨hsuffix, htaken⟩, -⟩ := takeEchoes_newest h (Board.new {}) {} before hnot
  exact ⟨hnot, hlength, hsuffix, htaken.trans (by rw [hlength]; rfl)⟩

end BenchConsole.Relay
