import BenchConsole.Proofs.Relay.Calls
import BenchConsole.Proofs.Relay.Trace

/-!
# Running later

A command that a runtime prints behind the sync sentinel is run at once if the runtime may be
entered, and waits in the queue otherwise. Both ways come to the same work on the bench, the memo
and the echoes, `work`: texts are executed one after the other, and their response lines are echoed.

Lines that are run at once do this work as they come (`follow_entered`). Lines that have to wait
leave all of it to the drain (`follow_closed`, `drain_work`), which meets the commands in their order
and without the blanks around them. So the responses are the same either way, and so is what is left
behind (`deferred_run_eq_inline_run`).
-/

namespace BenchConsole.Relay

open Script Text

variable {σ ρ ρ' : Type} {h : Hardware σ} {rt : Runtime ρ} {e e' : Relay σ} {r : ρ}
  {p : Protocol} {texts : List String} {text other : String}

/-! ## Work -/

/-- Executes texts one after the other and echoes the lines of the responses. -/
def work (h : Hardware σ) : Relay σ → List String → List Response × Relay σ
  | e, [] => ([], e)
  | e, text :: texts =>
    let (response, e) := e.execute h text
    let (responses, e) := work h (e.echo response.line) texts
    (response :: responses, e)

/-- Relays with the same bench, the same memo and the same echoes. -/
structure SameWork (e e' : Relay σ) : Prop where
  bench : e'.bench = e.bench
  memo : e'.memo = e.memo
  echoes : e'.echoes = e.echoes

theorem SameWork.symm (hw : SameWork e e') : SameWork e' e :=
  ⟨hw.bench.symm, hw.memo.symm, hw.echoes.symm⟩

theorem SameWork.trans {e'' : Relay σ} (hw : SameWork e e') (hw' : SameWork e' e'') :
    SameWork e e'' :=
  ⟨hw'.bench.trans hw.bench, hw'.memo.trans hw.memo, hw'.echoes.trans hw.echoes⟩

/-- What a text comes to depends on nothing but the bench and the memo. -/
theorem SameWork.execute (hw : SameWork e e') (text : String) :
    (e'.execute h text).1 = (e.execute h text).1 ∧
      SameWork (e.execute h text).2 (e'.execute h text).2 := by
  unfold Relay.execute
  rw [hw.memo, hw.bench]
  exact ⟨rfl, rfl, rfl, hw.echoes⟩

theorem SameWork.echo (hw : SameWork e e') (line : String) :
    SameWork (e.echo line) (e'.echo line) :=
  ⟨hw.bench, hw.memo, congrArg (pushEcho · line) hw.echoes⟩

theorem SameWork.work (hw : SameWork e e') (texts : List String) :
    (work h e' texts).1 = (work h e texts).1 ∧
      SameWork (Relay.work h e texts).2 (Relay.work h e' texts).2 := by
  induction texts generalizing e e' with
  | nil => exact ⟨rfl, hw⟩
  | cons text texts ih =>
    obtain ⟨hresponse, hexecuted⟩ := hw.execute (h := h) text
    obtain ⟨hresponses, hworked⟩ := ih (hexecuted.echo (e.execute h text).1.line)
    simp only [Relay.work, hresponse]
    exact ⟨congrArg _ hresponses, hworked⟩

theorem work_map_trimmed (e : Relay σ) (texts : List String) :
    work h e (texts.map trimmed) = work h e texts := by
  induction texts generalizing e with
  | nil => rfl
  | cons text texts ih =>
    have htrim : trimmed (trimmed text) = trimmed text := by
      rw [trimmed, trimmed, String.toList_ofList, trim_trim]
    simp only [List.map_cons, work, execute_trimmed h e htrim, ih]

/-! ## Lines with the sync sentinel -/

/-- Texts that are printed behind the sync sentinel, a line for each. -/
def syncLines (p : Protocol) (texts : List String) : List Call :=
  texts.map fun text => .receive (p.syncSentinel ++ text)

theorem reentry_of_forall {safe : Bool} (hsafe : ∀ r, rt.reentrySafe r = safe) :
    ∀ turn ∈ trace h rt e r (syncLines p texts), turn.reentry = some safe := by
  induction texts generalizing e r with
  | nil =>
    intro turn hturn
    cases hturn
  | cons text texts ih =>
    intro turn hturn
    rcases List.mem_cons.mp hturn with rfl | hlater
    · exact congrArg some (hsafe r)
    · exact ih turn hlater

/-- Lines that are run at once do the work as they come. -/
theorem follow_entered (hends : ∀ c ∈ p.syncSentinel.toList.getLast?, isLineEnd c = false)
    (hp : e.protocol = p)
    (hentered : ∀ turn ∈ trace h rt e r (syncLines p texts), turn.reentry = some true) :
    (trace h rt e r (syncLines p texts)).map Turn.returned =
        (work h e texts).1.map (fun response => .outcome (.executed response)) ∧
      SameWork (work h e texts).2 (follow h rt e r (syncLines p texts)).1 := by
  induction texts generalizing e r with
  | nil => exact ⟨rfl, rfl, rfl, rfl⟩
  | cons text texts ih =>
    obtain ⟨hsafe, hrest⟩ := List.forall_mem_cons.mp hentered
    have hroute : route e.protocol (rt.reentrySafe r) (p.syncSentinel ++ text) =
        .run (stripped text) := by
      rw [hp, Option.some.inj hsafe, route_sync hends, if_pos rfl]
    have hreceive := receive_of_run (h := h) hroute
    have hrun : e.runNow h (stripped text) = e.runNow h text := by
      simp only [runNow, execute_trimmed h e (trimmed_stripped text)]
    have hnext : SameWork ((e.execute h text).2.echo (e.execute h text).1.line)
        (e.runNow h text).2 := ⟨rfl, rfl, rfl⟩
    obtain ⟨hresponses, hworked⟩ := hnext.work (h := h) texts
    simp only [syncLines, List.map_cons, trace, follow, Call.perform, Call.result, hreceive,
      hrun, Prod.map, work] at hrest ⊢
    obtain ⟨hreturned, hlater⟩ := ih (e := (e.runNow h text).2) hp hrest
    rw [hresponses] at hreturned
    exact ⟨congrArg _ hreturned, hworked.trans hlater⟩

/-- Lines that have to wait put their commands at the end of the queue and do nothing else. -/
theorem follow_closed (hends : ∀ c ∈ p.syncSentinel.toList.getLast?, isLineEnd c = false)
    (hp : e.protocol = p) (hroom : e.queue.count + texts.length ≤ e.queue.capacity)
    (hshort : ∀ text ∈ texts, (trimmed text).length ≤ PendingQueue.maxCommandLength)
    (hclosed : ∀ turn ∈ trace h rt e r (syncLines p texts), turn.reentry = some false) :
    ∃ queue, (follow h rt e r (syncLines p texts)).1 = { e with queue } ∧
      queue.toList = e.queue.toList ++ texts.map fun text => ⟨trimmed text, ""⟩ := by
  induction texts generalizing e r with
  | nil => exact ⟨e.queue, rfl, (List.append_nil _).symm⟩
  | cons text texts ih =>
    obtain ⟨hsafe, hrest⟩ := List.forall_mem_cons.mp hclosed
    obtain ⟨hfits, hothers⟩ := List.forall_mem_cons.mp hshort
    rw [List.length_cons] at hroom
    have hroute : route e.protocol (rt.reentrySafe r) (p.syncSentinel ++ text) =
        .postpone (stripped text) := by
      rw [hp, Option.some.inj hsafe, route_sync hends, if_neg Bool.false_ne_true]
    have hreceive := receive_of_postpone (h := h) hroute
    rw [← trimmed_stripped] at hfits
    rcases e.queue.enqueue_cases (trimmed (stripped text)) with
      ⟨hfull, -⟩ | ⟨-, hlong, -⟩ | ⟨-, -, queue, hq, hlist⟩
    · omega
    · omega
    · have hcount := congrArg List.length hlist
      have hcapacity := PendingQueue.capacity_of_enqueue hq
      rw [List.length_append, PendingQueue.length_toList, PendingQueue.length_toList,
        List.length_singleton] at hcount
      simp only [syncLines, List.map_cons, follow, Call.perform, Call.result, hreceive, Prod.map,
        postpone, hq] at hrest ⊢
      obtain ⟨last, hlast, hcommands⟩ := ih (e := { e with queue }) hp
        (by change queue.count + _ ≤ queue.capacity; omega) hothers hrest
      refine ⟨last, hlast, ?_⟩
      rw [hcommands, hlist, trimmed_stripped, List.append_assoc]
      rfl

/-! ## The drain -/

/-- A drain does the work of the pending commands. -/
theorem drainAtMost_work {fuel : Nat} (hfuel : e.queue.count ≤ fuel) :
    let commands := e.queue.toList.map DeferredCommand.command
    (drainAtMost h rt fuel e r).1.map DeferredCommand.response =
        (work h e commands).1.map Response.line ∧
      SameWork (work h e commands).2 (drainAtMost h rt fuel e r).2.1 := by
  induction fuel generalizing e r with
  | zero =>
    rw [PendingQueue.toList_eq_nil_iff.mpr (Nat.le_zero.mp hfuel)]
    exact ⟨rfl, rfl, rfl, rfl⟩
  | succ fuel ih =>
    rw [drainAtMost]
    split
    · next hpop =>
      rw [PendingQueue.pop?_eq_none_iff.mp hpop]
      exact ⟨rfl, rfl, rfl, rfl⟩
    · next entry queue hpop =>
      have hlist := PendingQueue.toList_of_pop? hpop
      have hlength := congrArg List.length hlist
      rw [List.length_cons, PendingQueue.length_toList, PendingQueue.length_toList] at hlength
      let ran := { e with queue }.runDeferred h rt r entry
      have hline : ran.1.response = (e.execute h entry.command).1.line := rfl
      have hnext : SameWork ((e.execute h entry.command).2.echo (e.execute h entry.command).1.line)
          ran.2.1 := ⟨rfl, rfl, rfl⟩
      have hroom : ran.2.1.queue.count ≤ fuel := by
        change queue.count ≤ fuel
        omega
      obtain ⟨hresponses, hworked⟩ :=
        hnext.work (h := h) (queue.toList.map DeferredCommand.command)
      obtain ⟨hreturned, hlater⟩ := ih (r := ran.2.2) hroom
      simp only [hlist, List.map_cons, work]
      exact ⟨congrArg₂ _ hline (hreturned.trans (congrArg _ hresponses)), hworked.trans hlater⟩

theorem drain_work (h : Hardware σ) (rt : Runtime ρ) (r : ρ) {commands : List String}
    (hcommands : e.queue.toList.map DeferredCommand.command = commands) :
    (e.drain h rt r).1.map DeferredCommand.response = (work h e commands).1.map Response.line ∧
      SameWork (work h e commands).2 (e.drain h rt r).2.1 := by
  rw [← hcommands]
  exact drainAtMost_work (Nat.le_refl _)

/-- Lines that were run at once, and entries that a drain gave back, are of the same run: they have
the same responses, and the relays after them the same bench, memo and echoes. -/
def SameRun (turns : List (Turn σ ρ)) (inline : Relay σ) (entries : List DeferredCommand)
    (drained : Relay σ) : Prop :=
  ∃ responses : List Response,
    turns.map Turn.returned = responses.map (fun response => .outcome (.executed response)) ∧
      entries.map DeferredCommand.response = responses.map Response.line ∧
      SameWork inline drained

/-- A list of command texts is run either way with the same responses, and leaves the same behind:
at once, if the runtime may be entered at each line, or at a drain, if it may never be entered and
the queue has room for all of them. -/
theorem deferred_run_eq_inline_run (h : Hardware σ) (e : Relay σ) (texts : List String)
    (closed : Runtime ρ) (r : ρ) (entered : Runtime ρ') (r' : ρ') (hempty : e.queue.toList = [])
    (hends : ∀ c ∈ e.protocol.syncSentinel.toList.getLast?, isLineEnd c = false)
    (hroom : texts.length ≤ e.queue.capacity)
    (hshort : ∀ text ∈ texts, (trimmed text).length ≤ PendingQueue.maxCommandLength)
    (hclosed : ∀ turn ∈ trace h closed e r (syncLines e.protocol texts),
      turn.reentry = some false)
    (hentered : ∀ turn ∈ trace h entered e r' (syncLines e.protocol texts),
      turn.reentry = some true) :
    let (waiting, idle) := follow h closed e r (syncLines e.protocol texts)
    SameRun (trace h entered e r' (syncLines e.protocol texts))
      (follow h entered e r' (syncLines e.protocol texts)).1
      (waiting.drain h closed idle).1 (waiting.drain h closed idle).2.1 := by
  obtain ⟨hresponses, hinline⟩ := follow_entered hends rfl hentered
  have hcount := PendingQueue.toList_eq_nil_iff.mp hempty
  obtain ⟨queue, hwaiting, hlist⟩ := follow_closed hends rfl (by omega) hshort hclosed
  cases hfollow : follow h closed e r (syncLines e.protocol texts) with
  | mk waiting idle =>
    obtain rfl : waiting = { e with queue } := (congrArg Prod.fst hfollow).symm.trans hwaiting
    have hcommands : queue.toList.map DeferredCommand.command = texts.map trimmed := by
      rw [hlist, hempty, List.nil_append, List.map_map]
      rfl
    have hsame : SameWork e { e with queue } := ⟨rfl, rfl, rfl⟩
    obtain ⟨hsameResponses, hsameWork⟩ := hsame.work (h := h) texts
    obtain ⟨hentries, hdrained⟩ :=
      drain_work h closed idle (e := { e with queue }) hcommands
    rw [work_map_trimmed] at hentries hdrained
    exact ⟨(work h e texts).1, hresponses, hentries.trans (congrArg _ hsameResponses),
      hinline.symm.trans (hsameWork.trans hdrained)⟩

/-- A runtime that writes down the code it is given. -/
def loggingRuntime (safe : Bool) : Runtime (List String) where
  execute code log := (.ok (), log ++ [code])
  assign name v log := (.ok (), log ++ [assignment name v])
  reentrySafe _ := safe

/-- Command texts one of which has no answer. -/
def mixedTexts : List String := ["gpio(set, 2, HIGH)\r\n", "dac(set)", " slot(get)"]

theorem deferred_run_eq_inline_run_mixedTexts :
    let e := Relay.new (Board.new {}) {}
    e.queue.toList = [] ∧ (∀ c ∈ e.protocol.syncSentinel.toList.getLast?, isLineEnd c = false) ∧
      mixedTexts.length ≤ e.queue.capacity ∧
      (∀ text ∈ mixedTexts, (trimmed text).length ≤ PendingQueue.maxCommandLength) ∧
      (∀ turn ∈ trace Board.simulated (loggingRuntime false) e [] (syncLines e.protocol mixedTexts),
        turn.reentry = some false) ∧
      (∀ turn ∈ trace Board.simulated (loggingRuntime true) e [] (syncLines e.protocol mixedTexts),
        turn.reentry = some true) ∧
      let (waiting, idle) :=
        follow Board.simulated (loggingRuntime false) e [] (syncLines e.protocol mixedTexts)
      SameRun
        (trace Board.simulated (loggingRuntime true) e [] (syncLines e.protocol mixedTexts))
        (follow Board.simulated (loggingRuntime true) e [] (syncLines e.protocol mixedTexts)).1
        (waiting.drain Board.simulated (loggingRuntime false) idle).1
        (waiting.drain Board.simulated (loggingRuntime false) idle).2.1 := by
  intro e
  have hends : ∀ c ∈ ({} : Protocol).syncSentinel.toList.getLast?, isLineEnd c = false := by
    intro c hc
    obtain rfl : ':' = c := Option.some.inj hc
    rfl
  have hroom : mixedTexts.length ≤ e.queue.capacity := by decide
  have hshort : ∀ text ∈ mixedTexts, (trimmed text).length ≤ PendingQueue.maxCommandLength := by
    decide +kernel
  have hclosed : ∀ turn ∈ trace Board.simulated (loggingRuntime false) e []
      (syncLines e.protocol mixedTexts), turn.reentry = some false :=
    reentry_of_forall fun _ => rfl
  have hentered : ∀ turn ∈ trace Board.simulated (loggingRuntime true) e []
      (syncLines e.protocol mixedTexts), turn.reentry = some true :=
    reentry_of_forall fun _ => rfl
  exact ⟨rfl, hends, hroom, hshort, hclosed, hentered,
    deferred_run_eq_inline_run Board.simulated e mixedTexts (loggingRuntime false) []
      (loggingRuntime true) [] rfl hends hroom hshort hclosed hentered⟩

end BenchConsole.Relay
