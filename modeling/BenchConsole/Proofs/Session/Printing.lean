import BenchConsole.CommandLine
import BenchConsole.Proofs.Relay.Accounts
import BenchConsole.Proofs.Session.Transcript

/-!
# What a session prints

The response lines of the commands that are run for an input (`expectedResponses`) fall into
stretches, one for each time that the console takes the lines from the relay. Of each stretch the
newest lines are printed, as many as the relay holds (`responsesOf_transcript_eq`), in the order in
which the commands were run and each of them once (`printed_responses`).

A stretch is short as long as no line holds a command that the console does not look for, which
takes a sentinel with a blank at an end (`TrimmedSentinels.commandOf?_eq_none`). What is left is the
queue, which is worked off in one stretch at the end. If it can hold more commands than the relay
holds lines, the oldest lines are not printed (`not_forall_printed_responses`).
-/

namespace BenchConsole

open Board Relay Script Text

theorem Text.IsTrimmed.prefix_trim {start cs : List Char} (hs : IsTrimmed start)
    (h : start <+: dropLineEnds cs) : start <+: trim cs := by
  obtain rfl | hne := eq_or_ne start []
  · exact List.nil_prefix
  · obtain ⟨rest, hrest⟩ := h
    rw [← trim_dropLineEnds, ← hrest, hs.trim_append hne]
    exact List.prefix_append _ _

namespace Session

variable {s : Session} {p : Protocol} {line : String}

/-! ## Responses of an input -/

/-- The texts that an input and its end have the relay run, in order. -/
def executed (s : Session) (lines : List String) : List String :=
  collect Board.simulated (fun e op => (op.effects Board.simulated e).ran) s.relay (s.history lines)

/-- The response lines of the texts that are run for an input. -/
def expectedResponses (s : Session) (lines : List String) : List String :=
  (s.relay.bench.runAll Board.simulated (s.executed lines)).1.map Response.line

/-- The response lines of an input, cut where the console takes them. -/
def responseStretches (s : Session) (lines : List String) : List (List String) :=
  stretches Board.simulated s.relay [] (s.history lines)

theorem flatten_responseStretches (hr : Reachable Board.simulated s.relay) (lines : List String) :
    (s.responseStretches lines).flatten = s.expectedResponses lines := by
  rw [responseStretches, flatten_stretches, hr.echoed_eq (s.isDirect_history lines)]
  rfl

/-- The response lines that are printed are the newest of each stretch. -/
theorem responsesOf_transcript_eq (hr : Reachable Board.simulated s.relay)
    (hheld : s.relay.echoes = []) (lines : List String) :
    responsesOf (s.transcript lines) = (s.responseStretches lines).flatMap latest := by
  have hnothing : s.relay.echoes = latest [] := hheld
  have htaken := takenLines_append_echoes hr hnothing (s.history lines)
  have hempty : (s.relay.after Board.simulated (s.history lines)).echoes = [] := by
    rw [← relay_feedAll]
    rfl
  rw [hempty, List.append_nil] at htaken
  exact (s.responsesOf_transcript lines).trans htaken

/-- All response lines are printed if and only if no stretch is too long. -/
theorem responsesOf_transcript_eq_iff (hr : Reachable Board.simulated s.relay)
    (hheld : s.relay.echoes = []) (lines : List String) :
    responsesOf (s.transcript lines) = s.expectedResponses lines ↔
      ∀ stretch ∈ s.responseStretches lines, stretch.length ≤ maxEchoes := by
  rw [responsesOf_transcript_eq hr hheld, ← flatten_responseStretches hr,
    flatMap_latest_eq_flatten_iff]

/-! ## Lengths of stretches -/

/-- Both sentinels start and end in characters other than blanks. -/
structure TrimmedSentinels (p : Protocol) : Prop where
  sync : IsTrimmed p.syncSentinel.toList
  queue : IsTrimmed p.queueSentinel.toList

instance (p : Protocol) : Decidable (TrimmedSentinels p) :=
  decidable_of_iff (IsTrimmed p.syncSentinel.toList ∧ IsTrimmed p.queueSentinel.toList)
    ⟨fun h => ⟨h.1, h.2⟩, fun h => ⟨h.sync, h.queue⟩⟩

/-- A line that is not taken for a sentinel line holds no command then. -/
theorem TrimmedSentinels.commandOf?_eq_none (hp : TrimmedSentinels p) {other : String}
    (hkind : lineKind p line = .other other) : commandOf? p other = none := by
  obtain ⟨rfl, hline⟩ := lineKind_eq_other hkind
  rw [isSentinelLine, Bool.or_eq_false_iff, ← Bool.not_eq_true, ← Bool.not_eq_true,
    List.isPrefixOf_iff_prefix, List.isPrefixOf_iff_prefix] at hline
  have hstripped : (stripped other).toList = dropLineEnds other.toList := String.toList_ofList
  rw [commandOf?, afterSentinel?_eq_none, afterSentinel?_eq_none]
  · rfl
  · exact fun h => hline.2 (hp.queue.prefix_trim (hstripped ▸ h))
  · exact fun h => hline.1 (hp.sync.prefix_trim (hstripped ▸ h))

/-- What a line of some kind has echoed is taken before the next one, unless it holds a command that
the console does not look for. -/
theorem stretches_operations (s : Session) {kind : LineKind}
    (hother : ∀ line, kind = .other line → commandOf? s.relay.protocol line = none)
    (more : List Operation) :
    ∃ short : List (List String), (∀ stretch ∈ short, stretch.length ≤ 1) ∧
      stretches Board.simulated s.relay [] (s.operations kind ++ more) = short ++
        stretches Board.simulated (s.relay.after Board.simulated (s.operations kind)) [] more := by
  have hone (p : Protocol) (line : String) (outcome : Outcome) :
      ∀ stretch ∈ [(Effects.ofLine p line outcome).echoed], stretch.length ≤ 1 :=
    List.forall_mem_singleton.mpr (length_echoed_ofLine_le p line outcome)
  cases kind with
  | blank | globals => exact ⟨[], nofun, rfl⟩
  | sentinel text => exact ⟨_, hone _ _ _, rfl⟩
  | assignment name command => exact ⟨_, hone _ _ _, rfl⟩
  | call command => exact ⟨_, hone _ _ _, rfl⟩
  | other line =>
    have hecho := (lineEffect_receive Board.simulated Interpreter.runtime s.relay s.interpreter
      line).echoed_eq_nil (hother line rfl)
    exact ⟨[], nofun, congrArg (stretches Board.simulated _ · more) hecho⟩

/-- No stretch is too long if the queue has room for no more commands than the relay has for
lines. -/
theorem length_responseStretches_le (hr : Reachable Board.simulated s.relay)
    (hp : TrimmedSentinels s.relay.protocol) (hroom : s.relay.queue.capacity ≤ maxEchoes)
    (lines : List String) :
    ∀ stretch ∈ s.responseStretches lines, stretch.length ≤ maxEchoes := by
  induction lines generalizing s with
  | nil =>
    have hlast := hr.length_echoed_drain Interpreter.runtime s.interpreter
    have hcount := Nat.le_trans s.relay.queue.count_le hroom
    exact List.forall_mem_cons.mpr ⟨hlast.le.trans hcount,
      List.forall_mem_singleton.mpr (Nat.zero_le _)⟩
  | cons line lines ih =>
    obtain ⟨short, hshort, hstretches⟩ := s.stretches_operations
      (fun _ hkind => hp.commandOf?_eq_none hkind) (history (s.feed line).2 lines)
    rw [← relay_feedAs, ← feed_eq] at hstretches
    have hlater := (congrArg (fun x => x.2.relay) (s.feed_eq line)).trans (s.relay_feedAs _)
    have hprotocol : (s.feed line).2.relay.protocol = s.relay.protocol := by
      rw [hlater, protocol_after]
    have hcapacity : (s.feed line).2.relay.queue.capacity = s.relay.queue.capacity := by
      rw [hlater, capacity_after]
    rw [responseStretches, history, hstretches]
    refine List.forall_mem_append.mpr ⟨fun stretch hstretch => ?_, ih ?_ ?_ ?_⟩
    · exact (hshort stretch hstretch).trans (by decide)
    · exact hlater ▸ hr.after _
    · exact hprotocol ▸ hp
    · exact hcapacity ▸ hroom

/-! ## What is printed -/

/-- What the console prints on an input: a transcript, in which the response lines of the commands
that were run stand in the order of the runs. They fall into stretches, one for each time that the
console takes the lines, and of each stretch the newest lines are printed, as many as the relay
holds. So all of them are printed, each one once, if and only if no stretch is too long; and none is
if the queue has room for no more commands than that and no sentinel has a blank at an end. -/
theorem printed_responses (settings : Settings) (input : String) :
    let s := Session.new settings.board settings.protocol
    let inputs := (lines input.toList).map String.ofList
    let printed := responsesOf (s.transcript inputs)
    (CommandLine.perform settings (.run input)).stdout = textOf (s.transcript inputs) ∧
      (s.run input).2.relay = s.relay.after Board.simulated (s.history inputs) ∧
      (s.run input).2.relay.bench =
        (s.relay.bench.runAll Board.simulated (s.executed inputs)).2 ∧
      (s.responseStretches inputs).flatten = s.expectedResponses inputs ∧
      printed = (s.responseStretches inputs).flatMap latest ∧
      (printed = s.expectedResponses inputs ↔
        ∀ stretch ∈ s.responseStretches inputs, stretch.length ≤ maxEchoes) ∧
      (settings.protocol.queueCapacity ≤ maxEchoes → TrimmedSentinels settings.protocol →
        printed = s.expectedResponses inputs) := by
  intro s inputs printed
  have hr : Reachable Board.simulated s.relay := .new _ _
  have hstdout : (CommandLine.perform settings (.run input)).stdout =
      textOf (s.transcript inputs) := by
    simp only [CommandLine.perform]
    exact s.run_fst input
  have hrelay := s.relay_run input
  have hall : printed = s.expectedResponses inputs ↔ _ :=
    responsesOf_transcript_eq_iff hr rfl inputs
  refine ⟨hstdout, hrelay, ?_, flatten_responseStretches hr inputs,
    responsesOf_transcript_eq hr rfl inputs, hall, ?_⟩
  · rw [hrelay]
    exact hr.bench_after _
  · intro hroom hsentinels
    refine hall.mpr (length_responseStretches_le hr hsentinels ?_ inputs)
    have hcapacity : s.relay.queue.capacity = max settings.protocol.queueCapacity 1 :=
      Array.size_replicate
    rw [hcapacity]
    exact Nat.max_le.mpr ⟨hroom, by decide⟩

/-- A command that waits is run, and its response printed, after a later one that is called. -/
theorem printed_responses_waiting :
    let s := Session.new {} {}
    let inputs := ["::QUEUE::wheel(get)", "wheel(simulate, 2)"]
    let responses := ["SUCCESS: wheel(simulate, delta=2)", "SUCCESS: wheel(get) = 2"]
    (({} : Protocol).queueCapacity ≤ maxEchoes ∧ TrimmedSentinels {}) ∧
      s.expectedResponses inputs = responses ∧ responsesOf (s.transcript inputs) = responses := by
  intro s inputs responses
  have hroom : ({} : Protocol).queueCapacity ≤ maxEchoes := by decide
  have hsentinels : TrimmedSentinels {} := by decide
  have hlines : (lines "::QUEUE::wheel(get)\nwheel(simulate, 2)\n".toList).map String.ofList =
      inputs := by
    rfl
  obtain ⟨-, -, -, -, -, -, hall⟩ :=
    printed_responses {} "::QUEUE::wheel(get)\nwheel(simulate, 2)\n"
  rw [hlines] at hall
  have hexpected : s.expectedResponses inputs = responses := by decide +kernel
  exact ⟨⟨hroom, hsentinels⟩, hexpected, (hall hroom hsentinels).trans hexpected⟩

/-! ## A queue that is too long -/

/-- Lines that are printed are read back as they were. -/
theorem lines_printedLines {texts : List String} (h : ∀ text ∈ texts, IsOneLine text.toList) :
    (lines (printedLines texts).toList).map String.ofList = texts := by
  induction texts with
  | nil => rfl
  | cons text texts ih =>
    obtain ⟨htext, hrest⟩ := List.forall_mem_cons.mp h
    have hlist : (printedLines (text :: texts)).toList =
        text.toList ++ '\n' :: (printedLines texts).toList := by
      simp [printedLines, printed]
    rw [hlist, lines_append htext, List.map_cons, ih hrest, String.ofList_toList]

/-- A queue with room for one command more than the relay holds lines. -/
def deepSettings : Settings where
  protocol := { queueCapacity := 65 }

def queuedText : String :=
  "::QUEUE::slot(get)"

theorem isOneLine_queuedText : IsOneLine queuedText.toList := by
  decide

theorem lineKind_queuedText : lineKind deepSettings.protocol queuedText = .sentinel queuedText := by
  rfl

theorem receive_queuedText (hp : s.relay.protocol = deepSettings.protocol)
    (hroom : s.relay.queue.count < s.relay.queue.capacity) :
    ∃ queue, queue.count = s.relay.queue.count + 1 ∧
      s.receive queuedText =
        (.queued (s.relay.queue.count + 1), ⟨{ s.relay with queue }, s.interpreter⟩) := by
  have hroute (safe : Bool) : route deepSettings.protocol safe queuedText =
      .postpone "slot(get)" := by rfl
  have hcommand : trimmed "slot(get)" = "slot(get)" := by rfl
  rcases s.relay.queue.enqueue_cases "slot(get)" with
    ⟨hfull, -⟩ | ⟨-, hlong, -⟩ | ⟨-, -, queue, hq, hlist⟩
  · exact absurd hfull (Nat.ne_of_lt hroom)
  · exact absurd hlong (by decide)
  · refine ⟨queue, ?_, ?_⟩
    · rw [← PendingQueue.length_toList, hlist, List.length_append, PendingQueue.length_toList]
      rfl
    · rw [receive, receive_of_postpone (hp ▸ hroute _), postpone, hcommand, hq]

/-- The commands of lines that are all put into the queue are run in one stretch. -/
theorem exists_responseStretches_queuedText (hr : Reachable Board.simulated s.relay)
    (hp : s.relay.protocol = deepSettings.protocol) {n : Nat}
    (hroom : s.relay.queue.count + n ≤ s.relay.queue.capacity) :
    ∃ stretch ∈ s.responseStretches (List.replicate n queuedText),
      stretch.length = s.relay.queue.count + n := by
  induction n generalizing s with
  | zero => exact ⟨_, List.mem_cons_self, hr.length_echoed_drain Interpreter.runtime s.interpreter⟩
  | succ n ih =>
    obtain ⟨queue, hcount, hreceive⟩ := receive_queuedText hp (by omega)
    have hfeed : s.feed queuedText = s.feedAs (.sentinel queuedText) := by
      rw [feed_eq, hp, lineKind_queuedText]
    have hlater : (s.feed queuedText).2.relay =
        s.relay.after Board.simulated (s.operations (.sentinel queuedText)) := by
      rw [hfeed, relay_feedAs]
    have hlonger : (s.feed queuedText).2.relay.queue.count = s.relay.queue.count + 1 := by
      rw [hfeed, feedAs, feedSentinel, hreceive]
      exact hcount
    obtain ⟨stretch, hmem, hlength⟩ := @ih (s.feed queuedText).2 (hlater ▸ hr.after _)
      (by rw [hlater, protocol_after, hp]) (by rw [hlonger, hlater, capacity_after]; omega)
    refine ⟨stretch, ?_, by omega⟩
    rw [responseStretches, List.replicate_succ, history, hp, lineKind_queuedText]
    rw [responseStretches, hlater] at hmem
    exact List.mem_cons_of_mem _ hmem

/-- A valid console can have more commands waiting than it can print the responses of. -/
theorem not_forall_printed_responses :
    ¬∀ settings : Settings, settings.validate LogLevel.isLevel = .ok () → ∀ input : String,
      let s := Session.new settings.board settings.protocol
      let inputs := (lines input.toList).map String.ofList
      responsesOf (s.transcript inputs) = s.expectedResponses inputs := by
  intro hall
  have hvalid : deepSettings.validate LogLevel.isLevel = .ok () := by rfl
  have hprinted := hall deepSettings hvalid (printedLines (List.replicate 65 queuedText))
  rw [lines_printedLines fun text htext =>
    List.eq_of_mem_replicate htext ▸ isOneLine_queuedText] at hprinted
  have hr : Reachable Board.simulated
      (Session.new deepSettings.board deepSettings.protocol).relay := .new _ _
  obtain ⟨stretch, hmem, hlength⟩ :=
    exists_responseStretches_queuedText hr rfl (n := 65) (by decide)
  have hshort := (responsesOf_transcript_eq_iff hr rfl _).mp hprinted stretch hmem
  rw [hlength] at hshort
  exact absurd hshort (by decide)

end Session

end BenchConsole
