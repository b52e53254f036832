import BenchConsole.Proofs.Bench.Magnitude
import BenchConsole.Proofs.Relay.History
import BenchConsole.Proofs.Script.Interpreter

/-!
# Publication

An answer is published by a program of assignments, one for each of its variables (`answerPairs`).
Executing such a program enters the runtime once and assigns exactly the variables it names
(`execute_assignmentCode`); the flag that says that the answer is ready is the last of them.

This needs values that are read back from their literals, and so a number that is finite. On a
simulated board every answer has one (`isFinite_runNow`): the histories of the relay are runs of its
bench, which keep the board moderate. So every line with the sync sentinel publishes the answer that
the relay keeps, whatever is in the command (`receive_publishes`).
-/

namespace BenchConsole.Relay

open Script Text

variable {board : Board} {pairs : List (String × Value)} {a : Answer}

/-! ## Code of assignments -/

theorem assignmentCode_toList (pairs : List (String × Value)) :
    (assignmentCode pairs).toList = ['\n'].intercalate (pairs.map source) := by
  rw [assignmentCode, String.toList_intercalate, List.map_map]
  rfl

theorem statements_assignmentCode (h : IsProgram pairs) :
    statements (assignmentCode pairs).toList = pairs.map source := by
  rw [assignmentCode_toList, statements_source h]

/-- The code of assignments enters the runtime once and assigns these variables and no others. -/
theorem execute_assignmentCode (h : IsProgram pairs) (s : Interpreter) :
    s.execute (assignmentCode pairs) =
      (.ok (), { s with globals := s.globals.insertAll pairs, entries := s.entries + 1 }) :=
  Interpreter.execute_of_isProgram h (assignmentCode_toList pairs) s

/-- The first statements of such code assign the first variables. -/
theorem runStatements_take (h : IsProgram pairs) (k : Nat) (globals : Globals) :
    runStatements ((statements (assignmentCode pairs).toList).take k) globals =
      (.ok (), globals.insertAll (pairs.take k)) := by
  have htake : IsProgram (pairs.take k) := fun pair hpair => h pair (List.mem_of_mem_take hpair)
  rw [statements_assignmentCode h, ← List.map_take, runStatements_assignments htake]

/-! ## Answers -/

/-- The variables that an answer is published in, with their values. -/
def answerPairs (a : Answer) : List (String × Value) :=
  [(textVariable, .str a.text), (tagVariable, .str a.tag.name), (numericVariable, .float a.numeric),
    (readyVariable, .bool true)]

def answerVariables : List String :=
  [textVariable, tagVariable, numericVariable, readyVariable]

theorem isProgram_answerPairs (h : a.numeric.isFinite) : IsProgram (answerPairs a) := by
  have hnames : ∀ name ∈ answerVariables, isIdentifier name.toList := by decide
  intro pair hpair
  constructor
  · exact hnames _ (List.mem_map_of_mem (f := Prod.fst) hpair)
  · simp only [answerPairs, List.mem_cons, List.not_mem_nil, or_false] at hpair
    rcases hpair with rfl | rfl | rfl | rfl
    · trivial
    · trivial
    · exact h
    · trivial

/-- The code that publishes an answer is one statement for each variable. -/
theorem statements_answerCode (h : a.numeric.isFinite) :
    statements (answerCode a).toList = (answerPairs a).map source :=
  statements_assignmentCode (isProgram_answerPairs h)

/-- What a script sees of an answer that was published between two states of its runtime. -/
structure Published (a : Answer) (s later : Interpreter) : Prop where
  text : later.globals.get? textVariable = some (.str a.text)
  tag : later.globals.get? tagVariable = some (.str a.tag.name)
  numeric : later.globals.get? numericVariable = some (.float a.numeric)
  ready : later.globals.get? readyVariable = some (.bool true)
  others : ∀ name ∉ answerVariables, later.globals.get? name = s.globals.get? name
  entries : later.entries = s.entries + 1
  reentrySafe : later.reentrySafe = s.reentrySafe

theorem published_execute (h : a.numeric.isFinite) (s : Interpreter) :
    Published a s (s.execute (answerCode a)).2 := by
  have hnodup : ((answerPairs a).map Prod.fst).Nodup := by
    change answerVariables.Nodup
    decide
  have hget {name : String} {v : Value} (hmem : (name, v) ∈ answerPairs a) :=
    Globals.get?_insertAll_of_mem hnodup hmem s.globals
  have hcode : s.execute (answerCode a) =
      (.ok (), { s with globals := s.globals.insertAll (answerPairs a), entries := s.entries + 1 }) :=
    execute_assignmentCode (isProgram_answerPairs h) s
  rw [hcode]
  exact {
    text := hget (by simp [answerPairs])
    tag := hget (by simp [answerPairs])
    numeric := hget (by simp [answerPairs])
    ready := hget (by simp [answerPairs])
    others := fun name hname => Globals.get?_insertAll_of_not_mem hname _
    entries := rfl
    reentrySafe := rfl }

/-- Code that stops half way leaves the flag as it was. -/
theorem ready_of_take (h : a.numeric.isFinite) {k : Nat} (hk : k < 4) (globals : Globals) :
    (runStatements ((statements (answerCode a).toList).take k) globals).2.get? readyVariable =
      globals.get? readyVariable := by
  have hrun : runStatements ((statements (answerCode a).toList).take k) globals =
      (.ok (), globals.insertAll ((answerPairs a).take k)) :=
    runStatements_take (isProgram_answerPairs h) k globals
  have hlast : ∀ k < 4, readyVariable ∉ answerVariables.take k := by decide
  have hnames : ((answerPairs a).take k).map Prod.fst = answerVariables.take k := List.map_take
  rw [hrun]
  exact Globals.get?_insertAll_of_not_mem (hnames ▸ hlast k hk) _

/-! ## Lines -/

theorem isModerate_after (hb : board.SetUp) (protocol : Protocol) (history : List Operation) :
    ((Relay.new board protocol).after Board.simulated history).bench.device.IsModerate := by
  rw [(Reachable.new board protocol).bench_after]
  exact Bench.runAll_moderate hb.isModerate _

/-- The answer to a command that is run on a moderate board has a finite number. -/
theorem isFinite_runNow {e : Relay Board} (hr : Reachable Board.simulated e)
    (hm : e.bench.device.IsModerate) (command : String) :
    (Answer.ofResponse (e.runNow Board.simulated command).1).numeric.isFinite := by
  have hrun : (e.runNow Board.simulated command).1 = (e.bench.run Board.simulated command).1 :=
    (hr.execute_eq command).1
  rw [hrun]
  exact (Bench.run_moderate hm command).1

/-- A line with the sync sentinel publishes the answer to the response of its command, which is the
one that the relay keeps: all four variables have its values, and no other variable changes. Up to
the last statement, the flag is as it was. -/
theorem receive_publishes (hb : board.SetUp) (protocol : Protocol) (history : List Operation)
    {s : Interpreter} (hsafe : s.reentrySafe = true) {line command : String}
    (hline : afterSentinel? protocol.syncSentinel (stripped line) = some command) :
    let e := (Relay.new board protocol).after Board.simulated history
    let outcome := (e.receive Board.simulated Interpreter.runtime s line).1
    let later := (e.receive Board.simulated Interpreter.runtime s line).2.1
    let published := (e.receive Board.simulated Interpreter.runtime s line).2.2
    ∃ response a, outcome = .executed response ∧ a = .ofResponse response ∧
      later.answer = some a ∧ Published a s published ∧
      (statements (answerCode a).toList).length = 4 ∧
      ∀ k < 4, (runStatements ((statements (answerCode a).toList).take k) s.globals).2.get?
        readyVariable = s.globals.get? readyVariable := by
  intro e outcome later published
  have hroute : route e.protocol (Interpreter.runtime.reentrySafe s) line = .run command := by
    have hentered : Interpreter.runtime.reentrySafe s = true := hsafe
    rw [protocol_after, hentered]
    simp only [route, Relay.new, hline, if_true]
  have hfinite : (Answer.ofResponse (e.runNow Board.simulated command).1).numeric.isFinite :=
    isFinite_runNow ((Reachable.new board protocol).after history)
      (isModerate_after hb protocol history) command
  clear_value e
  have hreceive := receive_of_run (h := Board.simulated) hroute
  simp only [outcome, later, published, hreceive]
  refine ⟨_, _, rfl, rfl, rfl, published_execute hfinite s, ?_,
    fun k hk => ready_of_take hfinite hk _⟩
  rw [statements_answerCode hfinite]
  rfl

/-- A relay that has run a command before. -/
def usedRelay : Relay Board :=
  (Relay.new (Board.new {}) {}).after Board.simulated [.execute "slot(get)"]

/-- A runtime whose script has counted something. -/
def countingInterpreter : Interpreter := { globals := [("count", .int 3)] }

/-- A command with an assignment on a line of its own is published as it is and assigns nothing. -/
theorem receive_publishes_innerLine :
    let line := "::SYNC::a\"b\\\ncount = 0 # c\r\n"
    let later := (usedRelay.receive Board.simulated Interpreter.runtime countingInterpreter line).2.2
    (Board.new {}).SetUp ∧ countingInterpreter.reentrySafe = true ∧
      afterSentinel? ({} : Protocol).syncSentinel (stripped line) =
        some "a\"b\\\ncount = 0 # c" ∧
      Published ⟨"invalid command: missing '(' in 'a\"b\\\ncount = 0 # c'", .error, 0.0⟩
        countingInterpreter later ∧
      later.globals.get? "count" = some (.int 3) := by
  have hline : afterSentinel? ({} : Protocol).syncSentinel
      (stripped "::SYNC::a\"b\\\ncount = 0 # c\r\n") = some "a\"b\\\ncount = 0 # c" := by rfl
  have hresponse : (usedRelay.receive Board.simulated Interpreter.runtime countingInterpreter
      "::SYNC::a\"b\\\ncount = 0 # c\r\n").1 = .executed (.error .invalidCommand
        "invalid command: missing '(' in 'a\"b\\\ncount = 0 # c'") := by rfl
  obtain ⟨response, a, hexecuted, ha, -, hpublished, -⟩ :=
    receive_publishes (.new {}) {} _ (s := countingInterpreter) rfl hline
  obtain rfl := Outcome.executed.inj (hresponse.symm.trans hexecuted)
  have hanswer : a = ⟨"invalid command: missing '(' in 'a\"b\\\ncount = 0 # c'", .error, 0.0⟩ := by
    rw [ha, Answer.ofResponse_error]
    rfl
  rw [hanswer] at hpublished
  exact ⟨.new {}, rfl, hline, hpublished, hpublished.others "count" (by decide)⟩

end BenchConsole.Relay
