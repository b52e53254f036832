import BenchConsole.Proofs.Bench.Answers
import BenchConsole.Proofs.Command.RoundTrip
import BenchConsole.Proofs.Number.Integers
import BenchConsole.Proofs.Relay.Calls
import BenchConsole.Proofs.Relay.History
import BenchConsole.Proofs.Script.Interpreter
import BenchConsole.Session

/-!
# Console sessions

A session serves (`Serves`) as long as its runtime may be entered and the protocol asks for answers
at least once. Then a call, typed alone or as the right side of an assignment, runs its command on
the bench (`follows_call`), and an assignment binds the answer (`get?_feedAssignment`).

What an integer becomes on this way is `integer_reaches_script`: in an answer it stands in digits,
but also as a float, and a script takes the float. So it arrives if it has no more than 53
significant bits, or is the largest integer, and any other one does not.
-/

namespace BenchConsole

open Answer Binary64 Board Number Relay Script Text

namespace Relay

variable {σ ρ : Type} {h : Hardware σ} {rt : Runtime ρ} {e : Relay σ} {r : ρ} {command : String}

theorem ask_of_staysWhole (hpolls : 1 ≤ e.protocol.pollAttempts)
    (hwhole : StaysWhole e.protocol.syncSentinel command)
    (hsafe : rt.reentrySafe (rt.assign readyVariable (.bool false) r).2 = true) :
    let cleared := (rt.assign readyVariable (.bool false) r).2
    let x := { e with answer := none }.runNow h (stripped command)
    e.ask h rt r command =
      (resultOf (e.execute h command).1, x.2,
        (rt.execute (answerCode (.ofResponse x.1)) cleared).2) := by
  intro cleared x
  have hroute : route e.protocol true (e.protocol.syncSentinel ++ command) =
      .run (stripped command) := by
    rw [route, afterSentinel?_stripped, if_pos hwhole]
    rfl
  rw [← hsafe] at hroute
  have hanswer := @answerOfCall_runNow σ { e with answer := none } h (stripped command) hpolls
  rw [execute_trimmed h _ (trimmed_stripped command)] at hanswer
  rw [ask_of_receiveCall (receive_of_run (e := { e with answer := none }) (h := h) hroute)]
  exact congrArg (·, _, _) hanswer

end Relay

namespace Session

variable {s later : Session} {x : Bench Board} {line name command summary : String}
  {value : Option String} {cs : List Char}

/-! ## Kinds of lines -/

theorem isCall_append {name : List Char} (hname : isIdentifier (trim name)) (hopen : '(' ∉ name)
    (body : List Char) : isCall (name ++ '(' :: (body ++ [')'])) := by
  have hspan : (name ++ '(' :: (body ++ [')'])).span (· != '(') = (name, '(' :: (body ++ [')'])) :=
    span_ne_eq_cons_iff.mpr ⟨rfl, rfl, hopen⟩
  have hlast : (name ++ '(' :: (body ++ [')'])).getLast? = some ')' := by
    rw [← List.cons_append, ← List.append_assoc, List.getLast?_concat]
  simp only [isCall, hspan, hname, hlast, beq_self_eq_true, Bool.and_self]

theorem assignment?_eq_none (h : '=' ∉ cs) : assignment? cs = none := by
  have hspan : cs.span (· != '=') = (cs, []) := by
    refine span_eq_iff.mpr ⟨(List.append_nil cs).symm, fun c hc => ?_, by simp⟩
    exact bne_iff_ne.mpr fun he => h (he ▸ hc)
  rw [assignment?, hspan]

theorem feed_of_call (ht : IsTrimmed line.toList)
    (hs : isSentinelLine s.relay.protocol line.toList = false) (heq : '=' ∉ line.toList)
    (hcall : isCall line.toList) : s.feed line = s.feedCall line := by
  have hempty : line.toList ≠ [] := by
    intro hnil
    rw [hnil] at hcall
    cases hcall
  have hglobals : line.toList ≠ "globals".toList := by
    intro hword
    rw [hword] at hcall
    revert hcall
    decide
  simp only [feed, ht.trim_eq, List.isEmpty_eq_false_iff.mpr hempty, hglobals, hs,
    assignment?_eq_none heq, hcall, Bool.false_eq_true, if_false, if_true, String.ofList_toList]

theorem feed_of_assignment (ht : IsTrimmed line.toList)
    (hs : isSentinelLine s.relay.protocol line.toList = false)
    (ha : assignment? line.toList = some (name, command)) :
    s.feed line = s.feedAssignment name command := by
  have hempty : line.toList ≠ [] := by
    intro hnil
    rw [hnil] at ha
    cases ha
  have hglobals : line.toList ≠ "globals".toList := by
    intro hword
    rw [hword] at ha
    revert ha
    exact nofun
  simp only [feed, ht.trim_eq, List.isEmpty_eq_false_iff.mpr hempty, hglobals, hs, ha,
    Bool.false_eq_true, if_false]

theorem feedAll_nil (s : Session) : (s.feedAll []).2 = s :=
  rfl

theorem feedAll_cons (s : Session) (line : String) (lines : List String) :
    (s.feedAll (line :: lines)).2 = ((s.feed line).2.feedAll lines).2 :=
  rfl

/-! ## Sessions that serve -/

/-- A session in which a command is run as soon as it is called, and answered. -/
structure Serves (s : Session) : Prop where
  reachable : Reachable Board.simulated s.relay
  polls : 1 ≤ s.relay.protocol.pollAttempts
  safe : s.interpreter.reentrySafe = true

/-- A session that came of another one and left its bench like this. -/
structure Follows (s : Session) (x : Bench Board) (later : Session) : Prop where
  serves : later.Serves
  protocol : later.relay.protocol = s.relay.protocol
  bench : later.relay.bench = x

theorem serves_new (limits : Limits) {protocol : Protocol} (h : 1 ≤ protocol.pollAttempts) :
    (Session.new limits protocol).Serves where
  reachable := .new _ _
  polls := h
  safe := rfl

theorem reentrySafe_assign (name : String) (v : Value) (r : Interpreter) :
    (Interpreter.assign name v r).2.reentrySafe = r.reentrySafe := by
  unfold Interpreter.assign
  split <;> rfl

theorem reentrySafe_execute (code : String) (r : Interpreter) :
    (Interpreter.runtime.execute code r).2.reentrySafe = r.reentrySafe :=
  rfl

theorem Serves.reentrySafe_cleared (hs : s.Serves) :
    (Interpreter.assign readyVariable (.bool false) s.interpreter).2.reentrySafe = true :=
  (reentrySafe_assign readyVariable (.bool false) s.interpreter).trans hs.safe

theorem Serves.ask_eq (hs : s.Serves) (hc : ∃ c ∈ command.toList, isLineEnd c = false) :
    let cleared := (Interpreter.assign readyVariable (.bool false) s.interpreter).2
    let x := { s.relay with answer := none }.runNow Board.simulated (stripped command)
    s.relay.ask Board.simulated Interpreter.runtime s.interpreter command =
      (resultOf (s.relay.execute Board.simulated command).1, x.2,
        (Interpreter.runtime.execute (answerCode (.ofResponse x.1)) cleared).2) :=
  ask_of_staysWhole hs.polls (.inr hc) hs.reentrySafe_cleared

theorem Serves.call_eq (hs : s.Serves) (hc : ∃ c ∈ command.toList, isLineEnd c = false) :
    (s.call command).1 = resultOf (s.relay.bench.run Board.simulated command).1 := by
  rw [call, hs.ask_eq hc, (hs.reachable.execute_eq command).1]

/-- A call runs its command on the bench. -/
theorem Serves.follows_call (hs : s.Serves) (hc : ∃ c ∈ command.toList, isLineEnd c = false) :
    Follows s (s.relay.bench.run Board.simulated command).2 (s.call command).2 := by
  have hprotocol : (s.call command).2.relay.protocol = s.relay.protocol :=
    protocol_of_steps (steps_ask Board.simulated Interpreter.runtime s.relay s.interpreter command)
  refine ⟨⟨hs.reachable.ask Interpreter.runtime s.interpreter command, ?_, ?_⟩, hprotocol, ?_⟩
  · rw [hprotocol]
    exact hs.polls
  · have hruntime : (s.call command).2.interpreter = (s.relay.ask Board.simulated
        Interpreter.runtime s.interpreter command).2.2 := rfl
    rw [hruntime, hs.ask_eq hc, reentrySafe_execute]
    exact hs.reentrySafe_cleared
  · rw [call, hs.ask_eq hc, ← (hs.reachable.execute_eq command).2]
    exact congrArg (fun x => x.2.bench)
      (execute_trimmed Board.simulated { s.relay with answer := none } (trimmed_stripped command))

theorem Follows.flush (h : Follows s x later) : Follows s x later.flush.2 where
  serves := ⟨h.serves.reachable.takeEchoes, h.serves.polls, h.serves.safe⟩
  protocol := h.protocol
  bench := h.bench

theorem Serves.follows_feedCall (hs : s.Serves) (hc : ∃ c ∈ command.toList, isLineEnd c = false) :
    Follows s (s.relay.bench.run Board.simulated command).2 (s.feedCall command).2 := by
  have hlater : (s.feedCall command).2 = (s.call command).2.flush.2 := by
    simp only [feedCall]
    split <;> rfl
  rw [hlater]
  exact (hs.follows_call hc).flush

/-- An assignment of a call that succeeds binds the answer to the variable. -/
theorem Serves.get?_feedAssignment (hs : s.Serves) (hname : isIdentifier name.toList)
    (hc : ∃ c ∈ command.toList, isLineEnd c = false)
    (hrun : (s.relay.bench.run Board.simulated command).1 = .success summary value) :
    (s.feedAssignment name command).2.interpreter.globals.get? name =
      some (.ofAnswer (.ofResponse (.success summary value))) := by
  have hcall := hs.call_eq hc
  rw [hrun, resultOf] at hcall
  simp only [feedAssignment, hcall, assignGlobal, Interpreter.assign, hname, if_true]
  exact Globals.get?_insert_self _ _ _

/-! ## Integers -/

/-- The line that turns the wheel. -/
def turnText (v : Int64) : String :=
  String.ofList ("wheel(simulate, ".toList ++ intText v.toInt ++ [')'])

/-- The line that assigns the wheel's position. -/
def positionText : String :=
  "x = wheel(get)"

/-- The command of the line that turns the wheel. -/
def turn (v : Int64) : Command :=
  ⟨"wheel", .wheel, .simulate, "simulate", .keyword, [.positional (.int v)]⟩

theorem settled_turn (v : Int64) : Grammar.Settled (turn v) where
  entry := ⟨⟨"wheel", .wheel, .keyword⟩, by decide +kernel,
    (by decide +kernel : sameName "wheel" "wheel"), rfl, rfl⟩
  keyword _ := @Grammar.selects_of_sameName .wheel .simulate "simulate" "simulate"
    (by decide) (by decide +kernel)
  verb h := by cases h

theorem toList_turnText (v : Int64) : (turnText v).toList =
    "wheel".toList ++ '(' :: (("simulate, ".toList ++ intText v.toInt) ++ [')']) :=
  String.toList_ofList

theorem render_turn (v : Int64) : (turn v).render = turnText v := by
  have hpieces : (turn v).chars = ("wheel".toList ++
      '(' :: ("simulate".toList ++ ',' :: ' ' :: intText v.toInt)) ++ [')'] := rfl
  have hstart : "wheel(simulate, ".toList =
      "wheel".toList ++ '(' :: ("simulate".toList ++ [',', ' ']) := by decide
  have hchars : (turn v).chars = "wheel(simulate, ".toList ++ intText v.toInt ++ [')'] := by
    rw [hpieces, hstart]
    simp only [List.append_assoc, List.cons_append, List.nil_append]
  exact congrArg String.ofList hchars

theorem parse_turnText (v : Int64) : Command.parse (turnText v) = .ok (turn v) := by
  have hword : IsWord "simulate".toList := by decide
  have hreadable : ∀ a ∈ (turn v).arguments, a.IsReadable := by
    intro a ha
    obtain rfl := List.mem_singleton.mp ha
    exact ⟨nofun, nofun, nofun, nofun, trivial⟩
  have hnames : ∀ a ∈ (turn v).arguments, ∀ name ∈ a.name, IsTrimmed name.toList := by
    intro a ha
    obtain rfl := List.mem_singleton.mp ha
    exact nofun
  have hkeep : KeepApart (turn v).pieces :=
    ⟨hword.whole, .whole (Literal.whole_of_isNumeralChar (isNumeralChar_intText v.toInt))⟩
  rw [← render_turn]
  exact (settled_turn v).parse_render_of_keepApart (Nat.le_add_left 2 6)
    (fun _ => hword.isTrimmed) hreadable hnames hkeep

theorem wheel_turnText (v : Int64) {x : Bench Board} (hx : x.device.wheel.position = 0) :
    (x.run Board.simulated (turnText v)).2.device.wheel.position = v := by
  obtain ⟨echo, hp⟩ : ∃ echo, (turn v).prepare = .ok (echo, .wheel (.simulate v)) := ⟨_, rfl⟩
  have hposition : (x.run Board.simulated (turnText v)).2.device.wheel.position =
      Int64.ofIntClamp (x.device.wheel.position.toInt + v.toInt) := by
    rw [Bench.run_of_prepared x ((Bench.prepared_of_parse (parse_turnText v)).trans hp)]
    rfl
  rw [hposition, hx, Int64.toInt_zero, Int.zero_add, ← Int64.toInt_inj]
  exact Int64.toInt_ofIntClamp v.le_toInt (Int.le_of_lt_add_one v.toInt_lt)

theorem isTrimmed_turnText (v : Int64) : IsTrimmed (turnText v).toList where
  head c hc := by
    obtain rfl : 'w' = c := by simpa [toList_turnText] using hc
    rfl
  last c hc := by
    rw [toList_turnText, ← List.cons_append, ← List.append_assoc, List.getLast?_concat] at hc
    obtain rfl : ')' = c := Option.some.inj hc
    rfl

theorem isCall_turnText (v : Int64) : isCall (turnText v).toList := by
  rw [toList_turnText]
  exact isCall_append (by decide) (by decide) _

theorem equals_not_mem_turnText (v : Int64) : '=' ∉ (turnText v).toList := by
  have hdigits : '=' ∉ intText v.toInt := not_mem_intText rfl (by decide)
  simpa [toList_turnText] using hdigits

theorem response_position (x : Bench Board) : (x.run Board.simulated "wheel(get)").1 =
    .success "wheel(get)" (some (String.ofList (intText x.device.wheel.position.toInt))) := by
  have hp : Bench.prepared "wheel(get)" = .ok ("wheel(get)", .wheel .get) := by rfl
  rw [Bench.run_of_prepared x hp]
  rfl

/-- An integer that the hardware answers is for a script what becomes of it as a float. -/
theorem ofAnswer_of_handle {σ : Type} {h : Hardware σ} (x : Bench σ) {text echo : String}
    {c : Command} {request : Request} {v : Int64} (hc : Command.parse text = .ok c)
    (hm : ∀ a ∈ c.arguments, a.value.OneMark) (hp : c.prepare = .ok (echo, request))
    (hr : (h.handle request x.device).1 = .ok (.int v)) :
    Value.ofAnswer (.ofResponse (x.run h text).1) = .int (truncate (ofInt v.toInt)) := by
  have hconveys : ofResponse (x.run h text).1 =
      ⟨String.ofList (intText v.toInt), .int, ofInt v.toInt⟩ := by
    rw [Bench.response_of_handle h x hc hp hr]
    exact conveys_ofReply (Command.isEnclosed_of_prepare hc hp hm) (.int v)
  rw [hconveys]
  rfl

theorem feed_positionText (hs : isSentinelLine s.relay.protocol positionText.toList = false) :
    s.feed positionText = s.feedAssignment "x" "wheel(get)" :=
  feed_of_assignment (by decide) hs (by decide +kernel)

theorem ofAnswer_position (x : Bench Board) :
    Value.ofAnswer (.ofResponse (x.run Board.simulated "wheel(get)").1) =
      .int (truncate (ofInt x.device.wheel.position.toInt)) := by
  have hc : Command.parse "wheel(get)" = .ok ⟨"wheel", .wheel, .get, "get", .keyword, []⟩ := by rfl
  exact ofAnswer_of_handle x hc (by decide) rfl rfl

/-- The value of the variable `x` after the wheel of a new board was turned and its position
assigned. -/
def assignedPosition (limits : Limits) (protocol : Protocol) (v : Int64) : Option Value :=
  ((Session.new limits protocol).feedAll [turnText v, positionText]).2.interpreter.globals.get? "x"

theorem assignedPosition_eq (limits : Limits) {protocol : Protocol} {v : Int64}
    (hpolls : 1 ≤ protocol.pollAttempts)
    (hturn : isSentinelLine protocol (turnText v).toList = false)
    (hposition : isSentinelLine protocol positionText.toList = false) :
    assignedPosition limits protocol v = some (.int (truncate (ofInt v.toInt))) := by
  have hserves := serves_new limits hpolls
  have hopen : ∃ c ∈ (turnText v).toList, isLineEnd c = false :=
    ⟨'(', by simp [toList_turnText], rfl⟩
  have hfirst : (Session.new limits protocol).feed (turnText v) = _ :=
    feed_of_call (isTrimmed_turnText v) hturn (equals_not_mem_turnText v) (isCall_turnText v)
  have hfollows := hserves.follows_feedCall hopen
  rw [assignedPosition, feedAll_cons, feedAll_cons, feedAll_nil, hfirst]
  obtain ⟨hserves, hprotocol, hbench⟩ := hfollows
  generalize ((Session.new limits protocol).feedCall (turnText v)).2 = s at hserves hprotocol hbench
  have hwheel := @wheel_turnText v (Session.new limits protocol).relay.bench rfl
  rw [← hbench] at hwheel
  have hanswer := ofAnswer_position s.relay.bench
  rw [response_position, hwheel] at hanswer
  rw [feed_positionText (hprotocol ▸ hposition), ← hanswer]
  exact hserves.get?_feedAssignment (by decide) ⟨'(', by decide, rfl⟩
    (by rw [response_position, hwheel])

/-- An integer that the hardware answers reaches a script as itself if and only if it is exact or
the largest one, provided that no argument of its command holds both quotation marks. The same holds
of the position of a wheel that was turned at the console: any other integer arrives rounded. -/
theorem integer_reaches_script (v : Int64) :
    (∀ (σ : Type) (h : Hardware σ) (x : Bench σ) (text echo : String) (c : Command)
      (request : Request), Command.parse text = .ok c →
      (∀ a ∈ c.arguments, a.value.OneMark) → c.prepare = .ok (echo, request) →
      (h.handle request x.device).1 = .ok (.int v) →
      let value := Value.ofAnswer (.ofResponse (x.run h text).1)
      value = .int (truncate (ofInt v.toInt)) ∧
        (value = .int v ↔ IsExact v.toInt.natAbs ∨ v = Int64.maxValue)) ∧
    ∀ (limits : Limits) (protocol : Protocol), 1 ≤ protocol.pollAttempts →
      isSentinelLine protocol (turnText v).toList = false →
      isSentinelLine protocol positionText.toList = false →
      let assigned := assignedPosition limits protocol v
      assigned = some (.int (truncate (ofInt v.toInt))) ∧
        (assigned = some (.int v) ↔ IsExact v.toInt.natAbs ∨ v = Int64.maxValue) := by
  constructor
  · intro σ h x text echo c request hc hm hp hr value
    have hvalue : value = _ := ofAnswer_of_handle x hc hm hp hr
    refine ⟨hvalue, ?_⟩
    rw [hvalue, Value.int.injEq]
    exact truncate_ofInt_eq_iff v
  · intro limits protocol hpolls hturn hposition assigned
    have hassigned : assigned = _ := assignedPosition_eq limits hpolls hturn hposition
    refine ⟨hassigned, ?_⟩
    rw [hassigned, Option.some_inj, Value.int.injEq]
    exact truncate_ofInt_eq_iff v

/-- A bench whose wheel is at a position. -/
def wheelBench (v : Int64) : Bench Board :=
  ⟨{ Board.new {} with wheel := ⟨v⟩ }, {}⟩

/-- A power of two is exact, however large it is. -/
theorem integer_reaches_script_lowest :
    let v := Int64.minValue
    let c : Command := ⟨"wheel", .wheel, .get, "get", .keyword, []⟩
    (Command.parse "wheel(get)" = .ok c ∧ (∀ a ∈ c.arguments, a.value.OneMark) ∧
      c.prepare = .ok ("wheel(get)", .wheel .get) ∧
      (Board.simulated.handle (.wheel .get) (wheelBench v).device).1 = .ok (.int v) ∧
      Value.ofAnswer (.ofResponse ((wheelBench v).run Board.simulated "wheel(get)").1) = .int v) ∧
    1 ≤ ({} : Protocol).pollAttempts ∧ isSentinelLine {} (turnText v).toList = false ∧
      isSentinelLine {} positionText.toList = false ∧
      assignedPosition {} {} v = some (.int v) := by
  intro v c
  have hexact : IsExact v.toInt.natAbs ∨ v = Int64.maxValue :=
    .inl ⟨1, 63, by decide, by decide⟩
  have hc : Command.parse "wheel(get)" = .ok c := by rfl
  obtain ⟨hanswers, hsessions⟩ := integer_reaches_script v
  have hanswer := hanswers Board Board.simulated (wheelBench v) _ _ c _ hc (by decide) rfl rfl
  have hturn : isSentinelLine {} (turnText v).toList = false := by decide +kernel
  have hposition : isSentinelLine {} positionText.toList = false := by decide +kernel
  have hsession := hsessions {} {} (by decide) hturn hposition
  exact ⟨⟨hc, by decide, rfl, rfl, hanswer.2.mpr hexact⟩, by decide, hturn, hposition,
    hsession.2.mpr hexact⟩

/-- The first integer that needs 54 bits arrives as the even one before it. -/
theorem not_forall_integer_reaches_script :
    (¬∀ (σ : Type) (h : Hardware σ) (x : Bench σ) (text : String) (c : Command) (echo : String)
      (request : Request) (v : Int64), Command.parse text = .ok c →
      c.prepare = .ok (echo, request) → (h.handle request x.device).1 = .ok (.int v) →
      Value.ofAnswer (.ofResponse (x.run h text).1) = .int v) ∧
    ¬∀ v : Int64, assignedPosition {} {} v = some (.int v) := by
  have hrounded : truncate (ofInt (9007199254740993 : Int64).toInt) = 9007199254740992 := by
    decide +kernel
  constructor
  · intro hall
    have hc : Command.parse "wheel(get)" =
        .ok ⟨"wheel", .wheel, .get, "get", .keyword, []⟩ := by rfl
    have hvalue := hall Board Board.simulated (wheelBench 9007199254740993) _ _ _ _ _ hc rfl rfl
    rw [ofAnswer_position] at hvalue
    exact absurd (Value.int.inj (hrounded ▸ hvalue)) (by decide)
  · intro hall
    have hassigned := hall 9007199254740993
    rw [assignedPosition_eq {} (by decide) (by decide +kernel) (by decide +kernel), hrounded]
      at hassigned
    exact absurd (Value.int.inj (Option.some.inj hassigned)) (by decide)

end Session

end BenchConsole
