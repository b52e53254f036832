import BenchConsole.Proofs.Script.Value
import Mathlib.Data.List.Forall2

/-!
# Programs of assignments

What a statement does is said without executing it: `Assigns statement (name, v)` says that it assigns
`v` to `name`, and `Fails statement e` that it fails with `e`. Each statement does the one or the
other, whatever the variables are (`assigns_or_fails`). Statements that assign something do so one
after the other (`runStatements_of_assigns`, with `Globals.insertAll`).

In a program that consists of the source of assignments, each of them is a statement of its own,
whatever the values are, and does what it says (`assigns_source`), so that the program as a whole
assigns the variables and nothing else (`runStatements_assignments`). One such assignment is as good
as an entry of the runtime made for it (`Interpreter.assign_by_execution`).
-/

namespace BenchConsole.Script

open Text

/-- A statement that assigns a value to a variable. -/
inductive Assigns : List Char → String × Value → Prop
  | mk : '=' ∉ left → isIdentifier (trim left) → readValue (trim right) = .ok v →
    Assigns (left ++ '=' :: right) (String.ofList (trim left), v)

/-- A statement that fails, and how. -/
inductive Fails : List Char → Error → Prop
  | noEquals : '=' ∉ statement →
    Fails statement
      (.syntaxError ("expected assignment, got '" ++ String.ofList statement ++ "'"))
  | noName : '=' ∉ left → isIdentifier (trim left) = false →
    Fails (left ++ '=' :: right)
      (.syntaxError ("'" ++ String.ofList (trim left) ++ "' is not a valid name"))
  | noValue : '=' ∉ left → isIdentifier (trim left) → readValue (trim right) = .error e →
    Fails (left ++ '=' :: right) e

variable {globals : Globals} {name other : String} {v w : Value} {pair : String × Value}
  {pairs : List (String × Value)} {cs left statement : List Char} {block : List (List Char)}
  {c : Char} {e : Error}

/-! ## Global variables -/

namespace Globals

theorem get?_cons (name other : String) (v : Value) (rest : Globals) :
    get? ((other, v) :: rest) name = if name = other then some v else rest.get? name := by
  unfold get?
  rw [List.lookup_cons]
  split <;> simp_all

theorem get?_insert_self (globals : Globals) (name : String) (v : Value) :
    (globals.insert name v).get? name = some v := by
  induction globals with
  | nil => rw [insert, get?_cons, if_pos rfl]
  | cons entry rest ih =>
    obtain ⟨other, w⟩ := entry
    rw [insert]
    split_ifs with heq hlt
    · rw [get?_cons, if_pos rfl]
    · rw [get?_cons, if_pos rfl]
    · rw [get?_cons, if_neg heq, ih]

theorem get?_insert_of_ne (h : other ≠ name) (globals : Globals) (v : Value) :
    (globals.insert name v).get? other = globals.get? other := by
  induction globals with
  | nil => rw [insert, get?_cons, if_neg h]
  | cons entry rest ih =>
    obtain ⟨first, w⟩ := entry
    rw [insert]
    split_ifs with heq hlt
    · rw [get?_cons, if_neg h, get?_cons, if_neg (heq ▸ h)]
    · rw [get?_cons, if_neg h]
    · rw [get?_cons, get?_cons, ih]

/-- Assigns variables one after the other. -/
def insertAll : Globals → List (String × Value) → Globals
  | globals, [] => globals
  | globals, (name, v) :: pairs => insertAll (globals.insert name v) pairs

theorem get?_insertAll_of_not_mem (h : name ∉ pairs.map Prod.fst) (globals : Globals) :
    (globals.insertAll pairs).get? name = globals.get? name := by
  induction pairs generalizing globals with
  | nil => rfl
  | cons pair pairs ih =>
    obtain ⟨hne, hrest⟩ := not_or.mp (mt List.mem_cons.mpr h)
    rw [insertAll, ih hrest, get?_insert_of_ne hne]

theorem get?_insertAll_of_mem (hnodup : (pairs.map Prod.fst).Nodup) (h : (name, v) ∈ pairs)
    (globals : Globals) : (globals.insertAll pairs).get? name = some v := by
  induction pairs generalizing globals with
  | nil => cases h
  | cons pair pairs ih =>
    obtain ⟨hfirst, hrest⟩ := List.nodup_cons.mp hnodup
    rcases List.mem_cons.mp h with rfl | h
    · rw [insertAll, get?_insertAll_of_not_mem hfirst, get?_insert_self]
    · exact ih hrest h _

end Globals

/-! ## Identifiers -/

theorem continuesIdentifier_iff : continuesIdentifier c ↔ isWordChar c ∨ c.isDigit := by
  simp only [continuesIdentifier, isWordChar, Char.isAlphanum, Bool.or_eq_true]
  tauto

theorem isBlank_eq_false_of_continuesIdentifier (h : continuesIdentifier c) :
    isBlank c = false := by
  rcases continuesIdentifier_iff.mp h with h | h
  · exact isBlank_eq_false_of_isWordChar h
  · exact isBlank_eq_false_of_isNumeralChar (Number.isNumeralChar_of_isDigit h)

theorem continuesIdentifier_of_isIdentifier (h : isIdentifier cs) :
    ∀ c ∈ cs, continuesIdentifier c := by
  cases cs with
  | nil => cases h
  | cons first cs =>
    obtain ⟨hfirst, hrest⟩ := Bool.and_eq_true_iff.mp h
    intro c hc
    rcases List.mem_cons.mp hc with rfl | hc
    · exact continuesIdentifier_iff.mpr (.inl hfirst)
    · exact List.all_eq_true.mp hrest c hc

theorem ne_nil_of_isIdentifier (h : isIdentifier cs) : cs ≠ [] := by
  rintro rfl
  cases h

theorem not_mem_of_isIdentifier (h : isIdentifier cs) (hc : continuesIdentifier c = false) :
    c ∉ cs := by
  intro hmem
  rw [continuesIdentifier_of_isIdentifier h c hmem] at hc
  cases hc

theorem isBlank_of_isIdentifier (h : isIdentifier cs) : ∀ c ∈ cs, isBlank c = false :=
  fun c hc => isBlank_eq_false_of_continuesIdentifier (continuesIdentifier_of_isIdentifier h c hc)

/-! ## Statements -/

theorem runStatement_append (h : '=' ∉ left) (right : List Char) (globals : Globals) :
    runStatement (left ++ '=' :: right) globals =
      if isIdentifier (trim left) then
        (readValue (trim right)).map (globals.insert (String.ofList (trim left)))
      else
        .error (.syntaxError ("'" ++ String.ofList (trim left) ++ "' is not a valid name")) := by
  have hspan : (left ++ '=' :: right).span (· != '=') = (left, '=' :: right) :=
    span_ne_eq_cons_iff.mpr ⟨rfl, rfl, h⟩
  simp only [runStatement, hspan]
  rfl

theorem Assigns.runStatement_eq (h : Assigns statement pair) (globals : Globals) :
    runStatement statement globals = .ok (globals.insert pair.1 pair.2) := by
  cases h with
  | mk hleft hname hread =>
    rw [runStatement_append hleft, if_pos hname, hread]
    rfl

theorem Fails.runStatement_eq (h : Fails statement e) (globals : Globals) :
    runStatement statement globals = .error e := by
  cases h with
  | noEquals hnone =>
    have hspan : statement.span (· != '=') = (statement, []) := by
      refine span_eq_iff.mpr ⟨(List.append_nil _).symm, fun c hc => ?_, nofun⟩
      exact bne_iff_ne.mpr fun he => hnone (he ▸ hc)
    rw [runStatement, hspan]
  | noName hleft hname => rw [runStatement_append hleft, if_neg (Bool.eq_false_iff.mp hname)]
  | noValue hleft hname hread =>
    rw [runStatement_append hleft, if_pos hname, hread]
    rfl

/-- A statement does the one or the other. -/
theorem assigns_or_fails (statement : List Char) :
    (∃ pair, Assigns statement pair) ∨ ∃ e, Fails statement e := by
  by_cases hmem : '=' ∈ statement
  · obtain ⟨left, right, rfl, hleft⟩ := List.eq_append_cons_of_mem hmem
    cases hname : isIdentifier (trim left) with
    | false => exact .inr ⟨_, .noName hleft hname⟩
    | true =>
      cases hread : readValue (trim right) with
      | error e => exact .inr ⟨e, .noValue hleft hname hread⟩
      | ok v => exact .inl ⟨_, .mk hleft hname hread⟩
  · exact .inr ⟨_, .noEquals hmem⟩

/-- Statements that assign something do so one after the other. -/
theorem runStatements_of_assigns (h : List.Forall₂ Assigns block pairs) (globals : Globals) :
    runStatements block globals = (.ok (), globals.insertAll pairs) := by
  induction h generalizing globals with
  | nil => rfl
  | cons hfirst _ ih =>
    rw [runStatements, hfirst.runStatement_eq]
    exact ih _

/-! ## Assignments -/

theorem assignment_toList (name : String) (v : Value) :
    (assignment name v).toList = name.toList ++ ([' ', '=', ' '] ++ v.literalChars) := by
  simp [assignment, Value.literal]

/-- The source of an assignment. -/
def source (pair : String × Value) : List Char :=
  (assignment pair.1 pair.2).toList

/-- The source of an assignment does what it says. -/
theorem assigns_source (hname : isIdentifier name.toList) (hv : v.IsReadable) :
    Assigns (source (name, v)) (name, v) := by
  have hsource : source (name, v) = (name.toList ++ [' ']) ++ '=' :: ' ' :: v.literalChars := by
    rw [source, assignment_toList, List.append_assoc]
    rfl
  have hleft : trim (name.toList ++ [' ']) = name.toList := by
    rw [trim_append_of_blank_right (by decide),
      (isTrimmed_of_forall (isBlank_of_isIdentifier hname)).trim_eq]
  have hright : trim (' ' :: v.literalChars) = v.literalChars := by
    rw [trim_space, (isTrimmed_literalChars hv).trim_eq]
  have hequals : '=' ∉ name.toList ++ [' '] := by
    simp [not_mem_of_isIdentifier hname (rfl : continuesIdentifier '=' = false)]
  have h := Assigns.mk hequals (hleft.symm ▸ hname)
    ((congrArg readValue hright).trans (readValue_literalChars hv))
  rwa [← hsource, hleft, String.ofList_toList] at h

/-- The assignments of a program whose names are identifiers and whose values are readable. -/
def IsProgram (pairs : List (String × Value)) : Prop :=
  ∀ pair ∈ pairs, isIdentifier pair.1.toList ∧ pair.2.IsReadable

/-- A program of assignments assigns the variables, one after the other, and nothing else. -/
theorem runStatements_assignments (h : IsProgram pairs) (globals : Globals) :
    runStatements (pairs.map source) globals = (.ok (), globals.insertAll pairs) := by
  refine runStatements_of_assigns (List.forall₂_map_left_iff.mpr ?_) globals
  exact List.forall₂_same.mpr fun pair hpair => assigns_source (h pair hpair).1 (h pair hpair).2

/-! ## Statements of a program -/

theorem isOneLine_source {pair : String × Value} (hname : isIdentifier pair.1.toList)
    (hv : pair.2.IsReadable) : IsOneLine (source pair) := by
  have hequals : IsOneLine [' ', '=', ' '] := by decide
  have hleft := isOneLine_of_no_blank (isBlank_of_isIdentifier hname)
  rw [source, assignment_toList]
  exact hleft.append (hequals.append (isOneLine_literalChars hv))

theorem isTrimmed_source {pair : String × Value} (hname : isIdentifier pair.1.toList)
    (hv : pair.2.IsReadable) : IsTrimmed (source pair) := by
  rw [source, assignment_toList]
  constructor
  · intro c hc
    rw [List.head?_append_of_ne_nil _ (ne_nil_of_isIdentifier hname)] at hc
    exact isBlank_of_isIdentifier hname c (List.mem_of_mem_head? hc)
  · intro c hc
    rw [← List.append_assoc, List.getLast?_append_of_ne_nil _ (literalChars_ne_nil hv)] at hc
    exact (isTrimmed_literalChars hv).last c hc

theorem head?_source {pair : String × Value} (hname : isIdentifier pair.1.toList) :
    (source pair).head? ≠ some '#' := by
  intro hhead
  rw [source, assignment_toList,
    List.head?_append_of_ne_nil _ (ne_nil_of_isIdentifier hname)] at hhead
  exact not_mem_of_isIdentifier hname rfl (List.mem_of_mem_head? hhead)

theorem source_ne_nil {pair : String × Value} (hname : isIdentifier pair.1.toList) :
    source pair ≠ [] := by
  rw [source, assignment_toList]
  exact List.append_ne_nil_of_left_ne_nil (ne_nil_of_isIdentifier hname) _

/-- Every assignment of a program is a statement, and there are no others. -/
theorem statements_source (h : IsProgram pairs) :
    statements (['\n'].intercalate (pairs.map source)) = pairs.map source := by
  have hlines : lines (['\n'].intercalate (pairs.map source)) = pairs.map source := by
    refine lines_intercalate fun piece hpiece => ?_
    obtain ⟨pair, hpair, rfl⟩ := List.mem_map.mp hpiece
    obtain ⟨hname, hv⟩ := h pair hpair
    exact ⟨isOneLine_source hname hv, source_ne_nil hname⟩
  have htrim : (pairs.map source).map trim = pairs.map source := by
    rw [List.map_map]
    refine List.map_congr_left fun pair hpair => ?_
    obtain ⟨hname, hv⟩ := h pair hpair
    exact (isTrimmed_source hname hv).trim_eq
  rw [statements, hlines, htrim, List.filter_eq_self]
  intro piece hpiece
  obtain ⟨pair, hpair, rfl⟩ := List.mem_map.mp hpiece
  obtain ⟨hname, -⟩ := h pair hpair
  simp [source_ne_nil hname, head?_source hname]

/-! ## Entries of the runtime -/

namespace Interpreter

/-- A program enters the runtime once and assigns its variables and no others. -/
theorem execute_of_isProgram (h : IsProgram pairs) {code : String}
    (hcode : code.toList = ['\n'].intercalate (pairs.map source)) (s : Interpreter) :
    s.execute code =
      (.ok (), { s with globals := s.globals.insertAll pairs, entries := s.entries + 1 }) := by
  rw [execute, hcode, statements_source h, runStatements_assignments h]

theorem execute_assignment (hname : isIdentifier name.toList) (hv : v.IsReadable)
    (s : Interpreter) : s.execute (assignment name v) =
      (.ok (), { s with globals := s.globals.insert name v, entries := s.entries + 1 }) := by
  have hprogram : IsProgram [(name, v)] := List.forall_mem_singleton.mpr ⟨hname, hv⟩
  have hcode : (assignment name v).toList = ['\n'].intercalate ([(name, v)].map source) := by
    rw [List.map_singleton, List.intercalate_singleton, source]
  exact execute_of_isProgram hprogram hcode s

theorem assign_of_isIdentifier (hname : isIdentifier name.toList) (v : Value) (s : Interpreter) :
    s.assign name v =
      (.ok (), { s with globals := s.globals.insert name v, entries := s.entries + 1 }) :=
  if_pos hname

/-- Executing the source of an assignment is as good as having the runtime assign the value: both
succeed and lead to the same state. The variable has the value there, whatever characters are in it,
the other variables are as they were, and the runtime was entered once. So a runtime that assigns by
executing does the same, too. -/
theorem assign_by_execution (hname : isIdentifier name.toList) (hv : v.IsReadable)
    (s : Interpreter) :
    ∃ later, s.execute (assignment name v) = (.ok (), later) ∧
      runtime.assign name v s = (.ok (), later) ∧
      (Runtime.ofExecute execute).assign name v s = (.ok (), later) ∧
      later.globals.get? name = some v ∧
      (∀ other, other ≠ name → later.globals.get? other = s.globals.get? other) ∧
      later.entries = s.entries + 1 ∧ later.reentrySafe = s.reentrySafe := by
  refine ⟨_, execute_assignment hname hv s, assign_of_isIdentifier hname v s,
    execute_assignment hname hv s, ?_, fun other hother => ?_, rfl, rfl⟩
  · exact s.globals.get?_insert_self name v
  · exact s.globals.get?_insert_of_ne hother v

/-- A text with quotation marks, backslashes, line ends and what could be a statement in it. -/
def crowdedValue : Value :=
  .str "a\"b\\n\\\r\n# c = 'd'\\"

theorem assign_by_execution_crowdedValue :
    let s : Interpreter := { globals := [("c", .int 3)] }
    isIdentifier "_text1".toList ∧ crowdedValue.IsReadable ∧
      (s.execute (assignment "_text1" crowdedValue)).1 = .ok () ∧
      (s.execute (assignment "_text1" crowdedValue)).2.globals.get? "_text1" = some crowdedValue ∧
      (s.execute (assignment "_text1" crowdedValue)).2.globals.get? "c" = some (.int 3) := by
  intro s
  have hname : isIdentifier "_text1".toList := rfl
  have hreadable : crowdedValue.IsReadable := trivial
  obtain ⟨later, hexecute, -, -, hget, hothers, -⟩ := assign_by_execution hname hreadable s
  rw [hexecute]
  exact ⟨hname, hreadable, rfl, hget, hothers "c" (by decide)⟩

end Interpreter

end BenchConsole.Script
