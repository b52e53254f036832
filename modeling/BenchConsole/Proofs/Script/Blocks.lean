import BenchConsole.Proofs.Script.Interpreter

/-!
# Blocks of code

A line feed between two texts is one between their statements: the statements of the joined text are
those of the first and then those of the second (`statements_append`). Statements are executed one
after the other up to the first that fails (`runStatements_append`), so that the joined text does
what the two do in turn. A run fails if and only if some statement fails and all before it assign
something, and then the variables have just these values (`runStatements_eq_error_iff`).
-/

namespace BenchConsole.Script

open Text

variable {as bs failing : List Char} {before block : List (List Char)} {globals later : Globals}
  {pairs : List (String × Value)} {e : Error}

/-! ## Statements of joined texts -/

/-- A text without a line feed is one statement at most. -/
theorem statements_of_not_mem (h : '\n' ∉ as) :
    statements as = [trim as].filter fun s => !s.isEmpty && s.head? != some '#' := by
  by_cases hnil : as = []
  · rw [hnil]
    rfl
  · rw [statements, lines_of_not_mem h hnil, List.map_singleton]

theorem statements_append_of_not_mem (h : '\n' ∉ as) (bs : List Char) :
    statements (as ++ '\n' :: bs) = statements as ++ statements bs := by
  obtain ⟨line, hlines, hline⟩ := exists_lines_append h bs
  have htrim : trim line = trim as := by
    rcases hline with rfl | rfl
    · rfl
    · exact (trim_append_of_blank_right (by decide)).symm
  rw [statements_of_not_mem h, statements, hlines, List.map_cons, htrim]
  exact List.filter_append [trim as] _

/-- Joined texts have the statements of the one and then those of the other. -/
theorem statements_append (as bs : List Char) :
    statements (as ++ '\n' :: bs) = statements as ++ statements bs := by
  -- What is read of a line so far stands in front, until a line feed ends the line.
  suffices hfront : ∀ front, '\n' ∉ front →
      statements (front ++ (as ++ '\n' :: bs)) = statements (front ++ as) ++ statements bs from
    hfront [] List.not_mem_nil
  induction as with
  | nil =>
    intro front hfront
    rw [List.append_nil]
    exact statements_append_of_not_mem hfront bs
  | cons c as ih =>
    intro front hfront
    by_cases hc : c = '\n'
    · obtain rfl := hc
      have hrest := ih [] List.not_mem_nil
      rw [List.nil_append, List.nil_append] at hrest
      rw [List.cons_append, statements_append_of_not_mem hfront, hrest,
        statements_append_of_not_mem hfront, List.append_assoc]
    · have hnext : '\n' ∉ front ++ [c] := by simp [hfront, Ne.symm hc]
      have hrest := ih (front ++ [c]) hnext
      rwa [List.append_assoc, List.append_assoc] at hrest

/-! ## Runs of statements -/

/-- The second part is executed if nothing in the first part fails. -/
theorem runStatements_append (first second : List (List Char)) (globals : Globals) :
    runStatements (first ++ second) globals =
      match runStatements first globals with
      | (.ok (), later) => runStatements second later
      | failed => failed := by
  induction first generalizing globals with
  | nil => rfl
  | cons statement first ih =>
    rw [List.cons_append, runStatements, runStatements]
    cases runStatement statement globals with
    | error e => rfl
    | ok later => exact ih later

theorem runStatements_of_fails (hbefore : List.Forall₂ Assigns before pairs)
    (hfails : Fails failing e) (after : List (List Char)) (globals : Globals) :
    runStatements (before ++ failing :: after) globals = (.error e, globals.insertAll pairs) := by
  rw [runStatements_append, runStatements_of_assigns hbefore]
  simp only [runStatements, hfails.runStatement_eq]

/-- A run that fails has executed just the statements in front of the one that fails. -/
theorem runStatements_eq_error_iff : runStatements block globals = (.error e, later) ↔
    ∃ before failing after pairs, block = before ++ failing :: after ∧
      List.Forall₂ Assigns before pairs ∧ Fails failing e ∧ later = globals.insertAll pairs := by
  constructor
  · intro h
    induction block generalizing globals with
    | nil => cases h
    | cons statement block ih =>
      rw [runStatements] at h
      rcases assigns_or_fails statement with ⟨pair, hfirst⟩ | ⟨e', hfails⟩
      · rw [hfirst.runStatement_eq] at h
        obtain ⟨before, failing, after, pairs, rfl, hbefore, hfails, hlater⟩ := ih h
        exact ⟨statement :: before, failing, after, pair :: pairs, rfl, .cons hfirst hbefore,
          hfails, hlater⟩
      · rw [hfails.runStatement_eq] at h
        obtain ⟨he, rfl⟩ := Prod.mk.inj h
        obtain rfl := Except.error.inj he
        exact ⟨[], statement, block, [], rfl, .nil, hfails, rfl⟩
  · rintro ⟨before, failing, after, pairs, rfl, hbefore, hfails, rfl⟩
    exact runStatements_of_fails hbefore hfails after globals

/-! ## Blocks -/

namespace Interpreter

/-- Executes a block and then, if it succeeded, another. -/
def executeInTurn (first second : String) (s : Interpreter) : Except Error Unit × Interpreter :=
  match s.execute first with
  | (.ok (), later) => later.execute second
  | failed => failed

theorem execute_joined (first second : String) (s : Interpreter) :
    s.execute (first ++ "\n" ++ second) =
      ((s.executeInTurn first second).1,
        { s with globals := (s.executeInTurn first second).2.globals, entries := s.entries + 1 }) := by
  have htext : (first ++ "\n" ++ second).toList = first.toList ++ '\n' :: second.toList := by simp
  rw [execute, htext, statements_append, runStatements_append, executeInTurn, execute]
  rcases runStatements (statements first.toList) s.globals with ⟨_ | _, later⟩
  · rfl
  · rfl

theorem executeInTurn_of_error {s : Interpreter} {first : String}
    (h : (s.execute first).1 = .error e) (second : String) :
    s.executeInTurn first second = s.execute first := by
  rw [executeInTurn]
  rcases hfirst : s.execute first with ⟨_ | _, later⟩
  · rfl
  · rw [hfirst] at h
    cases h

/-- A block that is joined of two does what the two do in turn: the outcome is the same, and so are
the variables. A block fails if and only if one of its statements fails and those before it do not;
then the variables have the values that those before it assign. So nothing changes if there is more
code behind a block that fails. -/
theorem blocks_compose (s : Interpreter) :
    (∀ first second : String,
      (s.execute (first ++ "\n" ++ second)).1 = (s.executeInTurn first second).1 ∧
      (s.execute (first ++ "\n" ++ second)).2.globals =
        (s.executeInTurn first second).2.globals) ∧
    (∀ code e later,
      (s.execute code).1 = .error e ∧ (s.execute code).2.globals = later ↔
        ∃ before failing after pairs, statements code.toList = before ++ failing :: after ∧
          List.Forall₂ Assigns before pairs ∧ Fails failing e ∧
          later = s.globals.insertAll pairs) ∧
    ∀ code more e, (s.execute code).1 = .error e →
      s.execute (code ++ "\n" ++ more) = s.execute code := by
  refine ⟨fun first second => ?_, fun code e later => ?_, fun code more e hfails => ?_⟩
  · rw [execute_joined]
    exact ⟨rfl, rfl⟩
  · have hrun : runStatements (statements code.toList) s.globals = (.error e, later) ↔
        (s.execute code).1 = .error e ∧ (s.execute code).2.globals = later :=
      Prod.ext_iff
    exact hrun.symm.trans runStatements_eq_error_iff
  · rw [execute_joined, executeInTurn_of_error hfails]
    rfl

/-- Code with a comment, a blank line and line ends of both kinds, whose third statement fails. -/
def failingCode : String := "a = 1\r\n\n# a = 2\nb = 'x'\r\nc = \"\\q\"\na = 3\r"

/-- The statements before the one that fails are done, those behind it are not. -/
theorem blocks_compose_failingCode :
    let s : Interpreter := { globals := [("c", .none)] }
    let e : Error := .syntaxError "unknown escape '\\q'"
    let later : Globals := [("a", .int 1), ("b", .str "x"), ("c", .none)]
    (s.execute failingCode).1 = .error e ∧
      (s.execute (failingCode ++ "\n" ++ "d = 4")).1 = .error e ∧
      (s.execute (failingCode ++ "\n" ++ "d = 4")).2.globals = later := by
  intro s e later
  have hfails : (s.execute failingCode).1 = .error e := by rfl
  have hlater : (s.execute failingCode).2.globals = later := by rfl
  obtain ⟨-, -, hmore⟩ := blocks_compose s
  rw [hmore failingCode "d = 4" e hfails]
  exact ⟨hfails, hfails, hlater⟩

end Interpreter

end BenchConsole.Script
