import BenchConsole.Proofs.Board.Soundness

/-!
# Runs of a board

Requests are asked one after the other. `exchanges` holds what the board answered each of them, and
`accepted` the requests that it replied to. Only these change the board, so what holds of a board
and its history may be shown for one accepted request at a time (`history_induction`).
-/

namespace BenchConsole.Board

variable {α ε : Type} {board later : Board} {request : Request} {requests others : List Request}
  {reply : Reply} {stop : Stop}

/-! ## Steps -/

/-- An answer with the state from then on, which stays as it was if there is no reply. -/
def settle (state : α) : Except ε (Reply × α) → Except ε Reply × α
  | .ok (reply, later) => (.ok reply, later)
  | .error e => (.error e, state)

/-- A request to a board, with its reply or what it stops for, and the board from then on. -/
def step (request : Request) (board : Board) : Except Stop Reply × Board :=
  settle board (board.handle request)

theorem simulated_handle (request : Request) (board : Board) :
    simulated.handle request board =
      (settle board (board.handle request)).map (·.mapError Stop.fault) id := by
  simp only [simulated]
  cases board.handle request <;> rfl

theorem simulated_snd (request : Request) (board : Board) :
    (simulated.handle request board).2 = (settle board (board.handle request)).2 := by
  rw [simulated_handle]
  rfl

theorem settle_refusing (state : α) (outcome : Except Fault (Reply × α)) :
    settle state (refusing outcome) = (settle state outcome).map refusing id := by
  cases outcome <;> rfl

theorem Yields.settle {P : α → Prop} {state : α} {outcome : Except ε (Reply × α)}
    (h : Yields P outcome) (hstate : P state) : P (Board.settle state outcome).2 := by
  cases outcome with
  | error e => exact hstate
  | ok answered =>
    obtain ⟨reply, later⟩ := answered
    exact h reply later rfl

/-! ## Runs -/

/-- Requests with the answers to them, when they are asked one after the other. -/
def trace (step : Request → Board → α × Board) (board : Board) :
    List Request → List (Request × α)
  | [] => []
  | request :: requests =>
    (request, (step request board).1) :: trace step (step request board).2 requests

/-- The requests of a run with what the board answered them. -/
def exchanges (board : Board) (requests : List Request) : List (Request × Except Fault Reply) :=
  trace simulated.handle board requests

/-- The requests of a run that the board replied to. -/
def accepted (board : Board) (requests : List Request) : List Request :=
  ((board.exchanges requests).filter (·.2.isOk)).map Prod.fst

theorem afterAll_cons (board : Board) (request : Request) (requests : List Request) :
    board.afterAll (request :: requests) = (simulated.handle request board).2.afterAll requests :=
  rfl

theorem accepted_cons_of_ok (h : board.handle request = .ok (reply, later)) :
    board.accepted (request :: requests) = request :: later.accepted requests := by
  simp only [accepted, exchanges, trace, simulated, h, Except.isOk, Except.toBool,
    List.filter_cons_of_pos, List.map_cons]

theorem accepted_cons_of_error (h : board.handle request = .error stop) :
    board.accepted (request :: requests) = board.accepted requests := by
  simp [accepted, exchanges, trace, simulated, h, Except.isOk, Except.toBool]

/-- What holds of a board before anything was asked, and stays true of its history, newest request
first, with every request that is answered, holds after every run. -/
theorem history_induction {P : List Request → Board → Prop} (hstart : P [] board)
    (hstep : ∀ past before request reply later, P past before →
      before.handle request = .ok (reply, later) → P (request :: past) later)
    (requests : List Request) :
    P (board.accepted requests).reverse (board.afterAll requests) := by
  -- The history grows under the induction, so it has to start from any past.
  suffices hpast : ∀ past, P past board →
      P ((board.accepted requests).reverse ++ past) (board.afterAll requests) by
    simpa using hpast [] hstart
  intro past hboard
  clear hstart
  induction requests generalizing board past with
  | nil => exact hboard
  | cons request requests ih =>
    rw [afterAll_cons, simulated_handle]
    cases hr : board.handle request with
    | error stop =>
      rw [accepted_cons_of_error hr]
      exact ih past hboard
    | ok answered =>
      obtain ⟨reply, later⟩ := answered
      rw [accepted_cons_of_ok hr, List.reverse_cons, List.append_assoc]
      exact ih (request :: past) (hstep past board request reply later hboard hr)

end BenchConsole.Board
