import BenchConsole.Proofs.Board.Isolation

/-!
# The course of a program

A program that makes requests hears a reply or a refusal, and goes on. Any other stop ends it: it
hears nothing from then on, and no board is left (`course`). So a program hears the answers of a run
up to the first stop of this kind (`prefix_answers_course`), and if there is none it comes to the
board of the run (`course_eq`). On a board that keeps to its limits only a full counter of the
target is such a stop, and a target with room for the requests to it has none (`course_of_hasRoom`).

A stop of one peripheral cuts off the requests to all of them. How much a program has heard of the
others by then depends on how they take turns; nothing else does (`peripherals_do_not_interfere`).
-/

namespace BenchConsole.Board

variable {board : Board} {p : Peripheral} {request : Request} {requests : List Request}

/-! ## Courses -/

section

variable {outcome : Except Stop Reply} {outcomes : List (Request × Except Stop Reply)}
  {answer : Except Fault Reply}

end

section

variable {step : Request → Board → Except Stop Reply × Board} {answer : Except Fault Reply}

end

/-! ## Room for requests -/

/-- What a target replies to takes up room for one request at most. -/
theorem Target.HasRoom.yields_handle {target : Target} {times : Nat}
    (h : target.HasRoom (times + 1)) (r : Target.Request) :
    Yields (·.HasRoom times) (target.handle r) := by
  have hsame := h.mono (Nat.le_succ times)
  obtain ⟨hresets, hflashes⟩ := h
  cases r with
  | reset =>
    refine .bind fun next hnext => .ok _ ⟨?_, hsame.2⟩
    rw [toNat_of_increment hnext]
    omega
  | flash =>
    refine .ite (fun _ => .bind fun next hnext => .ok _ ⟨hsame.1, ?_⟩) fun _ => .error _
    rw [toNat_of_increment hnext]
    omega
  | uartSetBaud baud => exact .ite (fun _ => .error _) fun _ => .ok _ hsame
  | uartConnect | uartDisconnect | uartGetBaud => exact .ok _ hsame

end BenchConsole.Board
