import BenchConsole.Proofs.Board.Slots

/-!
# What is saved

A request that changes connections or an output channel says whether the change persists. If it does
not, the request is transient, and what is saved stays as it was (`SameSaved.of_isTransient`). Any
other request answers and saves the same on boards that differ in what is live only
(`SameSaved.handle`): its checks read the limits of the board, and it changes what is saved from
what was saved before. The exception is to load a slot, which saves what was live once.

So a run without a loaded slot saves the same as without its transient requests
(`saved_ignores_transient`).
-/

namespace BenchConsole.Board

variable {α γ ε : Type} {limits : Limits} {board other third : Board} {request : Request}
  {requests : List Request}

/-- Requests whose change does not persist. -/
def Request.isTransient : Request → Bool
  | .nets (.connect _ _ persist) => !persist
  | .nets (.disconnect _ _ persist) => !persist
  | .nets (.clear persist) => !persist
  | .analog (.dacSet _ _ persist) => !persist
  | _ => false

/-- Boards with the same limits that have the same connections and voltages saved. -/
structure SameSaved (board other : Board) : Prop where
  limits : board.limits = other.limits
  connections : board.nets.saved = other.nets.saved
  voltages : board.analog.dacSaved = other.analog.dacSaved

/-! ## Answers that leave something alike -/

/-- Two answers, each on a state of its own, leave states that look alike in some respect. -/
def LeaveAlike (view : α → γ) (state state' : α) (x y : Except ε (Reply × α)) : Prop :=
  view (settle state x).2 = view (settle state' y).2

namespace LeaveAlike

variable {view : α → γ} {state state' : α} {x y x' y' : Except ε (Reply × α)} {p : Prop}
  [Decidable p]

theorem ok (reply reply' : Reply) (h : view state = view state') {before before' : α} :
    LeaveAlike view before before' (.ok (reply, state) : Except ε (Reply × α))
      (.ok (reply', state')) :=
  h

theorem error (e : ε) (h : view state = view state') :
    LeaveAlike view state state' (.error e) (.error e) :=
  h

/-- A check that both answers begin with. -/
theorem check (test : Except ε Unit) (h : view state = view state')
    (hxy : LeaveAlike view state state' x y) :
    LeaveAlike view state state' (test >>= fun _ => x) (test >>= fun _ => y) := by
  cases test with
  | ok => exact hxy
  | error e => exact error e h

theorem ite (hx : LeaveAlike view state state' x y) (hy : LeaveAlike view state state' x' y') :
    LeaveAlike view state state' (if p then x else x') (if p then y else y') := by
  split
  · exact hx
  · exact hy

theorem refusing {x y : Except Fault (Reply × α)} (h : LeaveAlike view state state' x y) :
    LeaveAlike view state state' (Board.refusing x) (Board.refusing y) := by
  rw [LeaveAlike, settle_refusing, settle_refusing]
  exact h

end LeaveAlike

/-! ## Peripherals -/

theorem Nets.saved_update (nets : Nets) (persist : Bool) (change : Netlist → Netlist) :
    (nets.update persist change).saved = if persist then change nets.saved else nets.saved :=
  rfl

theorem Nets.leaveAlike_handle {nets nets' : Nets} (h : nets.saved = nets'.saved)
    {r : Nets.Request} (hload : ∀ slot, r ≠ .loadSlot slot) :
    LeaveAlike Nets.saved nets nets' (nets.handle limits r) (nets'.handle limits r) := by
  have hupdate (persist : Bool) (change : Netlist → Netlist) :
      (nets.update persist change).saved = (nets'.update persist change).saved := by
    rw [saved_update, saved_update, h]
  cases r with
  | connect a b persist =>
    exact .check _ h (.check _ h (.ite (.error _ h) (.ok _ _ (hupdate persist _))))
  | disconnect a b persist => exact .check _ h (.check _ h (.ok _ _ (hupdate persist _)))
  | clear persist => exact .ok _ _ (hupdate persist _)
  | connected a b => exact .check _ h (.check _ h (.ok _ _ h))
  | list | currentSlot => exact .ok _ _ h
  | loadSlot slot => exact absurd rfl (hload slot)
  | saveSlot slot | clearSlot slot =>
    refine .check _ h (.ok .done .done ?_)
    exact h

theorem Analog.leaveAlike_handle {analog analog' : Analog} (h : analog.dacSaved = analog'.dacSaved)
    (r : Analog.Request) :
    LeaveAlike Analog.dacSaved analog analog' (analog.handle limits r)
      (analog'.handle limits r) := by
  cases r with
  | dacSet channel volts persist =>
    refine .check _ h (.ite (.ok _ _ ?_) (.error _ h))
    simp only [setOutput, h]
  | _ => exact .check _ h (.ok _ _ h)

theorem Nets.yields_saved {nets : Nets} {r : Nets.Request}
    (h : (Board.Request.nets r).isTransient) :
    Yields (·.saved = nets.saved) (nets.handle limits r) := by
  cases r with
  | connect a b persist =>
    obtain rfl : persist = false := by simpa [Request.isTransient] using h
    exact .bind fun _ _ => .bind fun _ _ => .ite (fun _ => .error _) fun _ => .ok _ rfl
  | disconnect a b persist =>
    obtain rfl : persist = false := by simpa [Request.isTransient] using h
    exact .bind fun _ _ => .bind fun _ _ => .ok _ rfl
  | clear persist =>
    obtain rfl : persist = false := by simpa [Request.isTransient] using h
    exact .ok _ rfl
  | _ => cases h

theorem Analog.yields_dacSaved {analog : Analog} {r : Analog.Request}
    (h : (Board.Request.analog r).isTransient) :
    Yields (·.dacSaved = analog.dacSaved) (analog.handle limits r) := by
  cases r with
  | dacSet channel volts persist =>
    obtain rfl : persist = false := by simpa [Request.isTransient] using h
    exact .bind fun _ _ => .ite (fun _ => .ok _ rfl) fun _ => .error _
  | _ => cases h

/-! ## Boards -/

namespace SameSaved

theorem refl (board : Board) : SameSaved board board :=
  ⟨rfl, rfl, rfl⟩

theorem trans (h : SameSaved board other) (h' : SameSaved other third) : SameSaved board third :=
  ⟨h.limits.trans h'.limits, h.connections.trans h'.connections, h.voltages.trans h'.voltages⟩

theorem of_isTransient (h : request.isTransient) (board : Board) :
    SameSaved (simulated.handle request board).2 board := by
  rw [simulated_snd]
  cases request with
  | nets r =>
    refine Yields.settle (P := (SameSaved · board)) ?_ (refl board)
    rw [Board.handle]
    exact (Nets.yields_saved h).refusing.replied fun _ hsaved => ⟨rfl, hsaved, rfl⟩
  | analog r =>
    refine Yields.settle (P := (SameSaved · board)) ?_ (refl board)
    rw [Board.handle]
    exact (Analog.yields_dacSaved h).refusing.replied fun _ hsaved => ⟨rfl, rfl, hsaved⟩
  | _ => cases h

theorem handle (h : SameSaved board other) (hload : ∀ slot, request ≠ .nets (.loadSlot slot)) :
    SameSaved (simulated.handle request board).2 (simulated.handle request other).2 := by
  simp only [simulated_snd, handle_eq, settle_replied, ← h.limits]
  cases request with
  | nets r =>
    have hnets : LeaveAlike Nets.saved _ _ (board.nets.handle board.limits r) _ :=
      Nets.leaveAlike_handle h.connections fun slot heq => hload slot (congrArg _ heq)
    exact ⟨h.limits, hnets.refusing, h.voltages⟩
  | analog r =>
    have hanalog : LeaveAlike Analog.dacSaved _ _ (board.analog.handle board.limits r) _ :=
      Analog.leaveAlike_handle h.voltages r
    exact ⟨h.limits, h.connections, hanalog.refusing⟩
  | _ => exact ⟨h.limits, h.connections, h.voltages⟩

/-- A run that loads no slot saves the same without its transient requests. -/
theorem afterAll (h : SameSaved board other) (hload : ∀ slot, .nets (.loadSlot slot) ∉ requests) :
    SameSaved (board.afterAll requests) (other.afterAll (requests.filter (!·.isTransient))) := by
  induction requests generalizing board other with
  | nil => exact h
  | cons request requests ih =>
    have hrequest (slot : UInt8) : request ≠ .nets (.loadSlot slot) := fun heq =>
      hload slot (heq ▸ List.mem_cons_self)
    have hrest (slot : UInt8) : .nets (.loadSlot slot) ∉ requests := fun hmem =>
      hload slot (List.mem_cons_of_mem _ hmem)
    rw [afterAll_cons]
    cases htransient : request.isTransient with
    | true =>
      rw [List.filter_cons_of_neg (by simp [htransient])]
      exact ih ((of_isTransient htransient board).trans h) hrest
    | false =>
      rw [List.filter_cons_of_pos (by simp [htransient]), afterAll_cons]
      exact ih (h.handle hrequest) hrest

end SameSaved

/-- What is saved after a run that loads no slot does not depend on the requests that were not to
persist: without them, the same connections and the same voltages are saved. -/
theorem saved_ignores_transient (board : Board) {requests : List Request}
    (hload : ∀ slot, .nets (.loadSlot slot) ∉ requests) :
    let later := board.afterAll requests
    let persisted := board.afterAll (requests.filter (!·.isTransient))
    later.nets.saved = persisted.nets.saved ∧ later.analog.dacSaved = persisted.analog.dacSaved :=
  have h : SameSaved _ _ := (SameSaved.refl board).afterAll hload
  ⟨h.connections, h.voltages⟩

/-- A connection that is live only is cleared for good, and a voltage that is live only is
overwritten by one that persists. -/
theorem saved_ignores_transient_mixed :
    let requests : List Request := [.nets (.connect 1 2 true), .nets (.connect 3 4 false),
      .analog (.dacSet 0 5.0 false), .nets (.saveSlot 0), .nets (.clear false),
      .analog (.dacSet 1 9.5 true), .nets (.disconnect 1 2 false), .analog (.dacSet 1 2.5 true)]
    let later := (Board.new {}).afterAll requests
    let persisted := (Board.new {}).afterAll [.nets (.connect 1 2 true), .nets (.saveSlot 0),
      .analog (.dacSet 1 9.5 true), .analog (.dacSet 1 2.5 true)]
    later.nets.saved.links = [⟨1, 2⟩] ∧ later.nets.saved ≠ later.nets.live ∧
      later.nets.slots ≠ persisted.nets.slots ∧ later.nets.saved = persisted.nets.saved ∧
      later.analog.dacSaved = persisted.analog.dacSaved := by
  intro requests later persisted
  have hload (slot : UInt8) : .nets (.loadSlot slot) ∉ requests := by simp [requests]
  exact ⟨by decide +kernel, by decide +kernel, by decide +kernel,
    saved_ignores_transient (Board.new {}) hload⟩

end BenchConsole.Board
