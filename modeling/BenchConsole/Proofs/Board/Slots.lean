import BenchConsole.Proofs.Board.Isolation

/-!
# What slots keep

Only saving to a slot and clearing it change what it holds (`Nets.yields_stored`), so a run without
either gives back what was saved before it: `loadSlot_restores_saveSlot`.
-/

namespace BenchConsole.Board

variable {limits : Limits} {nets : Nets} {board : Board} {slot other : UInt8}

/-! ## One slot -/

namespace Nets

theorem stored_store_self (h : slot.toNat < nets.slots.size) (content : Option Netlist) :
    (nets.store slot content).stored slot = content.getD {} := by
  simp only [store, stored, Array.getElem?_setIfInBounds_self_of_lt h, Option.join_some]

theorem stored_store_of_ne (h : other ≠ slot) (content : Option Netlist) :
    (nets.store other content).stored slot = nets.stored slot := by
  have hne : other.toNat ≠ slot.toNat := mt UInt8.toNat_inj.mp h
  simp only [store, stored, Array.getElem?_setIfInBounds_ne hne]

theorem yields_stored {r : Request} (hsave : r ≠ .saveSlot slot) (hclear : r ≠ .clearSlot slot) :
    Yields (·.stored slot = nets.stored slot) (nets.handle limits r) := by
  cases r with
  | connect a b persist =>
    exact .bind fun _ _ => .bind fun _ _ => .ite (fun _ => .error _) fun _ => .ok _ rfl
  | disconnect a b persist | connected a b => exact .bind fun _ _ => .bind fun _ _ => .ok _ rfl
  | clear persist | list | currentSlot => exact .ok _ rfl
  | loadSlot other => exact .bind fun _ _ => .ok _ rfl
  | saveSlot other =>
    have hne : other ≠ slot := fun h => hsave (congrArg _ h)
    exact .bind fun _ _ => .ok _ (stored_store_of_ne hne _)
  | clearSlot other =>
    have hne : other ≠ slot := fun h => hclear (congrArg _ h)
    exact .bind fun _ _ => .ok _ (stored_store_of_ne hne _)

end Nets

/-! ## Runs that leave a slot alone -/

theorem nets_of_peripheral_ne {request : Request} (h : request.peripheral ≠ .nets) (board : Board) :
    (simulated.handle request board).2.nets = board.nets :=
  isolated_simulated.part_of_ne h board

theorem stored_step {request : Request} (hsave : request ≠ .nets (.saveSlot slot))
    (hclear : request ≠ .nets (.clearSlot slot)) (board : Board) :
    (simulated.handle request board).2.nets.stored slot = board.nets.stored slot := by
  cases request with
  | nets r =>
    have hr : Yields (·.stored slot = board.nets.stored slot) (board.nets.handle board.limits r) :=
      Nets.yields_stored (mt (congrArg _) hsave) (mt (congrArg _) hclear)
    rw [simulated_handle, Board.handle]
    exact (hr.refusing.replied (Q := (·.nets.stored slot = _)) fun _ h => h).settle rfl
  | _ => exact congrArg (Nets.stored · slot) (nets_of_peripheral_ne (by rintro ⟨⟩) board)

theorem stored_afterAll {requests : List Request} (hsave : .nets (.saveSlot slot) ∉ requests)
    (hclear : .nets (.clearSlot slot) ∉ requests) :
    (board.afterAll requests).nets.stored slot = board.nets.stored slot := by
  induction requests generalizing board with
  | nil => rfl
  | cons request requests ih =>
    obtain ⟨hsave, hsaves⟩ := List.ne_and_not_mem_of_not_mem_cons hsave
    obtain ⟨hclear, hclears⟩ := List.ne_and_not_mem_of_not_mem_cons hclear
    rw [afterAll_cons, ih hsaves hclears, stored_step hsave.symm hclear.symm]

/-! ## Saving and loading -/

theorem handle_saveSlot (h : slot.toNat < board.limits.slots.toNat) :
    simulated.handle (.nets (.saveSlot slot)) board = (.ok .done, { board with
      nets := { board.nets.store slot (some board.nets.live) with current := slot } }) := by
  rw [simulated_handle, Board.handle, Nets.handle, requireIndex_eq_ok_iff.mpr h]
  rfl

theorem handle_loadSlot (h : slot.toNat < board.limits.slots.toNat) :
    simulated.handle (.nets (.loadSlot slot)) board = (.ok .done, { board with
      nets := { board.nets with
        live := board.nets.stored slot, saved := board.nets.stored slot, current := slot } }) := by
  rw [simulated_handle, Board.handle, Nets.handle, requireIndex_eq_ok_iff.mpr h]
  rfl

theorem handle_currentSlot (board : Board) : simulated.handle (.nets .currentSlot) board =
    (.ok (.int (Int64.ofNat board.nets.current.toNat)), board) := rfl

/-- Loading a slot of a board brings back the connections that were live when the slot was saved,
whatever was asked in between, other than to save to it or to clear it. They are live and saved
from then on, the slot is the current one, and nothing else changes. -/
theorem loadSlot_restores_saveSlot (board : Board) {slot : UInt8}
    (hslot : slot.toNat < board.limits.slots.toNat) (hplace : slot.toNat < board.nets.slots.size)
    {requests : List Request} (hsave : .nets (.saveSlot slot) ∉ requests)
    (hclear : .nets (.clearSlot slot) ∉ requests) :
    let later := board.afterAll (.nets (.saveSlot slot) :: requests)
    let loaded := { later with
      nets := { later.nets with
        live := board.nets.live, saved := board.nets.live, current := slot } }
    (simulated.handle (.nets (.saveSlot slot)) board).1 = .ok .done ∧
      simulated.handle (.nets (.loadSlot slot)) later = (.ok .done, loaded) ∧
      simulated.handle (.nets .currentSlot) loaded =
        (.ok (.int (Int64.ofNat slot.toNat)), loaded) := by
  intro later loaded
  have hsaved := handle_saveSlot hslot
  have hstored : later.nets.stored slot = board.nets.live := by
    change (board.afterAll (.nets (.saveSlot slot) :: requests)).nets.stored slot = _
    rw [afterAll_cons, stored_afterAll hsave hclear, hsaved]
    exact Nets.stored_store_self hplace _
  have hlimits : later.limits = board.limits := limits_afterAll board _
  refine ⟨congrArg Prod.fst hsaved, ?_, handle_currentSlot loaded⟩
  rw [handle_loadSlot (hlimits ▸ hslot), hstored]

/-- In between, connections are changed, cleared, and moved through another slot. -/
theorem loadSlot_restores_saveSlot_throughOther :
    let board := (Board.new {}).afterAll [.nets (.connect 2 1 true), .nets (.connect 7 4 false)]
    let later := board.afterAll [.nets (.saveSlot 3), .nets (.disconnect 1 2 false),
      .nets (.saveSlot 5), .nets (.loadSlot 3), .nets (.clear true), .nets (.loadSlot 5)]
    later.nets.live.links = [⟨4, 7⟩] ∧ board.nets.live.links = [⟨1, 2⟩, ⟨4, 7⟩] ∧
      simulated.handle (.nets (.loadSlot 3)) later = (.ok .done, { later with
        nets := { later.nets with
          live := board.nets.live, saved := board.nets.live, current := 3 } }) := by
  intro board later
  obtain ⟨-, hload, -⟩ := @loadSlot_restores_saveSlot board 3 (by decide) (by decide)
    [.nets (.disconnect 1 2 false), .nets (.saveSlot 5), .nets (.loadSlot 3), .nets (.clear true),
      .nets (.loadSlot 5)] (by decide) (by decide)
  exact ⟨by decide, by decide, hload⟩

end BenchConsole.Board
