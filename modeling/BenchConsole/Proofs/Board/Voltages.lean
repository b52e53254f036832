import BenchConsole.LogLevel
import BenchConsole.Proofs.Board.Isolation
import BenchConsole.Proofs.Number.Comparison
import BenchConsole.Proofs.Settings

/-!
# Voltages of the output converter

An output channel holds the voltage that it was set to last, and what it is set to is within the
limits of the board (`OutputsRecorded.afterAll`). Nothing says so of the voltage that it starts
with: all channels of a board that is set up are at zero, and settings are valid with limits that do
not allow zero, or that allow no voltage at all. So the voltage of a channel is within the limits if
and only if zero is, or the channel has been set (`dacGet_allowed_iff`).

Settings whose limits leave no range are not valid, but limits that cannot be compared are not
noticed. So with valid settings a channel can be set to either limit of the board as long as both
are numbers, and to nothing at all if one is not (`dacSet_limits_of_valid`).
-/

namespace BenchConsole.Board

variable {limits : Limits} {channel : UInt8} {volts : Float} {start analog : Analog}
  {past : List Request} {request : Request} {board : Board}

/-- The voltages that the converter may be set to. -/
def Limits.Allows (limits : Limits) (volts : Float) : Prop :=
  limits.dacMinVolts ≤ volts ∧ volts ≤ limits.dacMaxVolts

instance (limits : Limits) (volts : Float) : Decidable (limits.Allows volts) :=
  inferInstanceAs (Decidable (_ ∧ _))

/-! ## Voltages by history -/

/-- The voltage that a history, newest request first, set an output channel to last. -/
def lastSet? (channel : UInt8) : List Request → Option Float
  | [] => none
  | .analog (.dacSet other volts _) :: past =>
    if other = channel then some volts else lastSet? channel past
  | _ :: past => lastSet? channel past

theorem isSome_lastSet?_iff : (lastSet? channel past).isSome ↔
    ∃ volts persist, Request.analog (.dacSet channel volts persist) ∈ past := by
  fun_induction lastSet? channel past with
  | case1 => simp
  | case2 volts persist past =>
    exact iff_of_true rfl ⟨volts, persist, List.mem_cons_self⟩
  | case3 other volts persist past hne ih => simp [ih, Ne.symm hne]
  | case4 request past hnot ih =>
    have hne (volts : Float) (persist : Bool) : .analog (.dacSet channel volts persist) ≠ request :=
      fun heq => hnot channel volts persist heq.symm
    simp [ih, hne]

/-- The history accounts for the output channels, and the limits allow every voltage in it. -/
structure OutputsRecorded (limits : Limits) (start : Analog) (past : List Request)
    (analog : Analog) : Prop where
  output : ∀ channel, analog.output channel = (lastSet? channel past).getD (start.output channel)
  allowed : ∀ channel, ∀ volts ∈ lastSet? channel past, limits.Allows volts

theorem Analog.output_setOutput (h : channel.toNat < analog.dac.size) (volts : Float)
    (persist : Bool) (other : UInt8) : (analog.setOutput channel volts persist).output other =
      if channel = other then volts else analog.output other := by
  simp only [output, setOutput, Array.getElem?_setIfInBounds, UInt8.toNat_inj, if_pos h]
  split <;> rfl

namespace OutputsRecorded

theorem refl (limits : Limits) (start : Analog) : OutputsRecorded limits start [] start :=
  ⟨fun _ => rfl, nofun⟩

theorem of_peripheral_ne (h : OutputsRecorded limits start past analog)
    (hp : request.peripheral ≠ .analog) :
    OutputsRecorded limits start (request :: past) analog := by
  cases request with
  | analog r => exact absurd rfl hp
  | _ => exact ⟨h.output, h.allowed⟩

theorem yields_handle (h : OutputsRecorded limits start past analog)
    (hanalog : analog.IsSound limits) (r : Analog.Request) :
    Yields (OutputsRecorded limits start (.analog r :: past)) (analog.handle limits r) := by
  cases r with
  | dacSet channel volts persist =>
    refine .bind fun _ hi => .ite (fun hallowed => .ok _ ?_) fun _ => .error _
    have hplace : channel.toNat < analog.dac.size := hanalog.dac ▸ requireIndex_eq_ok_iff.mp hi
    constructor
    · intro other
      rw [Analog.output_setOutput hplace, lastSet?]
      split
      · rfl
      · exact h.output other
    · intro other
      rw [lastSet?]
      split
      · rintro _ ⟨⟩
        exact hallowed
      · exact h.allowed other
  | _ => exact .bind fun _ _ => .ok _ ⟨h.output, h.allowed⟩

theorem afterAll (h : board.IsSound) (requests : List Request) :
    OutputsRecorded board.limits board.analog (board.accepted requests).reverse
      (board.afterAll requests).analog := by
  refine part_history_induction (p := .analog) (P := OutputsRecorded board.limits board.analog) h
    (refl _ _) ?_ ?_ requests
  · intro past request analog hp hpast
    exact hpast.of_peripheral_ne hp
  · intro past before request hbefore hlimits hp hpast
    cases request with
    | analog r =>
      rw [Board.handle, hlimits]
      exact (hpast.yields_handle (hlimits ▸ hbefore.analog) r).refusing.replied fun _ hanalog => hanalog
    | _ => cases hp

end OutputsRecorded

/-! ## Voltages of boards as they are set up -/

theorem SetUp.output_eq (h : board.SetUp) (channel : UInt8) :
    board.analog.output channel = 0.0 := by
  induction h with
  | new limits =>
    simp only [Board.new, Analog.new, Analog.output, Array.getElem?_replicate]
    split <;> rfl
  | withReading channel volts _ ih => exact ih
  | withCurrent sensor milliamps _ ih => exact ih

theorem handle_dacGet (h : channel.toNat < board.limits.dacChannels.toNat) :
    simulated.handle (.analog (.dacGet channel)) board =
      (.ok (.volts (board.analog.output channel)), board) := by
  rw [simulated_handle, Board.handle, Analog.handle, requireIndex_eq_ok_iff.mpr h]
  rfl

/-- After any requests, the voltage of an output channel is within the limits of the board if and
only if zero is, or the channel has been set. -/
theorem dacGet_allowed_iff (h : board.SetUp)
    (hchannel : channel.toNat < board.limits.dacChannels.toNat) (requests : List Request) :
    let later := board.afterAll requests
    ∃ volts, simulated.handle (.analog (.dacGet channel)) later = (.ok (.volts volts), later) ∧
      (board.limits.Allows volts ↔ board.limits.Allows 0.0 ∨
        ∃ value persist, .analog (.dacSet channel value persist) ∈ board.accepted requests) := by
  intro later
  have hlimits : later.limits = board.limits := limits_afterAll board requests
  obtain ⟨houtput, hallowed⟩ := OutputsRecorded.afterAll h.isSound requests
  refine ⟨_, handle_dacGet (hlimits ▸ hchannel), ?_⟩
  have hset : (lastSet? channel (board.accepted requests).reverse).isSome ↔
      ∃ value persist, .analog (.dacSet channel value persist) ∈ board.accepted requests := by
    simp only [isSome_lastSet?_iff, List.mem_reverse]
  rw [houtput channel, h.output_eq, ← hset]
  cases hlast : lastSet? channel (board.accepted requests).reverse with
  | none => exact (or_iff_left nofun).symm
  | some volts => exact iff_of_true (hallowed channel volts hlast) (.inr rfl)

/-- A channel that is not allowed at zero, after a voltage that is set and one that is refused. -/
theorem dacGet_allowed_iff_aboveZero :
    let board := Board.new { dacMinVolts := 1.0, dacMaxVolts := 5.0 }
    let requests : List Request :=
      [.analog (.dacSet 2 2.5 false), .nets (.loadSlot 0), .analog (.dacSet 2 6.0 true)]
    ∃ volts, (simulated.handle (.analog (.dacGet 2)) (board.afterAll requests)).1 =
      .ok (.volts volts) ∧ board.limits.Allows volts ∧ ¬board.limits.Allows 0.0 := by
  intro board requests
  have hboard : board.SetUp := .new _
  have hchannel : (2 : UInt8).toNat < board.limits.dacChannels.toNat := by decide
  have hset : .analog (.dacSet 2 2.5 false) ∈ board.accepted requests := by decide +kernel
  obtain ⟨volts, hget, hallowed⟩ := dacGet_allowed_iff hboard hchannel requests
  exact ⟨volts, congrArg Prod.fst hget, hallowed.mpr (.inr ⟨2.5, false, hset⟩), by decide +kernel⟩

/-- Settings are valid with limits that do not allow zero. The channels of their board start at zero
even so, a voltage that the board refuses to set. -/
theorem not_forall_dacGet_allowed : ¬∀ s : Settings, s.validate LogLevel.isLevel = .ok () →
    ∀ board : Board, board.SetUp → board.limits = s.board → ∀ channel : UInt8,
    channel.toNat < s.board.dacChannels.toNat → ∀ requests volts,
    (simulated.handle (.analog (.dacGet channel)) (board.afterAll requests)).1 =
      .ok (.volts volts) → s.board.Allows volts := by
  intro h
  let s : Settings := { board := { dacMinVolts := 1.0, dacMaxVolts := 5.0 } }
  have hvalid : s.validate LogLevel.isLevel = .ok () := by decide +kernel
  have hzero : s.board.Allows 0.0 := h s hvalid (.new s.board) (.new _) rfl 0 (by decide) [] 0.0 rfl
  exact absurd hzero (by decide +kernel)

/-! ## Voltages at the limits -/

/-- Whether both limits of the converter are numbers, finite or infinite. -/
def Limits.AreNumbers (limits : Limits) : Prop :=
  limits.dacMinVolts.isNaN = false ∧ limits.dacMaxVolts.isNaN = false

theorem Limits.Allows.areNumbers (h : limits.Allows volts) : limits.AreNumbers :=
  ⟨(Binary64.isNaN_eq_false_of_le h.1).1, (Binary64.isNaN_eq_false_of_le h.2).2⟩

/-- Limits that are numbers and leave a range allow the two ends of the range. -/
theorem Limits.AreNumbers.allows (h : limits.AreNumbers)
    (hrange : ¬limits.dacMaxVolts ≤ limits.dacMinVolts)
    (hvolts : volts = limits.dacMinVolts ∨ volts = limits.dacMaxVolts) : limits.Allows volts := by
  obtain ⟨hmin, hmax⟩ := h
  have hle : limits.dacMinVolts ≤ limits.dacMaxVolts :=
    (Binary64.le_or_le hmin hmax).resolve_right hrange
  rcases hvolts with rfl | rfl
  · exact ⟨or_self_iff.mp (Binary64.le_or_le hmin hmin), hle⟩
  · exact ⟨hle, or_self_iff.mp (Binary64.le_or_le hmax hmax)⟩

theorem handle_dacSet (h : channel.toNat < board.limits.dacChannels.toNat) (volts : Float)
    (persist : Bool) :
    simulated.handle (.analog (.dacSet channel volts persist)) board =
      if board.limits.Allows volts then
        (.ok .done, { board with analog := board.analog.setOutput channel volts persist })
      else
        (.error (.voltageOutOfRange volts board.limits.dacMinVolts board.limits.dacMaxVolts),
          board) := by
  rw [simulated_handle, Board.handle, Analog.handle, requireIndex_eq_ok_iff.mpr h]
  change Prod.map _ _ (settle board (replied _
    (refusing (if board.limits.Allows volts then _ else _)))) = _
  split <;> rfl

/-- A channel is at the voltage that it was just set to. -/
theorem handle_dacGet_setOutput (h : board.IsSound)
    (hchannel : channel.toNat < board.limits.dacChannels.toNat) (volts : Float) (persist : Bool) :
    let later : Board := { board with analog := board.analog.setOutput channel volts persist }
    simulated.handle (.analog (.dacGet channel)) later = (.ok (.volts volts), later) := by
  intro later
  have hplace : channel.toNat < board.analog.dac.size := h.analog.dac ▸ hchannel
  have hlater : channel.toNat < later.limits.dacChannels.toNat := hchannel
  rw [handle_dacGet hlater, Analog.output_setOutput hplace, if_pos rfl]

/-- With valid settings an output channel can be set to either limit of the board, whatever was
requested before, and is then at that voltage, as long as both limits are numbers. If one is not,
the channel cannot be set to any voltage. -/
theorem dacSet_limits_of_valid {s : Settings} {isLevel : String → Bool}
    (hvalid : s.validate isLevel = .ok ()) (hboard : board.SetUp) (hlimits : board.limits = s.board)
    (hchannel : channel.toNat < s.board.dacChannels.toNat) (requests : List Request)
    (persist : Bool) :
    let later := board.afterAll requests
    let set (volts : Float) := simulated.handle (.analog (.dacSet channel volts persist)) later
    (s.board.AreNumbers → ∀ volts, volts = s.board.dacMinVolts ∨ volts = s.board.dacMaxVolts →
      (set volts).1 = .ok .done ∧
        (simulated.handle (.analog (.dacGet channel)) (set volts).2).1 = .ok (.volts volts)) ∧
    (¬s.board.AreNumbers → ∀ volts, set volts =
      (.error (.voltageOutOfRange volts s.board.dacMinVolts s.board.dacMaxVolts), later)) := by
  intro later set
  have hrange := (Settings.validate_eq_ok_iff.mp hvalid).dacRange
  obtain ⟨hsound, hlater⟩ : later.IsSound ∧ later.limits = board.limits :=
    hboard.isSound.afterAll requests
  rw [← hlimits, ← hlater] at hchannel hrange ⊢
  have hset (volts : Float) : set volts = _ := handle_dacSet hchannel volts persist
  constructor
  · intro hnumbers volts hvolts
    rw [hset, if_pos (hnumbers.allows hrange hvolts)]
    exact ⟨rfl, congrArg Prod.fst (handle_dacGet_setOutput hsound hchannel volts persist)⟩
  · intro hnumbers volts
    rw [hset, if_neg fun hallowed => hnumbers hallowed.areNumbers]

/-- A range without an upper end. -/
theorem dacSet_limits_of_valid_unbounded :
    let s : Settings := { board := { dacMaxVolts := 1.0 / 0.0 } }
    let board := (Board.new s.board).withReading 3 1.5
    let later := board.afterAll [.analog (.dacSet 3 100.0 true), .nets (.clear true)]
    let set := simulated.handle (.analog (.dacSet 3 (1.0 / 0.0) false)) later
    s.validate LogLevel.isLevel = .ok () ∧ s.board.AreNumbers ∧ set.1 = .ok .done ∧
      (simulated.handle (.analog (.dacGet 3)) set.2).1 = .ok (.volts (1.0 / 0.0)) := by
  intro s board later set
  have hvalid : s.validate LogLevel.isLevel = .ok () := by decide +kernel
  have hnumbers : s.board.AreNumbers := ⟨by decide +kernel, by decide +kernel⟩
  have hboard : board.SetUp := .withReading 3 1.5 (.new s.board)
  have hchannel : (3 : UInt8).toNat < s.board.dacChannels.toNat := by decide
  obtain ⟨hlimits, -⟩ := dacSet_limits_of_valid hvalid hboard rfl hchannel
    [.analog (.dacSet 3 100.0 true), .nets (.clear true)] false
  exact ⟨hvalid, hnumbers, hlimits hnumbers _ (.inr rfl)⟩

/-- Settings are valid with a limit that is not a number. Their board cannot be set to the other
limit even so. -/
theorem not_forall_dacSet_limits : ¬∀ s : Settings, s.validate LogLevel.isLevel = .ok () →
    ∀ board : Board, board.SetUp → board.limits = s.board → ∀ channel : UInt8,
    channel.toNat < s.board.dacChannels.toNat → ∀ requests volts persist,
    volts = s.board.dacMinVolts ∨ volts = s.board.dacMaxVolts →
    (simulated.handle (.analog (.dacSet channel volts persist)) (board.afterAll requests)).1 =
      .ok .done := by
  intro h
  let s : Settings := { board := { dacMinVolts := 0.0 / 0.0 } }
  have hvalid : s.validate LogLevel.isLevel = .ok () := by decide +kernel
  have hset : (simulated.handle (.analog (.dacSet 0 8.0 false)) (.new s.board)).1 = .ok .done :=
    h s hvalid (.new s.board) (.new _) rfl 0 (by decide) [] 8.0 false (.inr rfl)
  have hrefused : (simulated.handle (.analog (.dacSet 0 8.0 false)) (.new s.board)).1 =
      .error (.voltageOutOfRange 8.0 (0.0 / 0.0) 8.0) := by decide +kernel
  cases hrefused.symm.trans hset

end BenchConsole.Board
