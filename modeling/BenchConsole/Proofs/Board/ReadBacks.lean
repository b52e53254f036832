import BenchConsole.Proofs.Board.Voltages

/-!
# Read-backs

What a pin or a channel reads as is a matter of its own history. A pin holds what it was told last
of each kind: its level, its direction and its pull (`pins_afterAll`). An output channel holds the
voltage that it was set to last; the history of a channel that the board lacks has none
(`lastSet?_eq_none`). Which readings are pinned is settled when a board is set up
(`lookup_fitted`), and no request changes them (`pinned_afterAll`).

`readings_follow_history` has every read-back in these terms.
-/

namespace BenchConsole.Board

variable {α β : Type} {limits : Limits} {board : Board} {request : Request} {index channel : UInt8}

/-- What the latest item that tells something tells. -/
def latest? (tells : α → Option β) (items : List α) : Option β :=
  items.reverse.findSome? tells

theorem latest?_concat (tells : α → Option β) (items : List α) (item : α) :
    latest? tells (items ++ [item]) = (tells item).or (latest? tells items) := by
  rw [latest?, List.reverse_concat, List.findSome?_cons]
  cases tells item <;> rfl

theorem afterAll_concat (board : Board) (requests : List Request) (request : Request) :
    board.afterAll (requests ++ [request]) =
      (simulated.handle request (board.afterAll requests)).2 := by
  simp only [afterAll, List.foldl_append, List.foldl_cons, List.foldl_nil]

/-! ## Pins -/

/-- The level that a request gives a pin to drive. -/
def Request.level? (index : UInt8) : Request → Option Bool
  | .gpio (.set other high) => if other = index then some high else none
  | _ => none

/-- The direction that a request gives a pin. A pin whose level is set becomes an output. -/
def Request.direction? (index : UInt8) : Request → Option Direction
  | .gpio (.set other _) => if other = index then some .output else none
  | .gpio (.direction other direction) => if other = index then some direction else none
  | _ => none

/-- The pull that a request gives a pin. -/
def Request.pull? (index : UInt8) : Request → Option Pull
  | .gpio (.pulls other pull) => if other = index then some pull else none
  | _ => none

/-- A pin after requests, by the latest of each kind: a low input without a pull if it has none. -/
def pinAfter (index : UInt8) (requests : List Request) : Pin where
  high := (latest? (·.level? index) requests).getD false
  direction := (latest? (·.direction? index) requests).getD .input
  pull := (latest? (·.pull? index) requests).getD .none

/-- A pin after one more request. -/
def Pin.told (index : UInt8) (pin : Pin) (request : Request) : Pin where
  high := (request.level? index).getD pin.high
  direction := (request.direction? index).getD pin.direction
  pull := (request.pull? index).getD pin.pull

theorem level_pinAfter (index : UInt8) (requests : List Request) :
    (pinAfter index requests).level =
      if latest? (·.direction? index) requests = some .output then
        (latest? (·.level? index) requests).getD false
      else latest? (·.pull? index) requests = some .up := by
  have hpull : ((latest? (·.pull? index) requests).getD .none == Pull.up) =
      decide (latest? (·.pull? index) requests = some .up) := by
    cases latest? (·.pull? index) requests with
    | none => rfl
    | some pull => cases pull <;> rfl
  rw [Pin.level, pinAfter, ← hpull]
  cases latest? (·.direction? index) requests with
  | none => rfl
  | some direction => cases direction <;> rfl

theorem pinAfter_concat (index : UInt8) (requests : List Request) (request : Request) :
    pinAfter index (requests ++ [request]) = (pinAfter index requests).told index request := by
  simp only [pinAfter, Pin.told, latest?_concat, Option.getD_or]

/-- A pin that is changed, if the board has it. -/
theorem Gpio.pins_modify (gpio : Gpio) (other index : UInt8) (change : Pin → Pin) :
    (settle gpio (gpio.modify other change)).2.pins[index.toNat]? =
      gpio.pins[index.toNat]?.map (if other = index then change else id) := by
  cases hpin : gpio.pins[other.toNat]? with
  | none =>
    have hrefused : (settle gpio (gpio.modify other change)).2 = gpio := by
      simp only [modify, pin, hpin]
      rfl
    rw [hrefused]
    split
    · next heq => rw [← heq, hpin, Option.map_none]
    · exact Option.map_id_apply.symm
  | some old =>
    have hdone : (settle gpio (gpio.modify other change)).2.pins =
        gpio.pins.setIfInBounds other.toNat (change old) := by
      simp only [modify, pin, hpin]
      rfl
    have hplace : other.toNat < gpio.pins.size := (Array.getElem?_eq_some_iff.mp hpin).1
    rw [hdone]
    split
    · next heq =>
      rw [← heq, Array.getElem?_setIfInBounds_self_of_lt hplace, hpin, Option.map_some]
    · next hne =>
      rw [Array.getElem?_setIfInBounds_ne (mt UInt8.toNat_inj.mp hne), Option.map_id_apply]

theorem Gpio.pins_handle (gpio : Gpio) (r : Gpio.Request) (index : UInt8) :
    (settle gpio (gpio.handle r)).2.pins[index.toNat]? =
      gpio.pins[index.toNat]?.map (·.told index (.gpio r)) := by
  cases r with
  | get other =>
    have hsame : (settle gpio (gpio.handle (.get other))).2 = gpio :=
      Yields.settle (P := (· = gpio)) (.bind fun _ _ => .ok _ rfl) rfl
    rw [hsame]
    exact Option.map_id_apply.symm
  | set other high | direction other direction | pulls other pull =>
    refine (gpio.pins_modify other index _).trans (congrArg (Option.map · _) (funext fun pin => ?_))
    simp only [Pin.told, Request.level?, Request.direction?, Request.pull?]
    split <;> rfl

theorem pins_handle (board : Board) (request : Request) (index : UInt8) :
    (simulated.handle request board).2.gpio.pins[index.toNat]? =
      board.gpio.pins[index.toNat]?.map (·.told index request) := by
  rw [simulated_snd, handle_eq, settle_replied]
  cases request with
  | gpio r =>
    change (settle board.gpio (refusing (board.gpio.handle r))).2.pins[index.toNat]? = _
    rw [settle_refusing]
    exact board.gpio.pins_handle r index
  | _ => exact Option.map_id_apply.symm

theorem pins_afterAll (hboard : board.gpio = Gpio.new limits.gpioPins)
    (hindex : index.toNat < limits.gpioPins.toNat) (requests : List Request) :
    (board.afterAll requests).gpio.pins[index.toNat]? = some (pinAfter index requests) := by
  induction requests using List.reverseRecOn with
  | nil =>
    rw [afterAll, List.foldl_nil, hboard, Gpio.new, Array.getElem?_replicate, if_pos hindex]
    rfl
  | append_singleton requests request ih =>
    rw [afterAll_concat, pins_handle, ih, pinAfter_concat, Option.map_some]

/-! ## Fixtures -/

/-- What is fixed about a board before it is asked anything. -/
inductive Fixture where
  | reading (channel : UInt8) (volts : Float)
  | current (sensor : UInt8) (milliamps : Float)

namespace Fixture

def fit (board : Board) : Fixture → Board
  | reading channel volts => board.withReading channel volts
  | current sensor milliamps => board.withCurrent sensor milliamps

/-- The reading that is pinned to a channel. -/
def reading? (channel : UInt8) : Fixture → Option Float
  | reading other volts => if other = channel then some volts else none
  | current _ _ => none

end Fixture

/-- A new board with its fixtures, one after the other. -/
def fitted (limits : Limits) (fixtures : List Fixture) : Board :=
  fixtures.foldl Fixture.fit (.new limits)

theorem fitted_concat (limits : Limits) (fixtures : List Fixture) (fixture : Fixture) :
    fitted limits (fixtures ++ [fixture]) = fixture.fit (fitted limits fixtures) := by
  simp only [fitted, List.foldl_append, List.foldl_cons, List.foldl_nil]

theorem setUp_fitted (limits : Limits) (fixtures : List Fixture) :
    (fitted limits fixtures).SetUp := by
  induction fixtures using List.reverseRecOn with
  | nil => exact .new limits
  | append_singleton fixtures fixture ih =>
    rw [fitted_concat]
    cases fixture with
    | reading channel volts => exact ih.withReading channel volts
    | current sensor milliamps => exact ih.withCurrent sensor milliamps

/-- Fixtures are on the analog side only. -/
theorem fitted_limits_gpio (limits : Limits) (fixtures : List Fixture) :
    (fitted limits fixtures).limits = limits ∧
      (fitted limits fixtures).gpio = Gpio.new limits.gpioPins := by
  induction fixtures using List.reverseRecOn with
  | nil => exact ⟨rfl, rfl⟩
  | append_singleton fixtures fixture ih =>
    rw [fitted_concat]
    cases fixture with
    | reading | current => exact ih

theorem lookup_fitted (limits : Limits) (fixtures : List Fixture) (channel : UInt8) :
    (fitted limits fixtures).analog.pinned.lookup channel =
      latest? (·.reading? channel) fixtures := by
  induction fixtures using List.reverseRecOn with
  | nil => rfl
  | append_singleton fixtures fixture ih =>
    rw [fitted_concat, latest?_concat, ← ih]
    cases fixture with
    | current sensor milliamps => rfl
    | reading other volts =>
      change List.lookup channel ((other, volts) :: (fitted limits fixtures).analog.pinned) = _
      rw [Fixture.reading?]
      split
      · next heq => rw [heq, List.lookup_cons_self, Option.some_or]
      · next hne => rw [List.lookup_cons, beq_false_of_ne (Ne.symm hne), Option.none_or]

/-! ## Analog histories -/

theorem Analog.yields_pinned (analog : Analog) (r : Analog.Request) :
    Yields (·.pinned = analog.pinned) (analog.handle limits r) := by
  cases r with
  | dacSet channel volts persist =>
    exact .bind fun _ _ => .ite (fun _ => .ok _ rfl) fun _ => .error _
  | _ => exact .bind fun _ _ => .ok _ rfl

theorem pinned_handle (board : Board) (request : Request) :
    (simulated.handle request board).2.analog.pinned = board.analog.pinned := by
  rw [simulated_snd, handle_eq, settle_replied]
  cases request with
  | analog r => exact (board.analog.yields_pinned r).refusing.settle rfl
  | _ => rfl

theorem pinned_afterAll (board : Board) (requests : List Request) :
    (board.afterAll requests).analog.pinned = board.analog.pinned := by
  induction requests using List.reverseRecOn with
  | nil => rfl
  | append_singleton requests request ih => rw [afterAll_concat, pinned_handle, ih]

/-- A channel that the board lacks is never set. -/
theorem lastSet?_eq_none (hboard : board.IsSound)
    (hchannel : ¬channel.toNat < board.limits.dacChannels.toNat) (requests : List Request) :
    lastSet? channel (board.accepted requests).reverse = none := by
  refine part_history_induction (p := .analog)
    (P := fun past _ => lastSet? channel past = none) hboard rfl ?_ ?_ requests
  · intro past request _ hp hpast
    cases request with
    | analog r => exact absurd rfl hp
    | _ => exact hpast
  · intro past before request _ hlimits hp hpast
    cases request with
    | analog r =>
      rw [Board.handle, hlimits]
      refine Yields.replied (P := fun _ => lastSet? channel (.analog r :: past) = none)
        (.refusing ?_) fun _ hnone => hnone
      cases r with
      | dacSet other volts persist =>
        refine .bind fun _ hi => .ite (fun _ => .ok _ ?_) fun _ => .error _
        have hne : other ≠ channel := fun heq => hchannel (heq ▸ requireIndex_eq_ok_iff.mp hi)
        rw [lastSet?, if_neg hne, hpast]
      | _ => exact .bind fun _ _ => .ok _ hpast
    | _ => cases hp

/-! ## Read-backs -/

theorem handle_adcGet (h : channel.toNat < board.limits.adcChannels.toNat) :
    simulated.handle (.analog (.adcGet channel)) board =
      (.ok (.volts (board.analog.input channel)), board) := by
  rw [simulated_handle, Board.handle, Analog.handle, requireIndex_eq_ok_iff.mpr h]
  rfl

theorem handle_sense {sensor : UInt8} (h : sensor.toNat < board.limits.currentSensors.toNat)
    (quantity : Quantity) : simulated.handle (.analog (.sense sensor quantity)) board =
      (.ok (board.analog.measure sensor quantity), board) := by
  rw [simulated_handle, Board.handle, Analog.handle, requireIndex_eq_ok_iff.mpr h]
  rfl

theorem handle_gpioGet {pin : Pin} (h : board.gpio.pins[index.toNat]? = some pin) :
    simulated.handle (.gpio (.get index)) board = (.ok (.level pin.level), board) := by
  rw [simulated_handle, Board.handle, Gpio.handle, Gpio.pin, h]
  rfl

/-- Channels, sensors and pins read as their own history has it, whatever else is asked of the
board. An output channel holds the voltage that it was set to last, or zero. An input channel reads
as what is pinned to it, or as the output channel, and the bus of a sensor is at the voltage of
the output channel; without such a channel that is zero. A pin that was made an output last, by its
direction or by a level, reads as its last level, and any other pin as its last pull. -/
theorem readings_follow_history (limits : Limits) (fixtures : List Fixture)
    (requests : List Request) :
    let later := (fitted limits fixtures).afterAll requests
    let history := ((fitted limits fixtures).accepted requests).reverse
    let volts (channel : UInt8) : Float := (lastSet? channel history).getD 0.0
    (∀ channel, channel.toNat < limits.dacChannels.toNat →
      simulated.handle (.analog (.dacGet channel)) later = (.ok (.volts (volts channel)), later)) ∧
    (∀ channel, limits.dacChannels.toNat ≤ channel.toNat → volts channel = 0.0) ∧
    (∀ channel, channel.toNat < limits.adcChannels.toNat →
      simulated.handle (.analog (.adcGet channel)) later =
        (.ok (.volts ((latest? (·.reading? channel) fixtures).getD (volts channel))), later)) ∧
    (∀ sensor, sensor.toNat < limits.currentSensors.toNat →
      simulated.handle (.analog (.sense sensor .busVoltage)) later =
        (.ok (.volts (volts sensor)), later)) ∧
    ∀ pin, pin.toNat < limits.gpioPins.toNat →
      simulated.handle (.gpio (.get pin)) later = (.ok (.level
        (if latest? (·.direction? pin) requests = some .output then
          (latest? (·.level? pin) requests).getD false
        else latest? (·.pull? pin) requests = some .up)), later) := by
  intro later history volts
  have hboard := setUp_fitted limits fixtures
  obtain ⟨hlimits, hgpio⟩ := fitted_limits_gpio limits fixtures
  have hlater : later.limits = limits := (limits_afterAll _ requests).trans hlimits
  have houtput (channel : UInt8) : later.analog.output channel = volts channel := by
    rw [(OutputsRecorded.afterAll hboard.isSound requests).output, hboard.output_eq]
  refine ⟨fun channel h => ?_, fun channel h => ?_, fun channel h => ?_, fun sensor h => ?_,
    fun pin h => ?_⟩
  · rw [handle_dacGet (hlater ▸ h), houtput]
  · have hlacks : ¬channel.toNat < (fitted limits fixtures).limits.dacChannels.toNat := by
      rw [hlimits]
      exact Nat.not_lt.mpr h
    exact congrArg (Option.getD · 0.0) (lastSet?_eq_none hboard.isSound hlacks requests)
  · rw [handle_adcGet (hlater ▸ h), Analog.input, houtput, pinned_afterAll, lookup_fitted]
  · rw [handle_sense (hlater ▸ h), Analog.measure, houtput]
  · rw [handle_gpioGet (pins_afterAll hgpio h requests), level_pinAfter]

/-- A reading that is pinned twice, a voltage that is refused, a channel without an output, and pins
that are told several things. -/
theorem readings_follow_history_mixed :
    let fixtures : List Fixture := [.reading 3 1.5, .current 0 20.0, .reading 3 2.5]
    let requests : List Request := [.gpio (.set 1 true), .analog (.dacSet 0 4.0 true),
      .gpio (.direction 1 .input), .gpio (.pulls 1 .up), .analog (.dacSet 0 99.0 true),
      .gpio (.direction 2 .output), .nets (.loadSlot 0), .gpio (.pulls 2 .up)]
    let later := (fitted {} fixtures).afterAll requests
    let reply (request : Request) := (simulated.handle request later).1
    reply (.analog (.dacGet 0)) = .ok (.volts 4.0) ∧
      reply (.analog (.adcGet 3)) = .ok (.volts 2.5) ∧
      reply (.analog (.adcGet 4)) = .ok (.volts 0.0) ∧
      reply (.analog (.sense 0 .busVoltage)) = .ok (.volts 4.0) ∧
      reply (.gpio (.get 1)) = .ok (.level true) ∧ reply (.gpio (.get 2)) = .ok (.level false) := by
  intro fixtures requests later reply
  obtain ⟨hdac, hlacks, hadc, hsense, hpin⟩ := readings_follow_history {} fixtures requests
  have hset : lastSet? 0 ((fitted {} fixtures).accepted requests).reverse = some 4.0 := by
    decide +kernel
  have hpinned : latest? (·.reading? 3) fixtures = some 2.5 := by decide +kernel
  have hlevels : (pinAfter 1 requests).level = true ∧ (pinAfter 2 requests).level = false := by
    decide
  rw [level_pinAfter, level_pinAfter] at hlevels
  refine ⟨?_, ?_, ?_, ?_, ?_, ?_⟩
  · simp only [reply, later, hdac 0 (by decide), hset, Option.getD_some]
  · simp only [reply, later, hadc 3 (by decide), hpinned, Option.getD_some]
  · simp only [reply, later, hadc 4 (by decide), hlacks 4 (by decide)]
    rfl
  · simp only [reply, later, hsense 0 (by decide), hset, Option.getD_some]
  · simp only [reply, later, hpin 1 (by decide), hlevels.1]
  · simp only [reply, later, hpin 2 (by decide), hlevels.2]

end BenchConsole.Board
