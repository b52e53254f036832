import BenchConsole.Proofs.Board.Runs

/-!
# Peripherals on their own

A request is addressed to one peripheral. That peripheral alone, with the limits of the board,
decides on the answer, and it alone is changed (`Isolated`). This holds of boards that answer with a
new board (`isolated_step`) and of boards that are changed in place, where it is a fact about every
read and every write on the way (`InPlace.isolated_step`); there it needs no sound board, and covers
requests that stop half way.

So a peripheral answers as if it had the board for itself: of a run, only the requests to it count
(`Isolated.exchanges_trace`). Two runs in which every peripheral is asked the same in the same order
then give the same answers (`Isolated.exchanges_eq`) and the same board (`Isolated.finish_eq`),
however the peripherals take turns.
-/

namespace BenchConsole.Board

variable {α β : Type}

/-! ## Parts of a board -/

inductive Peripheral where
  | gpio
  | nets
  | analog
  | config
  | target
  | probe
  | wheel
  | oled
  | displayMode
  | panel
  deriving DecidableEq

/-- What a peripheral holds. -/
def Peripheral.State : Peripheral → Type
  | gpio => Gpio
  | nets => Nets
  | analog => Analog
  | config => ConfigStore
  | target => Target
  | probe => Probe
  | wheel => Wheel
  | oled => Oled
  | displayMode => DisplayMode
  | panel => Panel

/-- The peripheral that a request is addressed to. -/
def Request.peripheral : Request → Peripheral
  | gpio _ => .gpio
  | nets _ => .nets
  | analog _ => .analog
  | config _ => .config
  | target _ => .target
  | probe _ => .probe
  | wheel _ => .wheel
  | oled _ => .oled
  | displayMode _ => .displayMode
  | panel _ => .panel

/-- What a peripheral of a board holds. -/
def part (board : Board) : (p : Peripheral) → p.State
  | .gpio => board.gpio
  | .nets => board.nets
  | .analog => board.analog
  | .config => board.config
  | .target => board.target
  | .probe => board.probe
  | .wheel => board.wheel
  | .oled => board.oled
  | .displayMode => board.displayMode
  | .panel => board.panel

/-- A board with something else in one peripheral. -/
def withPart (board : Board) : (p : Peripheral) → p.State → Board
  | .gpio, gpio => { board with gpio }
  | .nets, nets => { board with nets }
  | .analog, analog => { board with analog }
  | .config, config => { board with config }
  | .target, target => { board with target }
  | .probe, probe => { board with probe }
  | .wheel, wheel => { board with wheel }
  | .oled, oled => { board with oled }
  | .displayMode, displayMode => { board with displayMode }
  | .panel, panel => { board with panel }

variable {board other : Board} {p q : Peripheral}

@[simp] theorem part_withPart (board : Board) (state : p.State) :
    (board.withPart p state).part p = state := by
  cases p <;> rfl

theorem part_withPart_of_ne (board : Board) (state : p.State) (h : q ≠ p) :
    (board.withPart p state).part q = board.part q := by
  cases p <;> cases q <;> first | rfl | exact absurd rfl h

@[simp] theorem limits_withPart (board : Board) (state : p.State) :
    (board.withPart p state).limits = board.limits := by
  cases p <;> rfl

@[simp] theorem withPart_part (board : Board) (p : Peripheral) :
    board.withPart p (board.part p) = board := by
  cases p <;> rfl

@[simp] theorem withPart_withPart (board : Board) (first second : p.State) :
    (board.withPart p first).withPart p second = board.withPart p second := by
  cases p <;> rfl

/-- Every request is answered from the limits and one peripheral, and changes that one only. -/
def Isolated (step : Request → Board → α × Board) : Prop :=
  ∀ request : Request, ∃ own : Limits → request.peripheral.State → α × request.peripheral.State,
    ∀ board : Board, step request board =
      (own board.limits (board.part request.peripheral)).map id (board.withPart request.peripheral)

/-- What the peripheral of a request answers, from the limits of the board and its own state. -/
def Request.answer (limits : Limits) : (request : Request) → request.peripheral.State →
    Except Stop (Reply × request.peripheral.State)
  | gpio r, state => refusing (Gpio.handle state r)
  | nets r, state => refusing (Nets.handle limits state r)
  | analog r, state => refusing (Analog.handle limits state r)
  | config r, state => refusing (ConfigStore.handle state r)
  | target r, state => Target.handle state r
  | probe r, state => refusing (Probe.handle limits state r)
  | wheel r, state => refusing (Wheel.handle state r)
  | oled r, state => refusing (Oled.handle state r)
  | displayMode r, state => refusing (DisplayMode.handle state r)
  | panel r, state => refusing (Panel.handle state r)

theorem handle_eq (board : Board) (request : Request) : board.handle request =
    replied (board.withPart request.peripheral)
      (request.answer board.limits (board.part request.peripheral)) := by
  cases request <;> rfl

theorem settle_replied (board : Board) (outcome : Except Stop (Reply × p.State)) :
    settle board (replied (board.withPart p) outcome) =
      (settle (board.part p) outcome).map id (board.withPart p) := by
  cases outcome with
  | error stop => exact Prod.ext rfl (board.withPart_part p).symm
  | ok answered => rfl

theorem isolated_step : Isolated step := fun request =>
  ⟨fun limits state => settle state (request.answer limits state), fun board => by
    rw [step, handle_eq, settle_replied]⟩

theorem isolated_simulated : Isolated simulated.handle := by
  intro request
  obtain ⟨own, hown⟩ := isolated_step request
  refine ⟨fun limits state => (own limits state).map (·.mapError Stop.fault) id, fun board => ?_⟩
  rw [simulated_handle]
  exact congrArg (Prod.map (·.mapError Stop.fault) id) (hown board)

/-! ## Operations in place -/

namespace InPlace

/-- A request in place, with what it answers or why it stops, and the board that it leaves. -/
def step (request : Request) (board : Board) : Except Stop Reply × Board :=
  match perform request board with
  | .ok reply later => (.ok reply, later)
  | .error stop later => (.error stop, later)

/-- The result of an operation on one peripheral, put back into a board. -/
def putBack {σ : Type} (put : σ → Board) : EStateM.Result Stop σ α → EStateM.Result Stop Board α
  | .ok a state => .ok a (put state)
  | .error stop state => .error stop (put state)

/-- The result of a check that leaves the state as it was. -/
def checked {σ : Type} (state : σ) : Except Stop α → EStateM.Result Stop σ α
  | .ok a => .ok a state
  | .error stop => .error stop state

/-- Operations that read the limits and one peripheral only, and write to that one only. -/
def Confined (p : Peripheral) (x : InPlace α) : Prop :=
  ∃ own : Limits → p.State → EStateM.Result Stop p.State α,
    ∀ board, x board = putBack (board.withPart p) (own board.limits (board.part p))

variable {x y : InPlace α} {f : α → InPlace β}

theorem checked_eq_putBack (board : Board) (p : Peripheral) (outcome : Except Stop α) :
    checked board outcome = putBack (board.withPart p) (checked (board.part p) outcome) := by
  cases outcome <;> simp only [checked, putBack, withPart_part]

theorem Confined.bind (hx : Confined p x) (hf : ∀ a, Confined p (f a)) :
    Confined p (x >>= f) := by
  obtain ⟨first, hfirst⟩ := hx
  choose next hnext using hf
  refine ⟨fun limits state => match first limits state with
    | .ok a state => next a limits state
    | .error stop state => .error stop state, fun board => ?_⟩
  rw [bind_apply, hfirst board]
  dsimp only
  cases first board.limits (board.part p) with
  | ok a state =>
    have hput : (board.withPart p state).withPart p = board.withPart p :=
      funext (board.withPart_withPart state)
    simp only [putBack, hnext a (board.withPart p state), limits_withPart, part_withPart, hput]
  | error stop state => rfl

theorem Confined.ite {c : Prop} [Decidable c] (hx : Confined p x) (hy : Confined p y) :
    Confined p (if c then x else y) := by
  split
  · exact hx
  · exact hy

theorem confined_pure (a : α) : Confined p (pure a) :=
  ⟨fun _ state => .ok a state,
    fun board => congrArg (EStateM.Result.ok a) (board.withPart_part p).symm⟩

theorem confined_refuse (fault : Fault) : Confined p (refuse fault : InPlace α) :=
  ⟨fun _ state => .error (.refused fault) state,
    fun board => congrArg (EStateM.Result.error _) (board.withPart_part p).symm⟩

theorem confined_modify (p : Peripheral) (later : p.State → p.State) :
    Confined p (modify fun board => board.withPart p (later (board.part p))) :=
  ⟨fun _ state => .ok ⟨⟩ (later state), fun _ => rfl⟩

/-- What is asked of the limits and the peripheral may decide on how to go on. -/
theorem confined_read (p : Peripheral) (read : Limits → p.State → β) {f : β → InPlace α}
    (hf : ∀ b, Confined p (f b)) :
    Confined p (get >>= fun board => f (read board.limits (board.part p))) := by
  choose next hnext using hf
  exact ⟨fun limits state => next (read limits state) limits state, fun board => hnext _ board⟩

theorem confined_change (p : Peripheral) (later : p.State → p.State) :
    Confined p (change fun board => board.withPart p (later (board.part p))) :=
  (confined_modify p later).bind fun _ => confined_pure _

theorem confined_answer (p : Peripheral) (reply : p.State → Reply) :
    Confined p (answer fun board => reply (board.part p)) :=
  confined_read p (fun _ => reply) fun _ => confined_pure _

theorem confined_check (p : Peripheral) (test : Limits → p.State → Except Fault α) :
    Confined p (check fun board => test board.limits (board.part p)) := by
  refine ⟨fun limits state => checked state (refusing (test limits state)), fun board => ?_⟩
  rw [check_apply, ← checked_eq_putBack]
  cases test board.limits (board.part p) <;> rfl

theorem readEntry_of_none {array : Board → Array α} {index : UInt8}
    (h : (array board)[index.toNat]? = none) :
    readEntry array index board = .error .outOfBounds board := by
  rw [readEntry, bind_apply]
  dsimp only [get, getThe, MonadStateOf.get, EStateM.get]
  rw [h]
  rfl

theorem confined_readEntry (p : Peripheral) (array : p.State → Array α) (index : UInt8) :
    Confined p (readEntry (fun board => array (board.part p)) index) := by
  refine ⟨fun _ state => (array state)[index.toNat]?.elim (.error .outOfBounds state) (.ok · state),
    fun board => ?_⟩
  cases hentry : (array (board.part p))[index.toNat]? with
  | some a =>
    rw [readEntry_apply hentry]
    simp only [hentry, Option.elim_some, putBack, withPart_part]
  | none =>
    rw [readEntry_of_none hentry]
    simp only [hentry, Option.elim_none, putBack, withPart_part]

theorem writeEntry_of_not_lt {array : Board → Array α} {put : Board → Array α → Board}
    {index : UInt8} (h : ¬index.toNat < (array board).size) (a : α) :
    writeEntry array put index a board = .error .outOfBounds board := by
  change (if index.toNat < (array board).size then
      set (put board ((array board).setIfInBounds index.toNat a))
    else throw .outOfBounds : InPlace Unit) board = _
  rw [if_neg h]
  rfl

theorem confined_writeEntry (p : Peripheral) (array : p.State → Array α)
    (put : p.State → Array α → p.State) (index : UInt8) (a : α) :
    Confined p (writeEntry (fun board => array (board.part p))
      (fun board entries => board.withPart p (put (board.part p) entries)) index a) := by
  refine ⟨fun _ state => if index.toNat < (array state).size then
      .ok ⟨⟩ (put state ((array state).setIfInBounds index.toNat a))
    else .error .outOfBounds state, fun board => ?_⟩
  by_cases hi : index.toNat < (array (board.part p)).size
  · rw [writeEntry_apply hi]
    simp only [if_pos hi, putBack]
  · rw [writeEntry_of_not_lt hi]
    simp only [if_neg hi, putBack, withPart_part]

/-! ## Requests in place -/

theorem confined_gpio (r : Gpio.Request) : Confined .gpio (gpio r) := by
  have hpin (index : UInt8) : Confined .gpio (check (·.gpio.pin index)) :=
    confined_check .gpio fun _ gpio => gpio.pin index
  have hchange (index : UInt8) (later : Pin → Pin) : Confined .gpio (changePin index later) :=
    (hpin index).bind fun pin => confined_change .gpio fun gpio =>
      ⟨gpio.pins.setIfInBounds index.toNat (later pin)⟩
  cases r with
  | get index => exact (hpin index).bind fun _ => confined_pure _
  | _ => exact hchange _ _

theorem confined_nets (r : Nets.Request) : Confined .nets (nets r) := by
  have hnode (node : UInt16) : Confined .nets (check (requireNode ·.limits node)) :=
    confined_check .nets fun limits _ => requireNode limits node
  have hindex (slot : UInt8) : Confined .nets (check (requireIndex "slot" slot ·.limits.slots)) :=
    confined_check .nets fun limits _ => requireIndex "slot" slot limits.slots
  have hlive (later : Netlist → Netlist) : Confined .nets (setLive later) :=
    confined_modify .nets fun nets => { nets with live := later nets.live }
  have hsaved (later : Netlist → Netlist) : Confined .nets (setSaved later) :=
    confined_modify .nets fun nets => { nets with saved := later nets.saved }
  have hchange (persist : Bool) (later : Netlist → Netlist) :
      Confined .nets (changeNets persist later) :=
    (hlive later).bind fun _ => .ite (hsaved later) (confined_pure _)
  have hslot (slot : UInt8) (content : Option Netlist) : Confined .nets (writeSlot slot content) :=
    confined_writeEntry .nets (·.slots) (fun nets slots => { nets with slots }) slot content
  have hselect (slot : UInt8) : Confined .nets (selectSlot slot) :=
    confined_change .nets fun nets => { nets with current := slot }
  cases r with
  | connect a b persist =>
    refine (hnode a).bind fun _ => (hnode b).bind fun _ => .ite (confined_refuse _) ?_
    exact (hchange persist _).bind fun _ => confined_pure _
  | disconnect a b persist =>
    exact (hnode a).bind fun _ => (hnode b).bind fun _ =>
      (hchange persist _).bind fun _ => confined_pure _
  | clear persist => exact (hchange persist _).bind fun _ => confined_pure _
  | connected a b =>
    exact (hnode a).bind fun _ => (hnode b).bind fun _ =>
      confined_answer .nets fun nets => .flag (nets.live.contains (.between a b))
  | list => exact confined_answer .nets fun nets => .text nets.live.text
  | loadSlot slot =>
    refine (hindex slot).bind fun _ => (confined_readEntry .nets (·.slots) slot).bind fun _ => ?_
    exact (hlive _).bind fun _ => confined_read .nets (fun _ nets => nets.live) fun live =>
      (hsaved fun _ => live).bind fun _ => hselect slot
  | saveSlot slot =>
    exact (hindex slot).bind fun _ => confined_read .nets (fun _ nets => nets.live) fun _ =>
      (hslot slot _).bind fun _ => hselect slot
  | clearSlot slot =>
    exact (hindex slot).bind fun _ => (hslot slot none).bind fun _ => confined_pure _
  | currentSlot =>
    exact confined_answer .nets fun nets => .int (Int64.ofNat nets.current.toNat)

theorem confined_analog (r : Analog.Request) : Confined .analog (analog r) := by
  have hindex (what : String) (index : UInt8) (limit : Limits → UInt8) :
      Confined .analog (check fun board => requireIndex what index (limit board.limits)) :=
    confined_check .analog fun limits _ => requireIndex what index (limit limits)
  cases r with
  | dacSet channel volts persist =>
    refine (hindex _ channel (·.dacChannels)).bind fun _ => ?_
    refine (confined_check .analog fun limits _ =>
      if limits.dacMinVolts ≤ volts ∧ volts ≤ limits.dacMaxVolts then .ok ()
      else .error (.voltageOutOfRange volts limits.dacMinVolts limits.dacMaxVolts)).bind fun _ => ?_
    have hdac : Confined .analog (writeOutput channel volts) :=
      confined_writeEntry .analog (·.dac) (fun analog dac => { analog with dac }) channel volts
    have hsaved : Confined .analog (writeSavedOutput channel volts) :=
      confined_writeEntry .analog (·.dacSaved) (fun analog dacSaved => { analog with dacSaved })
        channel volts
    exact (hdac.bind fun _ => .ite hsaved (confined_pure _)).bind fun _ => confined_pure _
  | dacGet channel =>
    exact (hindex _ channel (·.dacChannels)).bind fun _ =>
      (confined_readEntry .analog (·.dac) channel).bind fun _ => confined_pure _
  | adcGet channel =>
    exact (hindex _ channel (·.adcChannels)).bind fun _ =>
      confined_answer .analog fun analog => .volts (analog.input channel)
  | sense sensor quantity =>
    refine (hindex _ sensor (·.currentSensors)).bind fun _ => ?_
    exact (confined_readEntry .analog (·.milliamps) sensor).bind fun milliamps =>
      confined_answer .analog fun analog => measured milliamps (analog.output sensor) quantity

theorem confined_readNext (counter : Target → UInt32) : Confined .target (readNext counter) := by
  refine ⟨fun _ target => checked target (increment (counter target)), fun board => ?_⟩
  refine Eq.trans ?_ (checked_eq_putBack board .target (increment (counter board.target)))
  rw [readNext_apply]
  cases increment (counter board.target) <;> rfl

theorem confined_config (r : ConfigStore.Request) : Confined .config (config r) := by
  have hvalue (sectionName key : String) :
      Confined .config (check (configValue sectionName key)) := by
    have hlookup : configValue sectionName key = fun board =>
        (board.config.get? sectionName key).elim
          (.error (.unknownConfigKey sectionName key)) .ok := by
      funext board
      rw [configValue]
      cases board.config.get? sectionName key <;> rfl
    rw [hlookup]
    exact confined_check .config fun _ config =>
      (config.get? sectionName key).elim (.error (.unknownConfigKey sectionName key)) .ok
  cases r with
  | get sectionName key => exact (hvalue sectionName key).bind fun _ => confined_pure _
  | set sectionName key value =>
    exact (hvalue sectionName key).bind fun _ =>
      confined_change .config fun config => config.set sectionName key value
  | reset => exact confined_change .config fun _ => ConfigStore.default

theorem confined_target (r : Target.Request) : Confined .target (target r) := by
  have hchange (later : Target → Target) : Confined .target (changeTarget later) :=
    confined_change .target later
  have hcount (counter : Target → UInt32) {later : UInt32 → Target → Target} :
      Confined .target (readNext counter >>= fun next => changeTarget (later next)) :=
    (confined_readNext counter).bind fun _ => hchange _
  cases r with
  | reset => exact hcount _
  | flash =>
    refine .bind (confined_check .target fun _ target =>
      if target.uartConnected then .ok () else .error (.notConnected "uart bridge")) fun _ => ?_
    exact hcount _
  | uartConnect | uartDisconnect =>
    rw [target]
    exact hchange _
  | uartSetBaud baud => exact .ite (confined_refuse _) (hchange _)
  | uartGetBaud =>
    exact confined_answer .target fun target => .int (Int64.ofNat target.uartBaud.toNat)

theorem confined_probe (r : Probe.Request) : Confined .probe (probe r) := by
  cases r with
  | read => exact confined_answer .probe fun probe => .int (touched probe)
  | simulate node =>
    exact (confined_check .probe fun limits _ => requireNode limits node).bind fun _ =>
      confined_change .probe fun _ => ⟨some node⟩

theorem confined_wheel (r : Wheel.Request) : Confined .wheel (wheel r) := by
  cases r with
  | get => exact confined_answer .wheel fun wheel => .int wheel.position
  | simulate delta =>
    exact confined_change .wheel fun wheel =>
      ⟨Int64.ofIntClamp (wheel.position.toInt + delta.toInt)⟩

theorem confined_oled (r : Oled.Request) : Confined .oled (oled r) := by
  have hchange (later : Oled → Oled) : Confined .oled (changeOled later) :=
    confined_change .oled later
  cases r with
  | print text =>
    refine .bind (confined_check .oled fun _ oled =>
      if oled.connected then .ok () else .error (.notConnected "oled")) fun _ => ?_
    exact hchange _
  | clear | connect | disconnect =>
    rw [oled]
    exact hchange _

theorem confined_displayMode (r : DisplayMode.Request) : Confined .displayMode (displayMode r) := by
  cases r with
  | set name =>
    simp only [displayMode]
    split
    · next mode _ => exact confined_change .displayMode fun _ => mode
    · exact confined_refuse _
  | get => exact confined_answer .displayMode fun mode => .text mode.name

theorem confined_panel (r : Panel.Request) : Confined .panel (panel r) := by
  cases r with
  | setBrightness level => exact confined_change .panel fun _ => ⟨level⟩
  | getBrightness =>
    exact confined_answer .panel fun panel => .int (Int64.ofNat panel.brightness.toNat)

/-- A request in place reads and writes nothing but the peripheral that it is addressed to. -/
theorem confined_perform (request : Request) : Confined request.peripheral (perform request) := by
  cases request with
  | gpio r => exact confined_gpio r
  | nets r => exact confined_nets r
  | analog r => exact confined_analog r
  | config r => exact confined_config r
  | target r => exact confined_target r
  | probe r => exact confined_probe r
  | wheel r => exact confined_wheel r
  | oled r => exact confined_oled r
  | displayMode r => exact confined_displayMode r
  | panel r => exact confined_panel r

theorem isolated_step : Isolated step := by
  intro request
  obtain ⟨own, hown⟩ := confined_perform request
  refine ⟨fun limits state => match own limits state with
    | .ok reply later => (.ok reply, later)
    | .error stop later => (.error stop, later), fun board => ?_⟩
  simp only [step, hown board]
  cases own board.limits (board.part request.peripheral) <;> rfl

end InPlace

/-! ## Runs of isolated steps -/

/-- The requests to a peripheral among others. -/
def Peripheral.requests (p : Peripheral) (requests : List Request) : List Request :=
  requests.filter (·.peripheral = p)

/-- The requests to a peripheral among others, with their answers. -/
def Peripheral.exchanges (p : Peripheral) (trace : List (Request × α)) : List (Request × α) :=
  trace.filter (·.1.peripheral = p)

section

variable {request : Request} {requests : List Request} {a : α} {trace : List (Request × α)}

end

/-- The board that steps lead to. -/
def finish (step : Request → Board → α × Board) (board : Board) (requests : List Request) : Board :=
  requests.foldl (fun board request => (step request board).2) board

namespace Isolated

variable {step : Request → Board → α × Board} {request : Request} {requests : List Request}
  {xs ys : List Request}

theorem limits_eq (h : Isolated step) (request : Request) (board : Board) :
    (step request board).2.limits = board.limits := by
  obtain ⟨own, hown⟩ := h request
  rw [hown board]
  exact limits_withPart _ _

/-- A request changes no other peripheral. -/
theorem part_of_ne (h : Isolated step) (hp : request.peripheral ≠ p) (board : Board) :
    (step request board).2.part p = board.part p := by
  obtain ⟨own, hown⟩ := h request
  rw [hown board]
  exact part_withPart_of_ne _ _ hp.symm

theorem limits_finish (h : Isolated step) (board : Board) (requests : List Request) :
    (finish step board requests).limits = board.limits := by
  induction requests generalizing board with
  | nil => rfl
  | cons request requests ih => exact (ih _).trans (h.limits_eq request board)

end Isolated

/-! ## Histories of one peripheral -/

theorem limits_afterAll (board : Board) (requests : List Request) :
    (board.afterAll requests).limits = board.limits :=
  isolated_simulated.limits_finish board requests

theorem part_of_peripheral_ne {request : Request} {reply : Reply} {later : Board}
    (hp : request.peripheral ≠ p) (h : board.handle request = .ok (reply, later)) :
    later.part p = board.part p := by
  have hpart := isolated_simulated.part_of_ne hp board
  rwa [simulated_handle, h] at hpart

/-- `history_induction` for what one peripheral holds: requests to the others are added to its
history without a change. -/
theorem part_history_induction (hboard : board.IsSound) {P : List Request → p.State → Prop}
    (hstart : P [] (board.part p))
    (hother : ∀ past request state, request.peripheral ≠ p → P past state →
      P (request :: past) state)
    (hown : ∀ past (before : Board) request, before.IsSound → before.limits = board.limits →
      request.peripheral = p → P past (before.part p) →
      Yields (fun later => P (request :: past) (later.part p)) (before.handle request))
    (requests : List Request) :
    P (board.accepted requests).reverse ((board.afterAll requests).part p) := by
  refine (history_induction (P := fun past later => (later.IsSound ∧ later.limits = board.limits) ∧
    P past (later.part p)) ⟨⟨hboard, rfl⟩, hstart⟩ ?_ requests).2
  rintro past before request reply later ⟨⟨hbefore, hlimits⟩, hpast⟩ hr
  obtain ⟨hlater, hsame⟩ := hbefore.yields_handle request reply later hr
  refine ⟨⟨hlater, hsame.trans hlimits⟩, ?_⟩
  by_cases hp : request.peripheral = p
  · exact hown past before request hbefore hlimits hp hpast reply later hr
  · rw [part_of_peripheral_ne hp hr]
    exact hother past request _ hp hpast

end BenchConsole.Board
