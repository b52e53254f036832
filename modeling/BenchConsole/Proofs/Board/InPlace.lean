import BenchConsole.Proofs.Bench.Effects

/-!
# Boards changed in place

A board answers a request with a new board, or with a stop and none. `InPlace.perform` answers the
same requests by reading and writing the one board that there is, step by step, and stopping at the
first check that fails; what was written by then stays written. On a board that keeps to its limits
both come to the same (`IsSound.perform_eq`). Here it takes a proof that a refused request has
written nothing before its last check (`guarded_perform`), and that a request which only asks for
something writes nothing at all (`readOnly_perform`).

A response that is an error then comes with an unchanged board, whether the command was not
understood or refused (`error_leaves_board`).
-/

namespace BenchConsole

namespace Board

/-- Operations on a board that is changed in place. What was written before a stop stays written. -/
abbrev InPlace := EStateM Stop Board

namespace InPlace

variable {α β : Type}

/-! ## Steps -/

def refuse (fault : Fault) : InPlace α :=
  throw (.refused fault)

/-- Asks something of the board that it may refuse. -/
def check (test : Board → Except Fault α) : InPlace α := do
  match test (← get) with
  | .ok a => return a
  | .error fault => refuse fault

/-- Answers from what the board is like. -/
def answer (reply : Board → Reply) : InPlace Reply := do
  return reply (← get)

/-- Changes the board and answers that it is done. -/
def change (later : Board → Board) : InPlace Reply := do
  modify later
  return .done

/-- Reads an entry of an array. -/
def readEntry (array : Board → Array α) (index : UInt8) : InPlace α := do
  match (array (← get))[index.toNat]? with
  | some a => return a
  | none => throw .outOfBounds

/-- Writes an entry of an array. -/
def writeEntry (array : Board → Array α) (put : Board → Array α → Board) (index : UInt8) (a : α) :
    InPlace Unit := do
  let board ← get
  if index.toNat < (array board).size then
    set (put board ((array board).setIfInBounds index.toNat a))
  else throw .outOfBounds

/-! ## Peripherals -/

def changePin (index : UInt8) (later : Pin → Pin) : InPlace Reply := do
  let pin ← check (·.gpio.pin index)
  change fun board =>
    { board with gpio := ⟨board.gpio.pins.setIfInBounds index.toNat (later pin)⟩ }

def gpio : Gpio.Request → InPlace Reply
  | .set index high => changePin index fun pin => { pin with direction := .output, high }
  | .get index => do return .level (← check (·.gpio.pin index)).level
  | .direction index direction => changePin index fun pin => { pin with direction }
  | .pulls index pull => changePin index fun pin => { pin with pull }

def setLive (later : Netlist → Netlist) : InPlace Unit :=
  modify fun board => { board with nets := { board.nets with live := later board.nets.live } }

def setSaved (later : Netlist → Netlist) : InPlace Unit :=
  modify fun board => { board with nets := { board.nets with saved := later board.nets.saved } }

/-- Changes the live connections, then the saved ones if the change persists. -/
def changeNets (persist : Bool) (later : Netlist → Netlist) : InPlace Unit := do
  setLive later
  if persist then setSaved later

def writeSlot (slot : UInt8) (content : Option Netlist) : InPlace Unit :=
  writeEntry (·.nets.slots) (fun board slots => { board with nets := { board.nets with slots } })
    slot content

def selectSlot (slot : UInt8) : InPlace Reply :=
  change fun board => { board with nets := { board.nets with current := slot } }

def nets : Nets.Request → InPlace Reply
  | .connect a b persist => do
    check (requireNode ·.limits a)
    check (requireNode ·.limits b)
    if a = b then refuse (.failed ("cannot connect node " ++ toString a.toNat ++ " to itself"))
    else do
      changeNets persist (·.insert (.between a b))
      return .done
  | .disconnect a b persist => do
    check (requireNode ·.limits a)
    check (requireNode ·.limits b)
    changeNets persist (·.erase (.between a b))
    return .done
  | .clear persist => do
    changeNets persist fun _ => {}
    return .done
  | .connected a b => do
    check (requireNode ·.limits a)
    check (requireNode ·.limits b)
    answer fun board => .flag (board.isConnected a b)
  | .list => answer fun board => .text board.nets.live.text
  | .loadSlot slot => do
    check (requireIndex "slot" slot ·.limits.slots)
    let stored ← readEntry (·.nets.slots) slot
    setLive fun _ => stored.getD {}
    let live := (← get).nets.live
    setSaved fun _ => live
    selectSlot slot
  | .saveSlot slot => do
    check (requireIndex "slot" slot ·.limits.slots)
    let live := (← get).nets.live
    writeSlot slot (some live)
    selectSlot slot
  | .clearSlot slot => do
    check (requireIndex "slot" slot ·.limits.slots)
    writeSlot slot none
    return .done
  | .currentSlot => answer fun board => .int (Int64.ofNat board.nets.current.toNat)

def requireVolts (volts : Float) (board : Board) : Except Fault Unit :=
  if board.limits.dacMinVolts ≤ volts ∧ volts ≤ board.limits.dacMaxVolts then .ok ()
  else .error (.voltageOutOfRange volts board.limits.dacMinVolts board.limits.dacMaxVolts)

def writeOutput (channel : UInt8) (volts : Float) : InPlace Unit :=
  writeEntry (·.analog.dac) (fun board dac => { board with analog := { board.analog with dac } })
    channel volts

def writeSavedOutput (channel : UInt8) (volts : Float) : InPlace Unit :=
  writeEntry (·.analog.dacSaved)
    (fun board dacSaved => { board with analog := { board.analog with dacSaved } }) channel volts

/-- Writes an output channel, then its saved voltage if the change persists. -/
def writeOutputs (channel : UInt8) (volts : Float) (persist : Bool) : InPlace Unit := do
  writeOutput channel volts
  if persist then writeSavedOutput channel volts

def measured (milliamps bus : Float) : Quantity → Reply
  | .current => .milliamps milliamps
  | .shuntVoltage => .volts (milliamps / 1000.0 * Analog.shuntResistance)
  | .busVoltage => .volts bus
  | .power => .milliwatts (milliamps * bus)

def analog : Analog.Request → InPlace Reply
  | .dacSet channel volts persist => do
    check (requireIndex "dac channel" channel ·.limits.dacChannels)
    check (requireVolts volts)
    writeOutputs channel volts persist
    return .done
  | .dacGet channel => do
    check (requireIndex "dac channel" channel ·.limits.dacChannels)
    return .volts (← readEntry (·.analog.dac) channel)
  | .adcGet channel => do
    check (requireIndex "adc channel" channel ·.limits.adcChannels)
    answer fun board => .volts (board.analog.input channel)
  | .sense sensor quantity => do
    check (requireIndex "current sensor" sensor ·.limits.currentSensors)
    let milliamps ← readEntry (·.analog.milliamps) sensor
    answer fun board => measured milliamps (board.analog.output sensor) quantity

/-- The value of a key of the config table, if there is such a key. -/
def configValue (sectionName key : String) (board : Board) : Except Fault String :=
  match board.config.get? sectionName key with
  | some value => .ok value
  | none => .error (.unknownConfigKey sectionName key)

def config : ConfigStore.Request → InPlace Reply
  | .get sectionName key => do return .text (← check (configValue sectionName key))
  | .set sectionName key value => do
    let _ ← check (configValue sectionName key)
    change fun board => { board with config := board.config.set sectionName key value }
  | .reset => change fun board => { board with config := .default }

def changeTarget (later : Target → Target) : InPlace Reply :=
  change fun board => { board with target := later board.target }

def requireBridge (board : Board) : Except Fault Unit :=
  if board.target.uartConnected then .ok () else .error (.notConnected "uart bridge")

/-- Reads the next value of a counter. -/
def readNext (counter : Target → UInt32) : InPlace UInt32 := do
  match increment (counter (← get).target) with
  | .ok next => return next
  | .error stop => throw stop

def target : Target.Request → InPlace Reply
  | .reset => do
    let resets ← readNext (·.resets)
    changeTarget ({ · with resets })
  | .flash => do
    check requireBridge
    let flashes ← readNext (·.flashes)
    changeTarget ({ · with flashes })
  | .uartConnect => changeTarget ({ · with uartConnected := true })
  | .uartDisconnect => changeTarget ({ · with uartConnected := false })
  | .uartSetBaud baud =>
    if baud = 0 then refuse (.failed "baud rate must be > 0")
    else changeTarget ({ · with uartBaud := baud })
  | .uartGetBaud => answer fun board => .int (Int64.ofNat board.target.uartBaud.toNat)

/-- The node that the probe touches as a number, minus one if it touches none. -/
def touched (probe : Probe) : Int64 :=
  match probe.node with
  | some node => Int64.ofNat node.toNat
  | none => -1

def probe : Probe.Request → InPlace Reply
  | .read => answer fun board => .int (touched board.probe)
  | .simulate node => do
    check (requireNode ·.limits node)
    change fun board => { board with probe := ⟨some node⟩ }

def wheel : Wheel.Request → InPlace Reply
  | .get => answer fun board => .int board.wheel.position
  | .simulate delta => change fun board =>
    { board with wheel := ⟨Int64.ofIntClamp (board.wheel.position.toInt + delta.toInt)⟩ }

def changeOled (later : Oled → Oled) : InPlace Reply :=
  change fun board => { board with oled := later board.oled }

def requireOled (board : Board) : Except Fault Unit :=
  if board.oled.connected then .ok () else .error (.notConnected "oled")

def oled : Oled.Request → InPlace Reply
  | .print text => do
    check requireOled
    changeOled ({ · with text })
  | .clear => changeOled ({ · with text := "" })
  | .connect => changeOled ({ · with connected := true })
  | .disconnect => changeOled ({ · with connected := false })

def displayMode : DisplayMode.Request → InPlace Reply
  | .set name =>
    match DisplayMode.ofName? name with
    | some mode => change fun board => { board with displayMode := mode }
    | none => refuse (.failed ("unknown display mode '" ++ name ++ "'"))
  | .get => answer fun board => .text board.displayMode.name

def panel : Panel.Request → InPlace Reply
  | .setBrightness level => change fun board => { board with panel := ⟨level⟩ }
  | .getBrightness => answer fun board => .int (Int64.ofNat board.panel.brightness.toNat)

/-- Answers a request by changing the board in place. -/
def perform : Request → InPlace Reply
  | .gpio r => gpio r
  | .nets r => nets r
  | .analog r => analog r
  | .config r => config r
  | .target r => target r
  | .probe r => probe r
  | .wheel r => wheel r
  | .oled r => oled r
  | .displayMode r => displayMode r
  | .panel r => panel r

/-! ## What operations leave in place -/

/-- The board after an operation, whether it stopped or not. -/
def after (x : InPlace α) (board : Board) : Board :=
  match x board with
  | .ok _ later => later
  | .error _ later => later

/-- Operations that write nothing. -/
def ReadOnly (x : InPlace α) : Prop := ∀ board, after x board = board

/-- Operations that refuse nothing. -/
def Unrefused (x : InPlace α) : Prop := ∀ board fault later, x board ≠ .error (.refused fault) later

/-- Operations that have written nothing when they refuse. -/
def Guarded (x : InPlace α) : Prop :=
  ∀ board fault later, x board = .error (.refused fault) later → later = board

variable {x y : InPlace α} {f : α → InPlace β} {p : Prop} [Decidable p]

theorem bind_apply (x : InPlace α) (f : α → InPlace β) (board : Board) : (x >>= f) board =
    match x board with
    | .ok a later => f a later
    | .error stop later => .error stop later := by
  change EStateM.bind x f board = _
  unfold EStateM.bind
  cases x board <;> rfl

theorem check_apply (test : Board → Except Fault α) (board : Board) : check test board =
    match test board with
    | .ok a => .ok a board
    | .error fault => .error (.refused fault) board := by
  change (match test board with
    | .ok a => pure a
    | .error fault => refuse fault : InPlace α) board = _
  cases test board <;> rfl

theorem readEntry_apply {array : Board → Array α} {board : Board} {index : UInt8} {a : α}
    (h : (array board)[index.toNat]? = some a) : readEntry array index board = .ok a board := by
  change (match (array board)[index.toNat]? with
    | some a => pure a
    | none => throw .outOfBounds : InPlace α) board = _
  rw [h]
  rfl

theorem readNext_apply (counter : Target → UInt32) (board : Board) : readNext counter board =
    match increment (counter board.target) with
    | .ok next => .ok next board
    | .error stop => .error stop board := by
  change (match increment (counter board.target) with
    | .ok next => pure next
    | .error stop => throw stop : InPlace UInt32) board = _
  cases increment (counter board.target) <;> rfl

theorem writeEntry_apply {array : Board → Array α} {put : Board → Array α → Board} {board : Board}
    {index : UInt8} (h : index.toNat < (array board).size) (a : α) :
    writeEntry array put index a board =
      .ok () (put board ((array board).setIfInBounds index.toNat a)) := by
  change (if index.toNat < (array board).size then
      set (put board ((array board).setIfInBounds index.toNat a))
    else throw .outOfBounds : InPlace Unit) board = _
  rw [if_pos h]
  rfl

theorem ReadOnly.guarded (hx : ReadOnly x) : Guarded x := by
  intro board fault later h
  have hafter := hx board
  rwa [after, h] at hafter

theorem Unrefused.guarded (hx : Unrefused x) : Guarded x :=
  fun board fault later h => absurd h (hx board fault later)

theorem ReadOnly.bind (hx : ReadOnly x) (hf : ∀ a, ReadOnly (f a)) : ReadOnly (x >>= f) := by
  intro board
  have hafter := hx board
  unfold after at hafter ⊢
  rw [bind_apply]
  cases hrun : x board with
  | ok a later =>
    rw [hrun] at hafter
    exact (hf a later).trans hafter
  | error stop later => rwa [hrun] at hafter

theorem Unrefused.bind (hx : Unrefused x) (hf : ∀ a, Unrefused (f a)) : Unrefused (x >>= f) := by
  intro board fault later h
  rw [bind_apply] at h
  cases hrun : x board with
  | ok a later' =>
    rw [hrun] at h
    exact hf a later' fault later h
  | error stop later' =>
    rw [hrun] at h
    cases h
    exact hx board fault later hrun

/-- What writes nothing leaves whatever comes behind it guarded. -/
theorem Guarded.bind (hx : ReadOnly x) (hf : ∀ a, Guarded (f a)) : Guarded (x >>= f) := by
  intro board fault later h
  have hafter := hx board
  unfold after at hafter
  rw [bind_apply] at h
  cases hrun : x board with
  | ok a later' =>
    rw [hrun] at h hafter
    exact (hf a later' fault later h).trans hafter
  | error stop later' =>
    rw [hrun] at h hafter
    cases h
    exact hafter

theorem Unrefused.ite (hx : Unrefused x) (hy : Unrefused y) : Unrefused (if p then x else y) := by
  split
  · exact hx
  · exact hy

theorem Guarded.ite (hx : Guarded x) (hy : Guarded y) : Guarded (if p then x else y) := by
  split
  · exact hx
  · exact hy

/-! ## Single steps -/

theorem readOnly_pure (a : α) : ReadOnly (pure a) :=
  fun _ => rfl

theorem readOnly_get : ReadOnly get :=
  fun _ => rfl

theorem readOnly_refuse (fault : Fault) : ReadOnly (refuse fault : InPlace α) :=
  fun _ => rfl

theorem readOnly_answer (reply : Board → Reply) : ReadOnly (answer reply) :=
  fun _ => rfl

theorem readOnly_check (test : Board → Except Fault α) : ReadOnly (check test) := by
  refine .bind readOnly_get fun board => ?_
  split
  · exact readOnly_pure _
  · exact readOnly_refuse _

theorem readOnly_readEntry (array : Board → Array α) (index : UInt8) :
    ReadOnly (readEntry array index) := by
  refine .bind readOnly_get fun board => ?_
  split
  · exact readOnly_pure _
  · exact fun _ => rfl

theorem readOnly_readNext (counter : Target → UInt32) : ReadOnly (readNext counter) := by
  refine .bind readOnly_get fun board => ?_
  split
  · exact readOnly_pure _
  · exact fun _ => rfl

theorem unrefused_pure (a : α) : Unrefused (pure a) := by
  rintro board fault later ⟨⟩

theorem unrefused_get : Unrefused get := by
  rintro board fault later ⟨⟩

theorem unrefused_set (board : Board) : Unrefused (set board) := by
  rintro board fault later ⟨⟩

theorem unrefused_modify (later : Board → Board) : Unrefused (modify later) := by
  rintro board fault later ⟨⟩

theorem unrefused_change (later : Board → Board) : Unrefused (change later) :=
  (unrefused_modify later).bind fun _ => unrefused_pure _

theorem unrefused_outOfBounds : Unrefused (throw .outOfBounds : InPlace α) := by
  rintro board fault later ⟨⟩

theorem unrefused_writeEntry (array : Board → Array α) (put : Board → Array α → Board)
    (index : UInt8) (a : α) : Unrefused (writeEntry array put index a) :=
  unrefused_get.bind fun _ => .ite (unrefused_set _) unrefused_outOfBounds

/-! ## Requests that are refused -/

theorem guarded_gpio (r : Gpio.Request) : Guarded (gpio r) := by
  have hchange (index : UInt8) (later : Pin → Pin) : Guarded (changePin index later) :=
    .bind (readOnly_check _) fun _ => (unrefused_change _).guarded
  cases r with
  | get index => exact ((readOnly_check _).bind fun _ => readOnly_pure _).guarded
  | _ => exact hchange _ _

theorem guarded_nets (r : Nets.Request) : Guarded (nets r) := by
  have hchange (persist : Bool) (later : Netlist → Netlist) :
      Unrefused (changeNets persist later >>= fun _ => pure Reply.done) :=
    .bind (.bind (unrefused_modify _) fun _ => .ite (unrefused_modify _) (unrefused_pure _))
      fun _ => unrefused_pure _
  cases r with
  | connect a b persist =>
    exact .bind (readOnly_check _) fun _ => .bind (readOnly_check _) fun _ =>
      .ite (readOnly_refuse _).guarded (hchange _ _).guarded
  | disconnect a b persist =>
    exact .bind (readOnly_check _) fun _ => .bind (readOnly_check _) fun _ =>
      (hchange _ _).guarded
  | clear persist => exact (hchange _ _).guarded
  | connected a b =>
    exact .bind (readOnly_check _) fun _ => .bind (readOnly_check _) fun _ =>
      (readOnly_answer _).guarded
  | list | currentSlot => exact (readOnly_answer _).guarded
  | loadSlot slot =>
    refine .bind (readOnly_check _) fun _ => .bind (readOnly_readEntry _ _) fun _ => ?_
    refine Unrefused.guarded (.bind (unrefused_modify _) fun _ => .bind unrefused_get fun _ => ?_)
    exact .bind (unrefused_modify _) fun _ => unrefused_change _
  | saveSlot slot =>
    refine .bind (readOnly_check _) fun _ => .bind readOnly_get fun _ => ?_
    exact ((unrefused_writeEntry _ _ _ _).bind fun _ => unrefused_change _).guarded
  | clearSlot slot =>
    refine .bind (readOnly_check _) fun _ => ?_
    exact ((unrefused_writeEntry _ _ _ _).bind fun _ => unrefused_pure _).guarded

theorem guarded_analog (r : Analog.Request) : Guarded (analog r) := by
  cases r with
  | dacSet channel volts persist =>
    have hwrites : Unrefused (writeOutputs channel volts persist) :=
      .bind (unrefused_writeEntry _ _ _ _) fun _ =>
        .ite (unrefused_writeEntry _ _ _ _) (unrefused_pure _)
    exact .bind (readOnly_check _) fun _ => .bind (readOnly_check _) fun _ =>
      (hwrites.bind fun _ => unrefused_pure _).guarded
  | dacGet channel =>
    exact .bind (readOnly_check _) fun _ =>
      ((readOnly_readEntry _ _).bind fun _ => readOnly_pure _).guarded
  | adcGet channel => exact .bind (readOnly_check _) fun _ => (readOnly_answer _).guarded
  | sense sensor quantity =>
    exact .bind (readOnly_check _) fun _ => .bind (readOnly_readEntry _ _) fun _ =>
      (readOnly_answer _).guarded

theorem guarded_config (r : ConfigStore.Request) : Guarded (config r) := by
  cases r with
  | get sectionName key => exact ((readOnly_check _).bind fun _ => readOnly_pure _).guarded
  | set sectionName key value =>
    exact .bind (readOnly_check _) fun _ => (unrefused_change _).guarded
  | reset => exact (unrefused_change _).guarded

theorem guarded_target (r : Target.Request) : Guarded (target r) := by
  cases r with
  | reset => exact .bind (readOnly_readNext _) fun _ => (unrefused_change _).guarded
  | flash =>
    exact .bind (readOnly_check _) fun _ => .bind (readOnly_readNext _) fun _ =>
      (unrefused_change _).guarded
  | uartConnect | uartDisconnect => exact (unrefused_change _).guarded
  | uartSetBaud baud => exact .ite (readOnly_refuse _).guarded (unrefused_change _).guarded
  | uartGetBaud => exact (readOnly_answer _).guarded

theorem guarded_oled (r : Oled.Request) : Guarded (oled r) := by
  cases r with
  | print text => exact .bind (readOnly_check _) fun _ => (unrefused_change _).guarded
  | _ => exact (unrefused_change _).guarded

theorem guarded_displayMode (r : DisplayMode.Request) : Guarded (displayMode r) := by
  cases r with
  | set name =>
    simp only [displayMode]
    split
    · exact (unrefused_change _).guarded
    · exact (readOnly_refuse _).guarded
  | get => exact (readOnly_answer _).guarded

/-- A request that is refused has written nothing. -/
theorem guarded_perform (request : Request) : Guarded (perform request) := by
  cases request with
  | gpio r => exact guarded_gpio r
  | nets r => exact guarded_nets r
  | analog r => exact guarded_analog r
  | config r => exact guarded_config r
  | target r => exact guarded_target r
  | probe r =>
    cases r with
    | read => exact (readOnly_answer _).guarded
    | simulate node => exact .bind (readOnly_check _) fun _ => (unrefused_change _).guarded
  | wheel r =>
    cases r with
    | get => exact (readOnly_answer _).guarded
    | simulate delta => exact (unrefused_change _).guarded
  | oled r => exact guarded_oled r
  | displayMode r => exact guarded_displayMode r
  | panel r =>
    cases r with
    | setBrightness level => exact (unrefused_change _).guarded
    | getBrightness => exact (readOnly_answer _).guarded

end InPlace

/-! ## Requests that only ask -/

/-- The requests that ask for something and change nothing. -/
inductive Request.IsRead : Request → Prop
  | gpioGet (pin : UInt8) : IsRead (.gpio (.get pin))
  | connected (a b : UInt16) : IsRead (.nets (.connected a b))
  | list : IsRead (.nets .list)
  | currentSlot : IsRead (.nets .currentSlot)
  | dacGet (channel : UInt8) : IsRead (.analog (.dacGet channel))
  | adcGet (channel : UInt8) : IsRead (.analog (.adcGet channel))
  | sense (sensor : UInt8) (quantity : Quantity) : IsRead (.analog (.sense sensor quantity))
  | configGet (sectionName key : String) : IsRead (.config (.get sectionName key))
  | uartGetBaud : IsRead (.target .uartGetBaud)
  | probeRead : IsRead (.probe .read)
  | wheelGet : IsRead (.wheel .get)
  | displayMode : IsRead (.displayMode .get)
  | brightness : IsRead (.panel .getBrightness)

variable {α β ε : Type} {request : Request}

theorem InPlace.readOnly_perform (h : request.IsRead) : ReadOnly (perform request) := by
  cases h with
  | gpioGet pin => exact .bind (readOnly_check _) fun _ => readOnly_pure _
  | connected a b =>
    exact .bind (readOnly_check _) fun _ => .bind (readOnly_check _) fun _ => readOnly_answer _
  | dacGet channel =>
    exact .bind (readOnly_check _) fun _ => .bind (readOnly_readEntry _ _) fun _ => readOnly_pure _
  | adcGet channel => exact .bind (readOnly_check _) fun _ => readOnly_answer _
  | sense sensor quantity =>
    refine .bind (readOnly_check _) fun _ => ?_
    exact .bind (readOnly_readEntry _ _) fun _ => readOnly_answer _
  | configGet sectionName key => exact .bind (readOnly_check _) fun _ => readOnly_pure _
  | list | currentSlot | uartGetBaud | probeRead | wheelGet | displayMode | brightness =>
    exact readOnly_answer _

/-- Whatever is answered comes with a state of this property. -/
def Yields (P : α → Prop) (outcome : Except ε (Reply × α)) : Prop :=
  ∀ reply later, outcome = .ok (reply, later) → P later

namespace Yields

variable {P : α → Prop} {Q : Board → Prop} {state : α} {p : Prop} [Decidable p]

theorem ok (reply : Reply) (h : P state) : Yields P (.ok (reply, state) : Except ε (Reply × α)) := by
  rintro _ _ ⟨⟩
  exact h

theorem error (e : ε) : Yields P (.error e) := by
  rintro _ _ ⟨⟩

theorem bind {x : Except ε β} {f : β → Except ε (Reply × α)}
    (hf : ∀ b, x = .ok b → Yields P (f b)) : Yields P (x >>= f) := by
  cases x with
  | error e => exact error e
  | ok b => exact hf b rfl

theorem ite {x y : Except ε (Reply × α)} (hx : p → Yields P x) (hy : ¬p → Yields P y) :
    Yields P (if p then x else y) := by
  split
  · next h => exact hx h
  · next h => exact hy h

theorem refusing {outcome : Except Fault (Reply × α)} (h : Yields P outcome) :
    Yields P (Board.refusing outcome) := by
  cases outcome with
  | error fault => exact error _
  | ok answered => exact ok answered.1 (h answered.1 answered.2 rfl)

theorem replied {outcome : Except Stop (Reply × α)} {put : α → Board} (h : Yields P outcome)
    (hput : ∀ part, P part → Q (put part)) : Yields Q (Board.replied put outcome) := by
  cases outcome with
  | error stop => exact error stop
  | ok answered =>
    obtain ⟨reply, part⟩ := answered
    exact ok reply (hput part (h reply part rfl))

/-- A board is unchanged if its peripheral is. -/
theorem unchanged {outcome : Except Stop (Reply × α)} {put : α → Board} {board : Board}
    (part : α) (h : Yields (· = part) outcome) (hput : put part = board) :
    Yields (· = board) (Board.replied put outcome) :=
  h.replied fun _ hpart => hpart ▸ hput

end Yields

theorem yields_of_isRead (h : request.IsRead) (board : Board) :
    Yields (· = board) (board.handle request) := by
  cases h with
  | gpioGet pin =>
    rw [Board.handle]
    exact .unchanged board.gpio (.refusing (.bind fun _ _ => .ok _ rfl)) rfl
  | connected a b =>
    rw [Board.handle]
    exact .unchanged board.nets (.refusing (.bind fun _ _ => .bind fun _ _ => .ok _ rfl)) rfl
  | list | currentSlot =>
    rw [Board.handle]
    exact .unchanged board.nets (.refusing (.ok _ rfl)) rfl
  | dacGet | adcGet | sense =>
    rw [Board.handle]
    exact .unchanged board.analog (.refusing (.bind fun _ _ => .ok _ rfl)) rfl
  | configGet sectionName key =>
    rw [Board.handle]
    refine .unchanged board.config (.refusing ?_) rfl
    simp only [ConfigStore.handle]
    split
    · exact .ok _ rfl
    · exact .error _
  | uartGetBaud =>
    rw [Board.handle]
    exact .unchanged board.target (.ok _ rfl) rfl
  | probeRead =>
    rw [Board.handle]
    refine .unchanged board.probe (.refusing ?_) rfl
    simp only [Probe.handle]
    split <;> exact .ok _ rfl
  | wheelGet =>
    rw [Board.handle]
    exact .unchanged board.wheel (.refusing (.ok _ rfl)) rfl
  | displayMode =>
    rw [Board.handle]
    exact .unchanged board.displayMode (.refusing (.ok _ rfl)) rfl
  | brightness =>
    rw [Board.handle]
    exact .unchanged board.panel (.refusing (.ok _ rfl)) rfl

/-! ## Boards that stay as they are -/

theorem simulated_of_error (board : Board) {fault : Fault}
    (h : (simulated.handle request board).1 = .error fault) :
    (simulated.handle request board).2 = board := by
  simp only [simulated] at h ⊢
  split at h
  · cases h
  · rfl

theorem simulated_of_isRead (h : request.IsRead) (board : Board) :
    (simulated.handle request board).2 = board := by
  have hyields := yields_of_isRead h board
  simp only [simulated]
  split
  · next reply later hok => exact hyields reply later hok
  · rfl

end Board

open Board

/-- An error leaves the device as it was, if a refusal does. -/
theorem Bench.device_of_error {σ : Type} {h : Hardware σ} (x : Bench σ) {text : String}
    (hrefused : ∀ request fault, (h.handle request x.device).1 = .error fault →
      (h.handle request x.device).2 = x.device)
    (herror : (x.run h text).1.isError) : (x.run h text).2.device = x.device := by
  cases hp : prepared text with
  | error failure =>
    rw [run_of_failed x hp]
    rfl
  | ok prepared =>
    obtain ⟨echo, request⟩ := prepared
    rw [run_of_prepared x hp] at herror ⊢
    cases hr : (h.handle request x.device).1 with
    | error fault => exact hrefused request fault hr
    | ok reply =>
      have hresponse : (x.perform h echo request).1 = .ofReply echo (.ok reply) := by
        rw [← hr]
        rfl
      rw [hresponse] at herror
      cases herror

/-- A board is left as it was by a request that it refuses, whether it gives back a new board or is
changed in place, and by a request that only asks. So it is left as it was by every command whose
response is an error, whatever it is that went wrong. -/
theorem error_leaves_board (x : Bench Board) :
    let board := x.device
    (∀ request : Request,
      (∀ fault, (simulated.handle request board).1 = .error fault →
        (simulated.handle request board).2 = board) ∧
      (∀ fault later, InPlace.perform request board = .error (.refused fault) later →
        later = board) ∧
      (request.IsRead → (simulated.handle request board).2 = board ∧
        InPlace.after (InPlace.perform request) board = board)) ∧
    ∀ text, (x.run simulated text).1.isError → (x.run simulated text).2.device = board := by
  intro board
  refine ⟨fun request => ⟨?_, ?_, ?_⟩, fun text => ?_⟩
  · exact fun fault hr => simulated_of_error board hr
  · exact InPlace.guarded_perform request board
  · exact fun hread => ⟨simulated_of_isRead hread board, InPlace.readOnly_perform hread board⟩
  · exact x.device_of_error fun request fault hr => simulated_of_error board hr

end BenchConsole
