import BenchConsole.Proofs.Board.InPlace
import BenchConsole.Proofs.Board.Magnitude

/-!
# Sound boards

The limits of a board bound what its peripherals hold: as many pins, channels, sensors and slots,
connections between nodes that there are, each of them once and in order, and a slot in use that
exists (`Board.IsSound`). A board is sound as it is set up, and every request keeps it so
(`IsSound.handle`), whether it is answered or refused.

On a sound board a check of a number says that the array behind it has an entry at that number. So
the requests that change the board in place find every entry that they look for, and come to what
the board answers otherwise (`IsSound.perform_eq`), after any run of requests
(`limits_hold_after_requests`).
-/

namespace BenchConsole.Board

variable {α β : Type} {limits : Limits} {count node a b : UInt16} {link other : Link}
  {links : List Link} {index limit : UInt8} {what : String}

/-! ## Checks -/

theorem requireNode_eq_ok_iff :
    requireNode limits node = .ok () ↔ 1 ≤ node.toNat ∧ node.toNat ≤ limits.nodeCount.toNat := by
  unfold requireNode
  split
  · next h =>
    simp only [← UInt16.toNat_inj, UInt16.lt_iff_toNat_lt, UInt16.toNat_zero] at h
    exact iff_of_false nofun (by omega)
  · next h =>
    simp only [← UInt16.toNat_inj, UInt16.lt_iff_toNat_lt, UInt16.toNat_zero] at h
    exact iff_of_true rfl (by omega)

theorem requireIndex_eq_ok_iff :
    requireIndex what index limit = .ok () ↔ index.toNat < limit.toNat := by
  unfold requireIndex
  split
  · next h => exact iff_of_false nofun (Nat.not_lt.mpr (UInt8.le_iff_toNat_le.mp h))
  · next h => exact iff_of_true rfl (Nat.not_le.mp (mt UInt8.le_iff_toNat_le.mpr h))

/-! ## Connections -/

/-- A connection between two different nodes of a board, the smaller one first. -/
structure Link.IsSound (count : UInt16) (link : Link) : Prop where
  low : 1 ≤ link.low.toNat
  ascending : link.low.toNat < link.high.toNat
  high : link.high.toNat ≤ count.toNat

/-- A set of such connections, in ascending order. -/
structure Netlist.IsSound (count : UInt16) (nets : Netlist) : Prop where
  links : ∀ link ∈ nets.links, link.IsSound count
  ascending : nets.links.Pairwise fun x y => x.before y

theorem Link.isSound_between (ha : requireNode limits a = .ok ())
    (hb : requireNode limits b = .ok ()) (hne : a ≠ b) :
    (Link.between a b).IsSound limits.nodeCount := by
  rw [requireNode_eq_ok_iff] at ha hb
  rw [ne_eq, ← UInt16.toNat_inj] at hne
  unfold between
  split
  · next hle =>
    rw [UInt16.le_iff_toNat_le] at hle
    exact ⟨ha.1, by dsimp only; omega, hb.2⟩
  · next hgt =>
    rw [UInt16.le_iff_toNat_le] at hgt
    exact ⟨hb.1, by dsimp only; omega, ha.2⟩

theorem Link.before_iff : link.before other ↔ link.low.toNat < other.low.toNat ∨
    (link.low.toNat = other.low.toNat ∧ link.high.toNat < other.high.toNat) := by
  simp [before, UInt16.lt_iff_toNat_lt, ← UInt16.toNat_inj]

theorem Link.before_trans {third : Link} (h : link.before other) (h' : other.before third) :
    link.before third := by
  rw [before_iff] at *
  omega

theorem Link.before_of_not_before (hne : link ≠ other) (h : ¬link.before other) :
    other.before link := by
  rw [before_iff] at *
  have hends : ¬(link.low.toNat = other.low.toNat ∧ link.high.toNat = other.high.toNat) := by
    rintro ⟨hlow, hhigh⟩
    obtain ⟨low, high⟩ := link
    exact hne (congrArg₂ Link.mk (UInt16.toNat_inj.mp hlow) (UInt16.toNat_inj.mp hhigh))
  omega

namespace Netlist

theorem mem_insertSorted :
    other ∈ insertSorted link links ↔ other = link ∨ other ∈ links := by
  induction links with
  | nil => simp [insertSorted]
  | cons first links ih =>
    unfold insertSorted
    split_ifs with heq hbefore
    · rw [heq, List.mem_cons]
      tauto
    · exact List.mem_cons
    · rw [List.mem_cons, ih, List.mem_cons]
      tauto

theorem pairwise_insertSorted (h : links.Pairwise fun x y => x.before y) (link : Link) :
    (insertSorted link links).Pairwise fun x y => x.before y := by
  induction links with
  | nil => exact List.pairwise_singleton _ _
  | cons first links ih =>
    obtain ⟨hfirst, hlinks⟩ := List.pairwise_cons.mp h
    unfold insertSorted
    split_ifs with heq hbefore
    · exact h
    · refine List.pairwise_cons.mpr ⟨fun other hother => ?_, h⟩
      rcases List.mem_cons.mp hother with rfl | hother
      · exact hbefore
      · exact Link.before_trans hbefore (hfirst other hother)
    · refine List.pairwise_cons.mpr ⟨fun other hother => ?_, ih hlinks⟩
      rcases mem_insertSorted.mp hother with rfl | hother
      · exact Link.before_of_not_before heq hbefore
      · exact hfirst other hother

theorem isSound_empty (count : UInt16) : ({} : Netlist).IsSound count where
  links := nofun
  ascending := .nil

theorem IsSound.insert {nets : Netlist} (h : nets.IsSound count) (hlink : link.IsSound count) :
    (nets.insert link).IsSound count where
  links other hother := by
    rcases mem_insertSorted.mp hother with rfl | hother
    · exact hlink
    · exact h.links other hother
  ascending := pairwise_insertSorted h.ascending link

theorem IsSound.erase {nets : Netlist} (h : nets.IsSound count) (link : Link) :
    (nets.erase link).IsSound count where
  links other hother := h.links other (List.mem_of_mem_erase hother)
  ascending := h.ascending.sublist List.erase_sublist

end Netlist

/-! ## Sound peripherals -/

structure Nets.IsSound (limits : Limits) (nets : Nets) : Prop where
  size : nets.slots.size = limits.slots.toNat
  live : nets.live.IsSound limits.nodeCount
  saved : nets.saved.IsSound limits.nodeCount
  stored : ∀ content, some content ∈ nets.slots → content.IsSound limits.nodeCount
  current : nets.current = 0 ∨ nets.current.toNat < limits.slots.toNat

structure Analog.IsSound (limits : Limits) (analog : Analog) : Prop where
  dac : analog.dac.size = limits.dacChannels.toNat
  dacSaved : analog.dacSaved.size = limits.dacChannels.toNat
  milliamps : analog.milliamps.size = limits.currentSensors.toNat

/-- The keys of the config table. -/
def ConfigStore.keys (store : ConfigStore) : List (String × String) :=
  store.entries.map fun entry => (entry.sectionName, entry.key)

/-- What a board holds is within its limits. -/
structure IsSound (board : Board) : Prop where
  pins : board.gpio.pins.size = board.limits.gpioPins.toNat
  nets : board.nets.IsSound board.limits
  analog : board.analog.IsSound board.limits
  config : board.config.keys = ConfigStore.default.keys
  probe : ∀ node ∈ board.probe.node, 1 ≤ node.toNat ∧ node.toNat ≤ board.limits.nodeCount.toNat
  displayMode : board.displayMode.name ∈ ["nets", "rails", "off"]
  uartBaud : board.target.uartBaud = board.limits.uartBaud ∨ board.target.uartBaud ≠ 0

/-! ## Requests keep a board sound -/

theorem Gpio.yields_handle (gpio : Gpio) (r : Gpio.Request) :
    Yields (·.pins.size = gpio.pins.size) (gpio.handle r) := by
  have hmodify (index : UInt8) (later : Pin → Pin) :
      Yields (·.pins.size = gpio.pins.size) (gpio.modify index later) :=
    .bind fun _ _ => .ok _ Array.size_setIfInBounds
  cases r with
  | get index => exact .bind fun _ _ => .ok _ rfl
  | _ => exact hmodify _ _

theorem Nets.IsSound.update {nets : Nets} (h : nets.IsSound limits) (persist : Bool)
    {later : Netlist → Netlist}
    (hlater : ∀ x : Netlist, x.IsSound limits.nodeCount → (later x).IsSound limits.nodeCount) :
    (nets.update persist later).IsSound limits where
  size := h.size
  live := hlater _ h.live
  saved := by
    cases persist
    · exact h.saved
    · exact hlater _ h.saved
  stored := h.stored
  current := h.current

theorem Nets.IsSound.stored_get {nets : Nets} (h : nets.IsSound limits) (slot : UInt8) :
    (nets.stored slot).IsSound limits.nodeCount := by
  unfold Nets.stored
  cases hslot : nets.slots[slot.toNat]? with
  | none => exact Netlist.isSound_empty _
  | some content =>
    cases content with
    | none => exact Netlist.isSound_empty _
    | some content => exact h.stored content (Array.mem_of_getElem? hslot)

theorem Nets.IsSound.store {nets : Nets} (h : nets.IsSound limits) (slot : UInt8)
    {content : Option Netlist} (hcontent : ∀ x ∈ content, x.IsSound limits.nodeCount) :
    (nets.store slot content).IsSound limits where
  size := Array.size_setIfInBounds.trans h.size
  live := h.live
  saved := h.saved
  stored x hx := by
    rcases Array.mem_or_eq_of_mem_setIfInBounds hx with hx | hx
    · exact h.stored x hx
    · exact hcontent x hx.symm
  current := h.current

theorem Nets.IsSound.yields_handle {nets : Nets} (h : nets.IsSound limits) (r : Nets.Request) :
    Yields (Nets.IsSound limits) (nets.handle limits r) := by
  have hslot {slot : UInt8} {nets : Nets} (hnets : nets.IsSound limits)
      (hi : requireIndex "slot" slot limits.slots = .ok ()) :
      { nets with current := slot }.IsSound limits :=
    { hnets with current := .inr (requireIndex_eq_ok_iff.mp hi) }
  cases r with
  | connect a b persist =>
    refine .bind fun _ ha => .bind fun _ hb => .ite (fun _ => .error _) fun hne => .ok _ ?_
    exact h.update persist fun x hx => hx.insert (Link.isSound_between ha hb hne)
  | disconnect a b persist =>
    exact .bind fun _ _ => .bind fun _ _ => .ok _ (h.update persist fun x hx => hx.erase _)
  | clear persist => exact .ok _ (h.update persist fun _ _ => Netlist.isSound_empty _)
  | connected a b => exact .bind fun _ _ => .bind fun _ _ => .ok _ h
  | list | currentSlot => exact .ok _ h
  | loadSlot slot =>
    have hstored := h.stored_get slot
    have hloaded : { nets with live := nets.stored slot, saved := nets.stored slot }.IsSound
        limits := { h with live := hstored, saved := hstored }
    exact .bind fun _ hi => .ok _ (hslot hloaded hi)
  | saveSlot slot =>
    exact .bind fun _ hi => .ok _ (hslot (h.store slot fun x hx => Option.some.inj hx ▸ h.live) hi)
  | clearSlot slot => exact .bind fun _ _ => .ok _ (h.store slot nofun)

theorem Analog.IsSound.yields_handle {analog : Analog} (h : analog.IsSound limits)
    (r : Analog.Request) : Yields (Analog.IsSound limits) (analog.handle limits r) := by
  cases r with
  | dacSet channel volts persist =>
    refine .bind fun _ _ => .ite (fun _ => .ok _ ⟨?_, ?_, h.milliamps⟩) fun _ => .error _
    · exact Array.size_setIfInBounds.trans h.dac
    · cases persist
      · exact h.dacSaved
      · exact Array.size_setIfInBounds.trans h.dacSaved
  | _ => exact .bind fun _ _ => .ok _ h

theorem ConfigStore.keys_set (store : ConfigStore) (sectionName key value : String) :
    (store.set sectionName key value).keys = store.keys := by
  simp only [keys, set, List.map_map]
  refine List.map_congr_left fun entry _ => ?_
  simp only [Function.comp]
  split <;> rfl

theorem ConfigStore.yields_handle {store : ConfigStore} (h : store.keys = default.keys)
    (r : ConfigStore.Request) : Yields (·.keys = default.keys) (store.handle r) := by
  cases r with
  | get sectionName key =>
    simp only [handle]
    split
    · exact .ok _ h
    · exact .error _
  | set sectionName key value =>
    simp only [handle]
    split
    · exact .ok _ ((store.keys_set _ _ _).trans h)
    · exact .error _
  | reset => exact .ok _ rfl

theorem Target.yields_handle {target : Target} {baud : UInt32}
    (h : target.uartBaud = baud ∨ target.uartBaud ≠ 0) (r : Target.Request) :
    Yields (fun later => later.uartBaud = baud ∨ later.uartBaud ≠ 0) (target.handle r) := by
  cases r with
  | reset => exact .bind fun _ _ => .ok _ h
  | flash => exact .ite (fun _ => .bind fun _ _ => .ok _ h) fun _ => .error _
  | uartSetBaud value => exact .ite (fun _ => .error _) fun hne => .ok _ (.inr hne)
  | _ => exact .ok _ h

theorem Probe.yields_handle {probe : Probe}
    (h : ∀ node ∈ probe.node, 1 ≤ node.toNat ∧ node.toNat ≤ limits.nodeCount.toNat)
    (r : Probe.Request) :
    Yields (fun later => ∀ node ∈ later.node,
      1 ≤ node.toNat ∧ node.toNat ≤ limits.nodeCount.toNat) (probe.handle limits r) := by
  cases r with
  | read =>
    simp only [handle]
    split <;> exact .ok _ h
  | simulate node =>
    refine .bind fun _ hnode => .ok _ ?_
    rintro _ ⟨⟩
    exact requireNode_eq_ok_iff.mp hnode

theorem DisplayMode.name_mem (mode : DisplayMode) : mode.name ∈ ["nets", "rails", "off"] := by
  cases mode <;> decide

variable {board : Board} {request : Request}

/-- A request that is answered keeps a board sound, and its limits as they are. -/
theorem IsSound.yields_handle (h : board.IsSound) (request : Request) :
    Yields (fun later => later.IsSound ∧ later.limits = board.limits) (board.handle request) := by
  cases request with
  | gpio r =>
    rw [Board.handle]
    exact (board.gpio.yields_handle r).refusing.replied fun _ hp => ⟨{ h with pins := hp.trans h.pins }, rfl⟩
  | nets r =>
    rw [Board.handle]
    exact (h.nets.yields_handle r).refusing.replied fun _ hp => ⟨{ h with nets := hp }, rfl⟩
  | analog r =>
    rw [Board.handle]
    exact (h.analog.yields_handle r).refusing.replied fun _ hp => ⟨{ h with analog := hp }, rfl⟩
  | config r =>
    rw [Board.handle]
    exact (ConfigStore.yields_handle h.config r).refusing.replied fun _ hp => ⟨{ h with config := hp }, rfl⟩
  | target r =>
    rw [Board.handle]
    exact (Target.yields_handle h.uartBaud r).replied fun _ hp => ⟨{ h with uartBaud := hp }, rfl⟩
  | probe r =>
    rw [Board.handle]
    exact (Probe.yields_handle h.probe r).refusing.replied fun _ hp => ⟨{ h with probe := hp }, rfl⟩
  | displayMode r =>
    rw [Board.handle]
    exact Yields.replied (P := fun _ => True) (fun _ _ _ => trivial) fun mode _ =>
      ⟨{ h with displayMode := mode.name_mem }, rfl⟩
  | wheel r =>
    rw [Board.handle]
    exact Yields.replied (P := fun _ => True) (fun _ _ _ => trivial) fun _ _ => ⟨{ h with }, rfl⟩
  | oled r =>
    rw [Board.handle]
    exact Yields.replied (P := fun _ => True) (fun _ _ _ => trivial) fun _ _ => ⟨{ h with }, rfl⟩
  | panel r =>
    rw [Board.handle]
    exact Yields.replied (P := fun _ => True) (fun _ _ _ => trivial) fun _ _ => ⟨{ h with }, rfl⟩

theorem IsSound.handle (h : board.IsSound) (request : Request) :
    (simulated.handle request board).2.IsSound ∧
      (simulated.handle request board).2.limits = board.limits := by
  have hyields := h.yields_handle request
  simp only [simulated]
  split
  · next reply later hok => exact hyields reply later hok
  · exact ⟨h, rfl⟩

/-! ## Boards as they are set up -/

theorem isSound_new (limits : Limits) : (Board.new limits).IsSound where
  pins := Array.size_replicate
  nets :=
    { size := Array.size_replicate
      live := Netlist.isSound_empty _
      saved := Netlist.isSound_empty _
      stored := fun content hcontent => by cases (Array.mem_replicate.mp hcontent).2
      current := .inl rfl }
  analog := ⟨Array.size_replicate, Array.size_replicate, Array.size_replicate⟩
  config := rfl
  probe := nofun
  displayMode := DisplayMode.name_mem _
  uartBaud := .inl rfl

theorem SetUp.isSound (h : board.SetUp) : board.IsSound := by
  induction h with
  | new limits => exact isSound_new limits
  | withReading channel volts _ ih =>
    exact { ih with analog := ⟨ih.analog.dac, ih.analog.dacSaved, ih.analog.milliamps⟩ }
  | withCurrent sensor milliamps _ ih =>
    refine { ih with analog := ⟨ih.analog.dac, ih.analog.dacSaved, ?_⟩ }
    exact Array.size_setIfInBounds.trans ih.analog.milliamps

/-! ## Sound boards changed in place -/

namespace InPlace

/-- What a board answers, as an operation in place gives it. -/
def ofOutcome (board : Board) : Except Stop (Reply × Board) → EStateM.Result Stop Board Reply
  | .ok (reply, later) => .ok reply later
  | .error stop => .error stop board

/-- An operation in place comes to what the board answers otherwise. -/
def Agrees (board : Board) (x : InPlace Reply) (outcome : Except Stop (Reply × Board)) : Prop :=
  x board = ofOutcome board outcome

theorem refusing_ite {p : Prop} [Decidable p] (outcome : Except Fault α) (fault : Fault) :
    refusing (if p then outcome else .error fault) =
      if p then refusing outcome else .error (.refused fault) := by
  split <;> rfl

theorem agrees_check {test : Board → Except Fault β} {f : β → InPlace Reply} {put : α → Board}
    {g : β → Except Fault (Reply × α)}
    (h : ∀ b, test board = .ok b → Agrees board (f b) (replied put (refusing (g b)))) :
    Agrees board (check test >>= f) (replied put (refusing (test board >>= g))) := by
  rw [Agrees, bind_apply, check_apply]
  cases htest : test board with
  | ok b => exact h b htest
  | error fault => rfl

theorem agrees_require {test : Board → Except Fault Unit} {fault : Fault} {p : Prop}
    [Decidable p] {x : InPlace Reply} {put : α → Board} {outcome : Except Stop (Reply × α)}
    (htest : test board = if p then .ok () else .error fault)
    (h : Agrees board x (replied put outcome)) :
    Agrees board (check test >>= fun _ => x)
      (replied put (if p then outcome else .error (.refused fault))) := by
  rw [Agrees, bind_apply, check_apply, htest]
  by_cases hp : p
  · rw [if_pos hp, if_pos hp]
    exact h
  · rw [if_neg hp, if_neg hp]
    rfl

theorem agrees_readNext (counter : Target → UInt32) (later : UInt32 → Target → Target) :
    Agrees board (readNext counter >>= fun next => changeTarget (later next))
      (replied ({ board with target := · })
        (increment (counter board.target) >>= fun next =>
          .ok (.done, later next board.target))) := by
  rw [Agrees, bind_apply, readNext_apply]
  cases increment (counter board.target) <;> rfl

theorem agrees_gpio (board : Board) (r : Gpio.Request) :
    Agrees board (gpio r) (board.handle (.gpio r)) := by
  rw [Board.handle]
  cases r <;> exact agrees_check fun _ _ => rfl

theorem exists_entry {xs : Array α} (h : index.toNat < xs.size) :
    ∃ x, xs[index.toNat]? = some x :=
  ⟨_, Array.getElem?_eq_getElem h⟩

theorem writeSlot_apply (h : index.toNat < board.nets.slots.size) (content : Option Netlist) :
    writeSlot index content board =
      .ok () { board with nets := board.nets.store index content } :=
  @writeEntry_apply _ (·.nets.slots) _ _ _ h content

theorem writeOutput_apply (h : index.toNat < board.analog.dac.size) (volts : Float) :
    writeOutput index volts board = .ok () { board with analog :=
      { board.analog with dac := board.analog.dac.setIfInBounds index.toNat volts } } :=
  @writeEntry_apply _ (·.analog.dac) _ _ _ h volts

theorem writeSavedOutput_apply (h : index.toNat < board.analog.dacSaved.size) (volts : Float) :
    writeSavedOutput index volts board = .ok () { board with analog :=
      { board.analog with dacSaved := board.analog.dacSaved.setIfInBounds index.toNat volts } } :=
  @writeEntry_apply _ (·.analog.dacSaved) _ _ _ h volts

theorem writeOutputs_apply (h : board.IsSound)
    (hi : index.toNat < board.limits.dacChannels.toNat) (volts : Float) (persist : Bool) :
    writeOutputs index volts persist board =
      .ok () { board with analog := board.analog.setOutput index volts persist } := by
  rw [writeOutputs, bind_apply, writeOutput_apply (h.analog.dac ▸ hi)]
  cases persist with
  | false => rfl
  | true => exact writeSavedOutput_apply (h.analog.dacSaved ▸ hi) volts

theorem agrees_nets (h : board.IsSound) (r : Nets.Request) :
    Agrees board (nets r) (board.handle (.nets r)) := by
  have hslot {slot : UInt8} (hi : requireIndex "slot" slot board.limits.slots = .ok ()) :
      slot.toNat < board.nets.slots.size := h.nets.size ▸ requireIndex_eq_ok_iff.mp hi
  rw [Board.handle]
  cases r with
  | connect a b persist =>
    refine agrees_check fun _ _ => agrees_check fun _ _ => ?_
    split
    · rfl
    · cases persist <;> rfl
  | disconnect a b persist =>
    refine agrees_check fun _ _ => agrees_check fun _ _ => ?_
    cases persist <;> rfl
  | clear persist => cases persist <;> rfl
  | connected a b => exact agrees_check fun _ _ => agrees_check fun _ _ => rfl
  | list | currentSlot => rfl
  | loadSlot slot =>
    refine agrees_check fun _ hi => ?_
    obtain ⟨content, hcontent⟩ := exists_entry (hslot hi)
    have hstored : board.nets.stored slot = content.getD {} := by
      rw [Nets.stored, hcontent]
      rfl
    rw [Agrees, bind_apply, readEntry_apply hcontent, hstored]
    rfl
  | saveSlot slot =>
    refine agrees_check fun _ hi => ?_
    change (writeSlot slot (some board.nets.live) >>= fun _ => selectSlot slot) board = _
    rw [bind_apply, writeSlot_apply (hslot hi)]
    rfl
  | clearSlot slot =>
    refine agrees_check fun _ hi => ?_
    rw [Agrees, bind_apply, writeSlot_apply (hslot hi)]
    rfl

theorem agrees_analog (h : board.IsSound) (r : Analog.Request) :
    Agrees board (analog r) (board.handle (.analog r)) := by
  rw [Board.handle]
  cases r with
  | dacSet channel volts persist =>
    refine agrees_check fun _ hi => ?_
    rw [refusing_ite]
    refine agrees_require rfl ?_
    rw [Agrees, bind_apply, writeOutputs_apply h (requireIndex_eq_ok_iff.mp hi)]
    rfl
  | dacGet channel =>
    refine agrees_check fun _ hi => ?_
    obtain ⟨volts, hvolts⟩ := exists_entry (h.analog.dac ▸ requireIndex_eq_ok_iff.mp hi)
    have houtput : board.analog.output channel = volts := by
      rw [Analog.output, hvolts]
      rfl
    rw [Agrees, bind_apply, readEntry_apply hvolts, houtput]
    rfl
  | adcGet channel => exact agrees_check fun _ _ => rfl
  | sense sensor quantity =>
    refine agrees_check fun _ hi => ?_
    obtain ⟨milliamps, hm⟩ := exists_entry (h.analog.milliamps ▸ requireIndex_eq_ok_iff.mp hi)
    have hmeasure : board.analog.measure sensor quantity =
        measured milliamps (board.analog.output sensor) quantity := by
      cases quantity <;> simp only [Analog.measure, hm] <;> rfl
    rw [Agrees, bind_apply, readEntry_apply hm, hmeasure]
    rfl

theorem agrees_config (board : Board) (r : ConfigStore.Request) :
    Agrees board (config r) (board.handle (.config r)) := by
  rw [Board.handle]
  cases r with
  | get sectionName key =>
    rw [Agrees, config, bind_apply, check_apply, configValue, ConfigStore.handle]
    cases board.config.get? sectionName key <;> rfl
  | set sectionName key value =>
    rw [Agrees, config, bind_apply, check_apply, configValue, ConfigStore.handle]
    cases board.config.get? sectionName key <;> rfl
  | reset => rfl

theorem agrees_target (board : Board) (r : Target.Request) :
    Agrees board (target r) (board.handle (.target r)) := by
  rw [Board.handle]
  cases r with
  | reset => exact agrees_readNext _ _
  | flash => exact agrees_require rfl (agrees_readNext _ _)
  | uartSetBaud baud =>
    rw [Agrees, target, Target.handle]
    split <;> rfl
  | _ => rfl

theorem agrees_probe (board : Board) (r : Probe.Request) :
    Agrees board (probe r) (board.handle (.probe r)) := by
  rw [Board.handle]
  cases r with
  | read =>
    change EStateM.Result.ok (Reply.int (touched board.probe)) board = _
    rw [touched, Probe.handle]
    cases board.probe.node <;> rfl
  | simulate node => exact agrees_check fun _ _ => rfl

theorem agrees_oled (board : Board) (r : Oled.Request) :
    Agrees board (oled r) (board.handle (.oled r)) := by
  rw [Board.handle]
  cases r with
  | print text =>
    rw [Oled.handle, refusing_ite]
    exact agrees_require rfl rfl
  | _ => rfl

theorem agrees_displayMode (board : Board) (r : DisplayMode.Request) :
    Agrees board (displayMode r) (board.handle (.displayMode r)) := by
  rw [Board.handle]
  cases r with
  | set name =>
    rw [Agrees, displayMode, DisplayMode.handle]
    cases DisplayMode.ofName? name <;> rfl
  | get => rfl

end InPlace

/-- On a sound board, a request in place comes to what the board answers otherwise. -/
theorem IsSound.perform_eq (h : board.IsSound) (request : Request) :
    InPlace.perform request board = InPlace.ofOutcome board (board.handle request) := by
  cases request with
  | gpio r => exact InPlace.agrees_gpio board r
  | nets r => exact InPlace.agrees_nets h r
  | analog r => exact InPlace.agrees_analog h r
  | config r => exact InPlace.agrees_config board r
  | target r => exact InPlace.agrees_target board r
  | probe r => exact InPlace.agrees_probe board r
  | wheel r => cases r <;> rfl
  | oled r => exact InPlace.agrees_oled board r
  | displayMode r => exact InPlace.agrees_displayMode board r
  | panel r => cases r <;> rfl

/-! ## Stops -/

section

variable {target : Target} {count next : UInt32} {times fewer : Nat} {stop : Stop}

theorem toNat_of_increment (h : increment count = .ok next) : next.toNat = count.toNat + 1 := by
  unfold increment at h
  split at h
  · next hlt =>
    cases h
    exact (UInt32.toNat_add count 1).trans (Nat.mod_eq_of_lt hlt)
  · cases h

theorem overflow_of_increment (h : increment count = .error stop) :
    stop = .overflow ∧ ¬count.toNat + 1 < UInt32.size := by
  unfold increment at h
  split at h
  · cases h
  · next hfull =>
    cases h
    exact ⟨rfl, hfull⟩

/-- Both counters of a target can go up this many times. -/
def Target.HasRoom (target : Target) (times : Nat) : Prop :=
  target.resets.toNat + times < UInt32.size ∧ target.flashes.toNat + times < UInt32.size

theorem Target.HasRoom.mono (h : target.HasRoom times) (hle : fewer ≤ times) :
    target.HasRoom fewer :=
  ⟨(Nat.add_le_add_left hle _).trans_lt h.1, (Nat.add_le_add_left hle _).trans_lt h.2⟩

theorem Target.stop_of_handle {r : Target.Request} (h : target.handle r = .error stop) :
    (∃ fault, stop = .refused fault) ∨ stop = .overflow ∧ ¬target.HasRoom 1 := by
  have hnext {count : UInt32} {answer : UInt32 → Reply × Target}
      (h : (increment count >>= fun next => .ok (answer next)) = .error stop) :
      stop = .overflow ∧ ¬count.toNat + 1 < UInt32.size := by
    cases hcount : increment count with
    | ok next =>
      rw [hcount] at h
      cases h
    | error stop' =>
      rw [hcount] at h
      cases h
      exact overflow_of_increment hcount
  cases r with
  | reset => exact .inr ((hnext h).imp_right fun hroom hall => hroom hall.1)
  | flash =>
    rw [handle] at h
    split at h
    · exact .inr ((hnext h).imp_right fun hroom hall => hroom hall.2)
    · cases h
      exact .inl ⟨_, rfl⟩
  | uartSetBaud baud =>
    rw [handle] at h
    split at h
    · cases h
      exact .inl ⟨_, rfl⟩
    · cases h
  | uartConnect | uartDisconnect | uartGetBaud => cases h

/-- A board that gives no reply refuses the request, unless a counter of its target is full. -/
theorem stop_of_handle (h : board.handle request = .error stop) :
    (∃ fault, stop = .refused fault) ∨
      stop = .overflow ∧ (∃ r, request = .target r) ∧ ¬board.target.HasRoom 1 := by
  have hrefused {α : Type} {put : α → Board} {outcome : Except Fault (Reply × α)}
      (h : replied put (refusing outcome) = .error stop) : ∃ fault, stop = .refused fault := by
    cases outcome with
    | ok answered => cases h
    | error fault =>
      cases h
      exact ⟨fault, rfl⟩
  cases request
  case target r =>
    rw [Board.handle] at h
    cases hr : board.target.handle r with
    | ok answered =>
      rw [hr] at h
      cases h
    | error stop' =>
      rw [hr] at h
      cases h
      exact (Target.stop_of_handle hr).imp_right (.imp_right fun hroom => ⟨⟨r, rfl⟩, hroom⟩)
  all_goals
    rw [Board.handle] at h
    exact .inl (hrefused h)

end

theorem InPlace.ofOutcome_ne_outOfBounds (board : Board) (request : Request) (later : Board) :
    ofOutcome board (board.handle request) ≠ .error .outOfBounds later := by
  intro hstop
  cases hr : board.handle request with
  | ok answered =>
    rw [hr] at hstop
    cases hstop
  | error stop =>
    rw [hr] at hstop
    cases hstop
    rcases stop_of_handle hr with ⟨fault, hfault⟩ | ⟨hoverflow, -⟩
    · cases hfault
    · cases hoverflow

theorem InPlace.after_perform (h : board.IsSound) (request : Request) :
    after (perform request) board = (simulated.handle request board).2 := by
  rw [after, h.perform_eq request]
  simp only [simulated]
  cases board.handle request <;> rfl

/-! ## Runs -/

/-- A board after some requests, whatever it answered them. -/
def afterAll (board : Board) (requests : List Request) : Board :=
  requests.foldl (fun board request => (simulated.handle request board).2) board

/-- A board after the same requests were answered in place. -/
def InPlace.afterAll (board : Board) (requests : List Request) : Board :=
  requests.foldl (fun board request => after (perform request) board) board

theorem IsSound.afterAll (h : board.IsSound) (requests : List Request) :
    (board.afterAll requests).IsSound ∧ (board.afterAll requests).limits = board.limits := by
  induction requests generalizing board with
  | nil => exact ⟨h, rfl⟩
  | cons request requests ih =>
    obtain ⟨hlater, hlimits⟩ := h.handle request
    exact ⟨(ih hlater).1, (ih hlater).2.trans hlimits⟩

theorem InPlace.afterAll_eq (h : board.IsSound) (requests : List Request) :
    afterAll board requests = board.afterAll requests := by
  induction requests generalizing board with
  | nil => rfl
  | cons request requests ih =>
    rw [afterAll, List.foldl_cons, after_perform h]
    exact ih (h.handle request).1

/-- However a board is set up and whatever is asked of it then, its limits stay as they are and
bound what it holds. So a request that changes the board in place finds every entry that it looks
for, and comes to what the board answers otherwise. -/
theorem limits_hold_after_requests (h : board.SetUp) (requests : List Request) :
    let later := board.afterAll requests
    later.limits = board.limits ∧ later.IsSound ∧ InPlace.afterAll board requests = later ∧
      ∀ request, InPlace.perform request later = InPlace.ofOutcome later (later.handle request) ∧
        ∀ stopped, InPlace.perform request later ≠ .error .outOfBounds stopped := by
  intro later
  obtain ⟨hlater, hlimits⟩ := h.isSound.afterAll requests
  refine ⟨hlimits, hlater, InPlace.afterAll_eq h.isSound requests, fun request => ?_⟩
  have hperform := hlater.perform_eq request
  refine ⟨hperform, fun stopped => ?_⟩
  rw [hperform]
  exact InPlace.ofOutcome_ne_outOfBounds later request stopped

/-- Without slots, the only slot in use is the first one, which cannot be saved. -/
theorem limits_hold_without_slots :
    let board := ((Board.new { slots := 0 }).withReading 1 0.0).withCurrent 0 0.0
    let later := board.afterAll [.nets (.connect 2 1 true), .nets (.saveSlot 0)]
    board.SetUp ∧ later.IsSound ∧ later.nets.live.links = [⟨1, 2⟩] ∧ later.nets.slots.size = 0 ∧
      ∀ stopped, InPlace.perform (.nets (.saveSlot 0)) later ≠ .error .outOfBounds stopped := by
  intro board later
  have hboard : board.SetUp := ((SetUp.new _).withReading 1 0.0).withCurrent 0 0.0
  obtain ⟨-, hlater, -, hnext⟩ :=
    limits_hold_after_requests hboard [.nets (.connect 2 1 true), .nets (.saveSlot 0)]
  exact ⟨hboard, hlater, rfl, hlater.nets.size, (hnext _).2⟩

end BenchConsole.Board
