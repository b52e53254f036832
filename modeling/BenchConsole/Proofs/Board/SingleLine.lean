import BenchConsole.Proofs.Board.Isolation
import BenchConsole.Proofs.Text.Lines

/-!
# Boards that answer in single lines

Numbers and words are single lines. So what a board answers is one as well, a reply or a fault,
unless it repeats a text: a fault may repeat one of the request (`Request.texts`), and a reply may
be a value of the config table. A board whose table holds single lines answers requests of single
lines in single lines (`inOneLine_handle`), and its table stays as it should
(`ConfigStore.HoldsLines.handle`).
-/

namespace BenchConsole

open Text Number

variable {α : Type} {cs : List Char} {s t : String}

/-! ## Single lines -/

namespace Text

/-- `IsOneLine` on strings. -/
def SingleLine (s : String) : Prop := IsOneLine s.toList

instance : Decidable (SingleLine s) := inferInstanceAs (Decidable (IsOneLine _))

theorem isOneLine_append_iff {as bs : List Char} :
    IsOneLine (as ++ bs) ↔ IsOneLine as ∧ IsOneLine bs :=
  List.forall_mem_append

@[simp] theorem singleLine_append_iff : SingleLine (s ++ t) ↔ SingleLine s ∧ SingleLine t := by
  rw [SingleLine, String.toList_append]
  exact isOneLine_append_iff

@[simp] theorem singleLine_ofList_iff : SingleLine (String.ofList cs) ↔ IsOneLine cs := by
  rw [SingleLine, String.toList_ofList]

theorem IsOneLine.of_subset {ds : List Char} (h : IsOneLine cs) (hs : ds ⊆ cs) : IsOneLine ds :=
  fun c hc => h c (hs hc)

theorem isOneLine_of_isWord (h : IsWord cs) : IsOneLine cs :=
  isOneLine_of_no_blank fun c hc => isBlank_eq_false_of_isWordChar (h c hc)

theorem isOneLine_of_isNumeralChar (h : ∀ c ∈ cs, isNumeralChar c) : IsOneLine cs :=
  isOneLine_of_no_blank fun c hc => isBlank_eq_false_of_isNumeralChar (h c hc)

theorem singleLine_toString_nat (n : Nat) : SingleLine (toString n) := by
  rw [Nat.toString_eq_ofList_toDigits, singleLine_ofList_iff]
  exact isOneLine_of_isNumeralChar fun c hc => isNumeralChar_of_isDigit (isDigit_toDigits n c hc)

theorem singleLine_toString_int (n : Int) : SingleLine (toString n) := by
  cases n with
  | ofNat n => exact singleLine_toString_nat n
  | negSucc n =>
    change SingleLine ("-" ++ toString (n + 1))
    exact singleLine_append_iff.mpr ⟨by decide, singleLine_toString_nat _⟩

theorem isOneLine_fixedText (x : Float) (k : Nat) : IsOneLine (fixedText (k + 1) x) := by
  cases hx : x.isFinite with
  | true => exact isOneLine_of_isNumeralChar (isNumeralChar_fixedText hx k).1
  | false =>
    rw [fixedText, nameOr]
    rcases isNaN_or_isInf hx with h | h
    · rw [if_pos h]
      decide
    · rw [if_pos h]
      split
      · decide
      · cases Binary64.isNegative x <;> decide

end Text

namespace Board

theorem singleLine_fixed (x : Float) (k : Nat) : SingleLine (fixed (k + 1) x) :=
  singleLine_ofList_iff.mpr (isOneLine_fixedText x k)

theorem Netlist.singleLine_text (nets : Netlist) : SingleLine nets.text := by
  by_cases h : nets.links = []
  · rw [text, h]
    decide
  · exact isOneLine_of_no_blank fun c hc => isBlank_of_mem_text h hc

/-! ## Answers -/

/-- A reply is told in one line. -/
def Reply.InOneLine (reply : Reply) : Prop :=
  ∀ text ∈ Response.valueText? reply, SingleLine text

/-- What is answered is told in one line, be it a reply or a fault. -/
def InOneLine : Except Fault (Reply × α) → Prop
  | .ok (reply, _) => reply.InOneLine
  | .error fault => SingleLine fault.message

def Reply.isText : Reply → Bool
  | .text _ => true
  | _ => false

/-- Every reply is told in one line, but for a text that is none. -/
theorem Reply.inOneLine_of_isText {reply : Reply} (h : reply.isText = false) :
    reply.InOneLine := by
  intro text ht
  have hmeasured (x : Float) {unit : String} (hunit : SingleLine unit) :
      SingleLine (fixed 3 x ++ unit) := singleLine_append_iff.mpr ⟨singleLine_fixed x 2, hunit⟩
  cases reply with
  | done => cases ht
  | level high =>
    obtain rfl := Option.some.inj ht
    cases high <;> decide
  | flag holds =>
    obtain rfl := Option.some.inj ht
    cases holds <;> decide
  | int v =>
    obtain rfl := Option.some.inj ht
    exact singleLine_ofList_iff.mpr (isOneLine_of_isNumeralChar (isNumeralChar_intText _))
  | volts x | milliamps x | milliwatts x =>
    obtain rfl := Option.some.inj ht
    exact hmeasured x (by decide)
  | text s => cases h

namespace InOneLine

variable {β : Type} {reply : Reply} {state : α} {fault : Fault}

theorem text {s : String} (h : SingleLine s) :
    InOneLine (.ok (.text s, state) : Except Fault (Reply × α)) :=
  fun _ hs => Option.some.inj hs ▸ h

theorem ok (h : reply.isText = false) :
    InOneLine (.ok (reply, state) : Except Fault (Reply × α)) :=
  Reply.inOneLine_of_isText h

theorem error (h : SingleLine fault.message) :
    InOneLine (.error fault : Except Fault (Reply × α)) :=
  h

theorem bind {x : Except Fault β} {f : β → Except Fault (Reply × α)}
    (hx : ∀ fault, x = .error fault → SingleLine fault.message) (hf : ∀ b, InOneLine (f b)) :
    InOneLine (x >>= f) := by
  cases x with
  | error fault => exact hx fault rfl
  | ok b => exact hf b

theorem ite {p : Prop} [Decidable p] {x y : Except Fault (Reply × α)} (hx : InOneLine x)
    (hy : InOneLine y) : InOneLine (if p then x else y) := by
  split
  · exact hx
  · exact hy

theorem refusing {outcome : Except Fault (Reply × α)} (h : InOneLine outcome) :
    InOneLine ((Board.refusing outcome).mapError Stop.fault) := by
  cases outcome with
  | error fault => exact h
  | ok answered => exact h

theorem replied {outcome : Except Stop (Reply × α)} (h : InOneLine (outcome.mapError Stop.fault))
    (put : α → Board) : InOneLine ((Board.replied put outcome).mapError Stop.fault) := by
  cases outcome with
  | error stop => exact h
  | ok answered => exact h

end InOneLine

section

variable {limits : Limits} {fault : Fault}

theorem singleLine_outOfRange {what : String} (h : SingleLine what) (index limit : Int) :
    SingleLine (Fault.outOfRange what index limit).message := by
  unfold Fault.message
  simp only [singleLine_append_iff, h, singleLine_toString_int]
  decide

theorem singleLine_requireNode (node : UInt16) :
    ∀ fault, requireNode limits node = .error fault → SingleLine fault.message := by
  intro fault h
  unfold requireNode at h
  split at h
  · cases h
    exact singleLine_outOfRange (by decide) _ _
  · cases h

theorem singleLine_requireIndex {what : String} (hwhat : SingleLine what) (index limit : UInt8) :
    ∀ fault, requireIndex what index limit = .error fault → SingleLine fault.message := by
  intro fault h
  unfold requireIndex at h
  split at h
  · cases h
    exact singleLine_outOfRange hwhat _ _
  · cases h

theorem Gpio.singleLine_pin (gpio : Gpio) (index : UInt8) :
    ∀ fault, gpio.pin index = .error fault → SingleLine fault.message := by
  intro fault h
  unfold pin at h
  split at h
  · cases h
  · cases h
    exact singleLine_outOfRange (by decide) _ _

theorem Gpio.inOneLine_handle (gpio : Gpio) (r : Gpio.Request) : InOneLine (gpio.handle r) := by
  cases r with
  | get index => exact .bind (gpio.singleLine_pin index) fun _ => .ok rfl
  | set index | direction index | pulls index =>
    exact .bind (gpio.singleLine_pin index) fun _ => .ok rfl

theorem Nets.inOneLine_handle (nets : Nets) (r : Nets.Request) :
    InOneLine (nets.handle limits r) := by
  have hname : SingleLine "slot" := by decide
  have hslot (slot : UInt8) := singleLine_requireIndex hname slot limits.slots
  cases r with
  | connect a b persist =>
    refine .bind (singleLine_requireNode a) fun _ => .bind (singleLine_requireNode b) fun _ =>
      .ite (.error ?_) (.ok rfl)
    unfold Fault.message
    simp only [singleLine_append_iff, singleLine_toString_nat]
    decide
  | disconnect a b persist | connected a b =>
    exact .bind (singleLine_requireNode a) fun _ =>
      .bind (singleLine_requireNode b) fun _ => .ok rfl
  | clear persist | currentSlot => exact .ok rfl
  | list => exact .text nets.live.singleLine_text
  | loadSlot slot | saveSlot slot | clearSlot slot => exact .bind (hslot slot) fun _ => .ok rfl

theorem Analog.inOneLine_handle (analog : Analog) (r : Analog.Request) :
    InOneLine (analog.handle limits r) := by
  cases r with
  | dacSet channel volts persist =>
    refine .bind (singleLine_requireIndex (by decide) _ _) fun _ => .ite (.ok rfl) (.error ?_)
    unfold Fault.message
    simp only [singleLine_append_iff, singleLine_fixed]
    decide
  | dacGet channel | adcGet channel =>
    exact .bind (singleLine_requireIndex (by decide) _ _) fun _ => .ok rfl
  | sense sensor quantity =>
    refine .bind (singleLine_requireIndex (by decide) _ _) fun _ => .ok ?_
    cases quantity <;> rfl

theorem Target.inOneLine_handle (target : Target) (r : Target.Request) :
    InOneLine ((target.handle r).mapError Stop.fault) := by
  have hcount (count : UInt32) {later : UInt32 → Target} :
      InOneLine ((increment count >>= fun next => .ok (.done, later next)).mapError Stop.fault) := by
    cases hnext : increment count with
    | ok next => exact .ok rfl
    | error stop =>
      obtain ⟨rfl, -⟩ := overflow_of_increment hnext
      exact .error (by decide)
  cases r with
  | reset => exact hcount target.resets
  | flash =>
    rw [Target.handle]
    split
    · exact hcount target.flashes
    · exact .error (by decide)
  | uartSetBaud baud =>
    rw [Target.handle]
    split
    · exact .error (by decide)
    · exact .ok rfl
  | uartConnect | uartDisconnect | uartGetBaud => exact .ok rfl

theorem Probe.inOneLine_handle (probe : Probe) (r : Probe.Request) :
    InOneLine (probe.handle limits r) := by
  cases r with
  | read =>
    simp only [Probe.handle]
    split
    · exact .ok rfl
    · exact .ok rfl
  | simulate node => exact .bind (singleLine_requireNode node) fun _ => .ok rfl

theorem Wheel.inOneLine_handle (wheel : Wheel) (r : Wheel.Request) :
    InOneLine (wheel.handle r) := by
  cases r <;> exact .ok rfl

theorem Panel.inOneLine_handle (panel : Panel) (r : Panel.Request) :
    InOneLine (panel.handle r) := by
  cases r <;> exact .ok rfl

theorem Oled.inOneLine_handle (oled : Oled) (r : Oled.Request) : InOneLine (oled.handle r) := by
  cases r with
  | print text => exact .ite (.ok rfl) (.error (by decide))
  | clear | connect | disconnect => exact .ok rfl

end

/-! ## Texts of requests -/

/-- The texts that a request takes along. -/
def Request.texts : Request → List String
  | .config (.get sectionName key) => [sectionName, key]
  | .config (.set sectionName key value) => [sectionName, key, value]
  | .oled (.print text) => [text]
  | .displayMode (.set name) => [name]
  | _ => []

/-- The value that a request reads from a table, if it reads one. -/
def Request.reads? (store : ConfigStore) : Request → Option String
  | .config (.get sectionName key) => store.get? sectionName key
  | _ => none

variable {board : Board} {request : Request}

theorem DisplayMode.inOneLine_handle (mode : DisplayMode) {r : DisplayMode.Request}
    (ht : ∀ text ∈ Request.texts (.displayMode r), SingleLine text) :
    InOneLine (mode.handle r) := by
  cases r with
  | set name =>
    have hname : SingleLine name := ht name (by simp [Request.texts])
    simp only [DisplayMode.handle]
    split
    · exact .ok rfl
    · refine .error ?_
      unfold Fault.message
      simp only [singleLine_append_iff, hname]
      decide
  | get =>
    refine .text ?_
    cases mode <;> decide

theorem singleLine_unknownConfigKey {sectionName key : String} (hs : SingleLine sectionName)
    (hk : SingleLine key) : SingleLine (Fault.unknownConfigKey sectionName key).message := by
  unfold Fault.message
  simp only [singleLine_append_iff, hs, hk]
  decide

theorem ConfigStore.inOneLine_handle (store : ConfigStore) {r : ConfigStore.Request}
    (ht : ∀ text ∈ Request.texts (.config r), SingleLine text)
    (hread : ∀ value ∈ Request.reads? store (.config r), SingleLine value) :
    InOneLine (store.handle r) := by
  cases r with
  | get sectionName key =>
    have hs : SingleLine sectionName := ht _ (by simp [Request.texts])
    have hk : SingleLine key := ht _ (by simp [Request.texts])
    simp only [ConfigStore.handle]
    cases hget : store.get? sectionName key with
    | some value => exact .text (hread value hget)
    | none => exact .error (singleLine_unknownConfigKey hs hk)
  | set sectionName key value =>
    have hs : SingleLine sectionName := ht _ (by simp [Request.texts])
    have hk : SingleLine key := ht _ (by simp [Request.texts])
    simp only [ConfigStore.handle]
    cases store.get? sectionName key with
    | some previous => exact .ok rfl
    | none => exact .error (singleLine_unknownConfigKey hs hk)
  | reset => exact .ok rfl

/-- What a board answers is told in one line, if the texts of the request are single lines, and what
it reads from the config table is one. -/
theorem inOneLine_handle (ht : ∀ text ∈ request.texts, SingleLine text)
    (hread : ∀ value ∈ request.reads? board.config, SingleLine value) :
    InOneLine ((board.handle request).mapError Stop.fault) := by
  rw [handle_eq]
  refine InOneLine.replied ?_ _
  cases request with
  | gpio r => exact (board.gpio.inOneLine_handle r).refusing
  | nets r => exact (board.nets.inOneLine_handle r).refusing
  | analog r => exact (board.analog.inOneLine_handle r).refusing
  | config r => exact (board.config.inOneLine_handle ht hread).refusing
  | target r => exact board.target.inOneLine_handle r
  | probe r => exact (board.probe.inOneLine_handle r).refusing
  | wheel r => exact (board.wheel.inOneLine_handle r).refusing
  | oled r => exact (board.oled.inOneLine_handle r).refusing
  | displayMode r => exact (board.displayMode.inOneLine_handle ht).refusing
  | panel r => exact (board.panel.inOneLine_handle r).refusing

/-! ## The config table -/

/-- Every value of the table is a single line. -/
def ConfigStore.HoldsLines (store : ConfigStore) : Prop :=
  ∀ entry ∈ store.entries, SingleLine entry.value

namespace ConfigStore.HoldsLines

variable {store : ConfigStore}

theorem reads (h : store.HoldsLines) (request : Board.Request) :
    ∀ value ∈ request.reads? store, SingleLine value := by
  intro value hvalue
  unfold Request.reads? at hvalue
  split at hvalue
  · obtain ⟨entry, hfind, rfl⟩ := Option.map_eq_some_iff.mp hvalue
    exact h entry (List.mem_of_find?_eq_some hfind)
  · cases hvalue

theorem default : ConfigStore.default.HoldsLines := by
  unfold HoldsLines
  decide

theorem yields_handle (h : store.HoldsLines) {r : ConfigStore.Request}
    (ht : ∀ text ∈ Request.texts (.config r), SingleLine text) :
    Yields HoldsLines (store.handle r) := by
  cases r with
  | get sectionName key =>
    simp only [ConfigStore.handle]
    split
    · exact .ok _ h
    · exact .error _
  | set sectionName key value =>
    simp only [ConfigStore.handle]
    split
    · refine .ok _ fun entry hentry => ?_
      obtain ⟨old, hold, rfl⟩ := List.mem_map.mp hentry
      split
      · exact ht value (by simp [Request.texts])
      · exact h old hold
    · exact .error _
  | reset => exact .ok _ default

/-- Requests of single lines keep the table so. -/
theorem handle {request : Board.Request} (h : board.config.HoldsLines)
    (ht : ∀ text ∈ request.texts, SingleLine text) :
    (simulated.handle request board).2.config.HoldsLines := by
  rw [simulated_handle, handle_eq, settle_replied]
  cases request with
  | config r => exact (h.yields_handle ht).refusing.settle h
  | _ => exact h

end ConfigStore.HoldsLines

theorem SetUp.holdsLines (h : board.SetUp) : board.config.HoldsLines := by
  induction h with
  | new limits => exact .default
  | withReading channel volts _ ih => exact ih
  | withCurrent sensor milliamps _ ih => exact ih

end Board

end BenchConsole
