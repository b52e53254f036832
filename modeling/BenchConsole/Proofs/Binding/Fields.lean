import BenchConsole.Proofs.Binding.Replay
import BenchConsole.Proofs.Command.Spelling

/-!
# Fields of requests

A request is written back as an instruction: the category and action that ask for it, and what each
of its fields holds, under the name of the parameter that the field is for (`Request.instruction`).
A datum says which values it stands for, and which one stands for a value that was not passed
(`Datum.Holds`). A binding asks for a request if the fields of its instruction are the places of the
binding, one by one and in order (`Binding.Asks`).

Reading a parameter gives a datum of its value (`Gives`, with a lemma for each way to read one), so
the request of a bound command is the one that it asks for (`Binding.IsBound.asks`). Integers are
the same numbers in the field: those that would not fit are refused, none wraps.
-/

namespace BenchConsole

open Text Board

/-! ## Instructions -/

/-- What a field of a request holds. -/
inductive Datum where
  | integer (n : Int)
  | number (x : Float)
  /-- A flag or a logic level. -/
  | truth (holds : Bool)
  | text (s : String)
  /-- A text in lower case. -/
  | lowered (s : String)
  /-- What one of these words names, in any case of its letters. -/
  | word (known : List String)

namespace Datum

/-- The datum is what a value stands for. -/
def StandsFor : Datum → Literal → Prop
  | integer n, .int v => v.toInt = n
  | integer _, _ => False
  | number x, v => v.number? = some x
  | truth holds, v => v.level? = some holds
  | text s, v => v.plain = s
  | lowered s, v => String.ofList (lower v.plain.toList) = s
  | word known, v => ∃ word ∈ known, sameName word v.plain

/-- The datum stands for a value that was not passed. -/
def IsDefault : Datum → Prop
  | integer n => n = 0
  | truth holds => holds = true
  | _ => False

def Holds (d : Datum) : Option Literal → Prop
  | some v => d.StandsFor v
  | none => d.IsDefault

end Datum

/-- What asks for a request: an action of a category, with a datum for each parameter. -/
structure Instruction where
  category : Category
  action : Action
  fields : List (String × Datum) := []

/-- The words that name a direction. -/
def Board.Direction.words : Direction → List String
  | .input => ["input", "in"]
  | .output => ["output", "out"]

/-- The words that name a pull. -/
def Board.Pull.words : Pull → List String
  | .none => ["none", "off"]
  | .up => ["up"]
  | .down => ["down"]

/-- The action that measures a quantity. -/
def Board.Quantity.action : Quantity → Action
  | .current => .current
  | .shuntVoltage => .shuntVoltage
  | .busVoltage => .busVoltage
  | .power => .power

/-- The instruction of a request, with all that the request holds. -/
def Board.Request.instruction : Request → Instruction
  | .gpio (.set pin high) => ⟨.gpio, .set, [("pin", .integer pin.toNat), ("value", .truth high)]⟩
  | .gpio (.get pin) => ⟨.gpio, .get, [("pin", .integer pin.toNat)]⟩
  | .gpio (.direction pin direction) =>
    ⟨.gpio, .direction, [("pin", .integer pin.toNat), ("direction", .word direction.words)]⟩
  | .gpio (.pulls pin pull) =>
    ⟨.gpio, .pulls, [("pin", .integer pin.toNat), ("pull", .word pull.words)]⟩
  | .nets (.connect a b persist) =>
    ⟨.nodes, .connect,
      [("a", .integer a.toNat), ("b", .integer b.toNat), ("save", .truth persist)]⟩
  | .nets (.disconnect a b persist) =>
    ⟨.nodes, .disconnect,
      [("a", .integer a.toNat), ("b", .integer b.toNat), ("save", .truth persist)]⟩
  | .nets (.clear persist) => ⟨.nodes, .clear, [("save", .truth persist)]⟩
  | .nets (.connected a b) =>
    ⟨.nodes, .check, [("a", .integer a.toNat), ("b", .integer b.toNat)]⟩
  | .nets .list => ⟨.display, .print, []⟩
  | .nets (.loadSlot slot) => ⟨.slot, .load, [("slot", .integer slot.toNat)]⟩
  | .nets (.saveSlot slot) => ⟨.slot, .save, [("slot", .integer slot.toNat)]⟩
  | .nets (.clearSlot slot) => ⟨.slot, .clear, [("slot", .integer slot.toNat)]⟩
  | .nets .currentSlot => ⟨.slot, .get, []⟩
  | .analog (.dacSet channel volts persist) =>
    ⟨.dac, .set,
      [("channel", .integer channel.toNat), ("voltage", .number volts), ("save", .truth persist)]⟩
  | .analog (.dacGet channel) => ⟨.dac, .get, [("channel", .integer channel.toNat)]⟩
  | .analog (.adcGet channel) => ⟨.adc, .get, [("channel", .integer channel.toNat)]⟩
  | .analog (.sense sensor quantity) =>
    ⟨.currentSense, quantity.action, [("sensor", .integer sensor.toNat)]⟩
  | .config (.get sectionName key) =>
    ⟨.config, .get, [("section", .text sectionName), ("key", .text key)]⟩
  | .config (.set sectionName key value) =>
    ⟨.config, .set, [("section", .text sectionName), ("key", .text key), ("value", .text value)]⟩
  | .config .reset => ⟨.config, .reset, []⟩
  | .target .reset => ⟨.target, .reset, []⟩
  | .target .flash => ⟨.target, .flash, []⟩
  | .target .uartConnect => ⟨.uart, .connect, []⟩
  | .target .uartDisconnect => ⟨.uart, .disconnect, []⟩
  | .target (.uartSetBaud baud) => ⟨.uart, .set, [("baud", .integer baud.toNat)]⟩
  | .target .uartGetBaud => ⟨.uart, .get, []⟩
  | .probe .read => ⟨.probe, .get, []⟩
  | .probe (.simulate node) => ⟨.probe, .simulate, [("node", .integer node.toNat)]⟩
  | .wheel .get => ⟨.wheel, .get, []⟩
  | .wheel (.simulate delta) => ⟨.wheel, .simulate, [("delta", .integer delta.toInt)]⟩
  | .oled (.print text) => ⟨.oled, .print, [("text", .text text)]⟩
  | .oled .clear => ⟨.oled, .clear, []⟩
  | .oled .connect => ⟨.oled, .connect, []⟩
  | .oled .disconnect => ⟨.oled, .disconnect, []⟩
  | .displayMode (.set name) => ⟨.display, .set, [("mode", .lowered name)]⟩
  | .displayMode .get => ⟨.display, .get, []⟩
  | .panel (.setBrightness level) => ⟨.panel, .set, [("brightness", .integer level.toNat)]⟩
  | .panel .getBrightness => ⟨.panel, .get, []⟩

/-- The request says what the binding says: the same action, and in its fields, one by one, what
the parameters have received. -/
structure Binding.Asks (b : Binding) (r : Request) : Prop where
  category : r.instruction.category = b.category
  action : r.instruction.action = b.action
  fields : List.Forall₂ (fun place field =>
    field.1 = place.parameter.name ∧ field.2.Holds place.value) b.places r.instruction.fields

variable {c : Command} {b : Binding} {parameters : List Parameter} {place : Place}
  {category : Category} {action : Action} {places : List Place} {name : String} {v : Literal}
  {r : Request}

/-! ## Reading -/

/-- If there is a result, it has a property. -/
def Gives {α : Type} (x : Except Failure α) (P : α → Prop) : Prop :=
  ∀ a, x = .ok a → P a

namespace Gives

variable {α β : Type} {P : α → Prop} {Q : β → Prop} {x : Except Failure α}
  {f : α → Except Failure β}

theorem ok {a : α} (h : P a) : Gives (.ok a) P := by
  rintro _ ⟨⟩
  exact h

theorem error (e : Failure) : Gives (.error e) P :=
  nofun

theorem bind (hx : Gives x P) (hf : ∀ a, P a → Gives (f a) Q) : Gives (x >>= f) Q := by
  intro b hb
  obtain ⟨a, ha, hb⟩ := bind_eq_ok_iff.mp hb
  exact hf a (hx a ha) b hb

theorem map {g : α → β} (hx : Gives x P) (hg : ∀ a, P a → Q (g a)) : Gives (x.map g) Q := by
  cases x with
  | ok a => exact ok (hg a (hx a rfl))
  | error e => exact error e

end Gives

namespace Binding

/-- What is read of a parameter as a datum. -/
def IsReadAs (b : Binding) (name : String) (d : Datum) : Prop :=
  d.Holds (b.value? name)

theorem isReadAs_of_value? {d : Datum} (hv : b.value? name = some v) (h : d.StandsFor v) :
    b.IsReadAs name d := by
  rw [IsReadAs, hv]
  exact h

theorem IsReadAs.exists_plain {s : String} (h : b.IsReadAs name (.text s)) :
    ∃ v, b.value? name = some v ∧ v.plain = s := by
  rw [IsReadAs] at h
  cases hv : b.value? name with
  | none =>
    rw [hv] at h
    exact h.elim
  | some v =>
    rw [hv] at h
    exact ⟨v, rfl, h⟩

theorem IsReadAs.lowered {s : String} (h : b.IsReadAs name (.text s)) :
    b.IsReadAs name (.lowered (String.ofList (lower s.toList))) := by
  obtain ⟨v, hv, rfl⟩ := h.exists_plain
  exact isReadAs_of_value? hv rfl

theorem IsReadAs.word {s : String} {known : List String} (h : b.IsReadAs name (.text s))
    (hs : ∃ word ∈ known, sameName word s) : b.IsReadAs name (.word known) := by
  obtain ⟨v, hv, rfl⟩ := h.exists_plain
  exact isReadAs_of_value? hv hs

/-- A flag that was not passed counts as set. -/
theorem Received.flag_isReadAs (h : b.Received ⟨name, .flag, false⟩) :
    b.IsReadAs name (.truth (b.flagOrTrue name)) := by
  rw [IsReadAs, flagOrTrue]
  cases hv : b.value? name with
  | none => rfl
  | some v =>
    have haccepts := h.accepted v hv
    cases v with
    | bool holds => rfl
    | int v => rfl
    | _ => cases haccepts

variable (b name)

theorem gives_int64 : Gives (b.int64 name) fun n => b.IsReadAs name (.integer n.toInt) := by
  intro n hn
  rw [int64] at hn
  split at hn
  · next v hv =>
    obtain rfl := Except.ok.inj hn
    exact isReadAs_of_value? hv rfl
  · cases hn

/-- An integer without a sign is the number that was passed, and it fits its field. -/
theorem gives_unsigned (width : Nat) : Gives (b.unsigned width name) fun n =>
    b.IsReadAs name (.integer n) ∧ n < Nat.pow 2 width := by
  refine (gives_int64 b name).bind fun v hv => ?_
  split
  · next hfits =>
    have hnat : (v.toInt.toNat : Int) = v.toInt := Int.toNat_of_nonneg hfits.1
    refine .ok ⟨hnat ▸ hv, ?_⟩
    omega
  · exact .error _

theorem gives_uint8 : Gives (b.uint8 name) fun n => b.IsReadAs name (.integer n.toNat) := by
  refine (gives_unsigned b name 8).map fun n ⟨hn, hfits⟩ => ?_
  rwa [UInt8.toNat_ofNat_of_lt' hfits]

theorem gives_uint16 : Gives (b.uint16 name) fun n => b.IsReadAs name (.integer n.toNat) := by
  refine (gives_unsigned b name 16).map fun n ⟨hn, hfits⟩ => ?_
  rwa [UInt16.toNat_ofNat_of_lt' hfits]

theorem gives_uint32 : Gives (b.uint32 name) fun n => b.IsReadAs name (.integer n.toNat) := by
  refine (gives_unsigned b name 32).map fun n ⟨hn, hfits⟩ => ?_
  rwa [UInt32.toNat_ofNat_of_lt' hfits]

theorem gives_uint8OrZero :
    Gives (b.uint8OrZero name) fun n => b.IsReadAs name (.integer n.toNat) := by
  unfold uint8OrZero
  split
  · exact gives_uint8 b name
  · next hv =>
    refine .ok ?_
    rw [IsReadAs, hv]
    rfl

theorem gives_number : Gives (b.number name) fun x => b.IsReadAs name (.number x) := by
  intro x hx
  rw [number] at hx
  split at hx
  · next y hy =>
    obtain rfl := Except.ok.inj hx
    obtain ⟨v, hv, hnumber⟩ := Option.bind_eq_some_iff.mp hy
    exact isReadAs_of_value? hv hnumber
  · cases hx

theorem gives_level : Gives (b.level name) fun high => b.IsReadAs name (.truth high) := by
  intro high hhigh
  rw [level] at hhigh
  split at hhigh
  · next v hv =>
    obtain rfl := Except.ok.inj hhigh
    exact isReadAs_of_value? hv rfl
  · next v hv =>
    obtain rfl := Except.ok.inj hhigh
    exact isReadAs_of_value? hv rfl
  · next s hv =>
    split at hhigh
    · next high' hword =>
      obtain rfl := Except.ok.inj hhigh
      exact isReadAs_of_value? hv hword
    · cases hhigh
  · cases hhigh

theorem gives_text : Gives (b.text name) fun s => b.IsReadAs name (.text s) := by
  intro s hs
  rw [text] at hs
  split at hs
  · next hv => exact isReadAs_of_value? hv (Except.ok.inj hs)
  · next v hstring hv =>
    refine isReadAs_of_value? hv ?_
    rw [← Except.ok.inj hs]
    cases v with
    | string s => exact absurd rfl (hstring s)
    | _ => rfl
  · cases hs

end Binding

/-! ## Words -/

theorem gives_directionOfWord (word : String) : Gives (directionOfWord word) fun direction =>
    ∃ known ∈ direction.words, sameName known word := by
  intro direction hdirection
  simp only [directionOfWord, ofList_lower_eq_iff (by rfl : lower "input".toList = "input".toList),
    ofList_lower_eq_iff (by rfl : lower "in".toList = "in".toList),
    ofList_lower_eq_iff (by rfl : lower "output".toList = "output".toList),
    ofList_lower_eq_iff (by rfl : lower "out".toList = "out".toList)] at hdirection
  split at hdirection
  · next h =>
    obtain rfl := Except.ok.inj hdirection
    simpa [Direction.words] using h
  split at hdirection
  · next h =>
    obtain rfl := Except.ok.inj hdirection
    simpa [Direction.words] using h
  · cases hdirection

theorem gives_pullOfWord (word : String) : Gives (pullOfWord word) fun pull =>
    ∃ known ∈ pull.words, sameName known word := by
  intro pull hpull
  simp only [pullOfWord, ofList_lower_eq_iff (by rfl : lower "none".toList = "none".toList),
    ofList_lower_eq_iff (by rfl : lower "off".toList = "off".toList),
    ofList_lower_eq_iff (by rfl : lower "up".toList = "up".toList),
    ofList_lower_eq_iff (by rfl : lower "down".toList = "down".toList)] at hpull
  split at hpull
  · next h =>
    obtain rfl := Except.ok.inj hpull
    simpa [Pull.words] using h
  split at hpull
  · next h =>
    obtain rfl := Except.ok.inj hpull
    simpa [Pull.words] using h
  split at hpull
  · next h =>
    obtain rfl := Except.ok.inj hpull
    simpa [Pull.words] using h
  · cases hpull

/-! ## Requests -/

/-- What is read in an arm of `Binding.request` stands in the fields of the request's instruction,
in the order of the signature. -/
theorem gives_request (hr : ∀ p ∈ (signature category action).getD [],
      (⟨category, action, places⟩ : Binding).Received p) :
    Gives (⟨category, action, places⟩ : Binding).request fun r =>
      r.instruction.category = category ∧ r.instruction.action = action ∧
        List.Forall₂ (fun p field => field.1 = p.name ∧
            (⟨category, action, places⟩ : Binding).IsReadAs p.name field.2)
          ((signature category action).getD []) r.instruction.fields := by
  cases category with
  | gpio =>
    cases action with
    | set =>
      exact .bind (Binding.gives_uint8 _ _) fun _ hpin =>
        .bind (Binding.gives_level _ _) fun _ hlevel =>
        .ok ⟨rfl, rfl, .cons ⟨rfl, hpin⟩ (.cons ⟨rfl, hlevel⟩ .nil)⟩
    | get =>
      exact .bind (Binding.gives_uint8 _ _) fun _ hpin => .ok ⟨rfl, rfl, .cons ⟨rfl, hpin⟩ .nil⟩
    | direction =>
      exact .bind (Binding.gives_text _ _) fun _ htext =>
        .bind (gives_directionOfWord _) fun _ hword =>
        .bind (Binding.gives_uint8 _ _) fun _ hpin =>
        .ok ⟨rfl, rfl, .cons ⟨rfl, hpin⟩ (.cons ⟨rfl, htext.word hword⟩ .nil)⟩
    | pulls =>
      exact .bind (Binding.gives_text _ _) fun _ htext =>
        .bind (gives_pullOfWord _) fun _ hword =>
        .bind (Binding.gives_uint8 _ _) fun _ hpin =>
        .ok ⟨rfl, rfl, .cons ⟨rfl, hpin⟩ (.cons ⟨rfl, htext.word hword⟩ .nil)⟩
    | _ => exact .error _
  | nodes =>
    cases action with
    | connect | disconnect =>
      have hsave := (hr _ (.tail _ (.tail _ (.head _)))).flag_isReadAs
      exact .bind (Binding.gives_uint16 _ _) fun _ ha =>
        .bind (Binding.gives_uint16 _ _) fun _ hb =>
        .ok ⟨rfl, rfl, .cons ⟨rfl, ha⟩ (.cons ⟨rfl, hb⟩ (.cons ⟨rfl, hsave⟩ .nil))⟩
    | clear => exact .ok ⟨rfl, rfl, .cons ⟨rfl, (hr _ (.head _)).flag_isReadAs⟩ .nil⟩
    | check =>
      exact .bind (Binding.gives_uint16 _ _) fun _ ha =>
        .bind (Binding.gives_uint16 _ _) fun _ hb =>
        .ok ⟨rfl, rfl, .cons ⟨rfl, ha⟩ (.cons ⟨rfl, hb⟩ .nil)⟩
    | _ => exact .error _
  | dac =>
    cases action with
    | set =>
      have hsave := (hr _ (.tail _ (.tail _ (.head _)))).flag_isReadAs
      exact .bind (Binding.gives_uint8 _ _) fun _ hchannel =>
        .bind (Binding.gives_number _ _) fun _ hvolts =>
        .ok ⟨rfl, rfl, .cons ⟨rfl, hchannel⟩ (.cons ⟨rfl, hvolts⟩ (.cons ⟨rfl, hsave⟩ .nil))⟩
    | get =>
      exact .bind (Binding.gives_uint8 _ _) fun _ hchannel =>
        .ok ⟨rfl, rfl, .cons ⟨rfl, hchannel⟩ .nil⟩
    | _ => exact .error _
  | adc =>
    cases action with
    | get =>
      exact .bind (Binding.gives_uint8 _ _) fun _ hchannel =>
        .ok ⟨rfl, rfl, .cons ⟨rfl, hchannel⟩ .nil⟩
    | _ => exact .error _
  | currentSense =>
    cases action with
    | current | shuntVoltage | busVoltage | power =>
      exact .bind (Binding.gives_uint8OrZero _ _) fun _ hsensor =>
        .ok ⟨rfl, rfl, .cons ⟨rfl, hsensor⟩ .nil⟩
    | _ => exact .error _
  | config =>
    cases action with
    | get =>
      exact .bind (Binding.gives_text _ _) fun _ hsection =>
        .bind (Binding.gives_text _ _) fun _ hkey =>
        .ok ⟨rfl, rfl, .cons ⟨rfl, hsection⟩ (.cons ⟨rfl, hkey⟩ .nil)⟩
    | set =>
      exact .bind (Binding.gives_text _ _) fun _ hsection =>
        .bind (Binding.gives_text _ _) fun _ hkey =>
        .bind (Binding.gives_text _ _) fun _ hvalue =>
        .ok ⟨rfl, rfl, .cons ⟨rfl, hsection⟩ (.cons ⟨rfl, hkey⟩ (.cons ⟨rfl, hvalue⟩ .nil))⟩
    | reset => exact .ok ⟨rfl, rfl, .nil⟩
    | _ => exact .error _
  | target =>
    cases action with
    | reset | flash => exact .ok ⟨rfl, rfl, .nil⟩
    | _ => exact .error _
  | uart =>
    cases action with
    | connect | disconnect | get => exact .ok ⟨rfl, rfl, .nil⟩
    | set =>
      exact .bind (Binding.gives_uint32 _ _) fun _ hbaud =>
        .ok ⟨rfl, rfl, .cons ⟨rfl, hbaud⟩ .nil⟩
    | _ => exact .error _
  | probe =>
    cases action with
    | get => exact .ok ⟨rfl, rfl, .nil⟩
    | simulate =>
      exact .bind (Binding.gives_uint16 _ _) fun _ hnode =>
        .ok ⟨rfl, rfl, .cons ⟨rfl, hnode⟩ .nil⟩
    | _ => exact .error _
  | wheel =>
    cases action with
    | get => exact .ok ⟨rfl, rfl, .nil⟩
    | simulate =>
      exact .bind (Binding.gives_int64 _ _) fun _ hdelta =>
        .ok ⟨rfl, rfl, .cons ⟨rfl, hdelta⟩ .nil⟩
    | _ => exact .error _
  | oled =>
    cases action with
    | print =>
      exact .bind (Binding.gives_text _ _) fun _ htext =>
        .ok ⟨rfl, rfl, .cons ⟨rfl, htext⟩ .nil⟩
    | clear | connect | disconnect => exact .ok ⟨rfl, rfl, .nil⟩
    | _ => exact .error _
  | display =>
    cases action with
    | print | get => exact .ok ⟨rfl, rfl, .nil⟩
    | set =>
      exact .bind (Binding.gives_text _ _) fun _ hmode =>
        .ok ⟨rfl, rfl, .cons ⟨rfl, hmode.lowered⟩ .nil⟩
    | _ => exact .error _
  | slot =>
    cases action with
    | load | save | clear =>
      exact .bind (Binding.gives_uint8 _ _) fun _ hslot =>
        .ok ⟨rfl, rfl, .cons ⟨rfl, hslot⟩ .nil⟩
    | get => exact .ok ⟨rfl, rfl, .nil⟩
    | _ => exact .error _
  | panel =>
    cases action with
    | set =>
      exact .bind (Binding.gives_uint8 _ _) fun _ hlevel =>
        .ok ⟨rfl, rfl, .cons ⟨rfl, hlevel⟩ .nil⟩
    | get => exact .ok ⟨rfl, rfl, .nil⟩
    | _ => exact .error _

/-- A bound command that is not refused stands for the request that it asks for. -/
theorem Binding.IsBound.asks (hb : IsBound c parameters b)
    (hs : signature c.category c.action = some parameters) (hr : b.request = .ok r) :
    b.Asks r := by
  have hn := nodup_parameters hs
  have hreceived : ∀ p ∈ parameters, b.Received p := fun p hp => hb.received hn hp
  have hplaces := hb.parameters
  obtain ⟨category, action, places⟩ := b
  obtain ⟨rfl, rfl⟩ : category = c.category ∧ action = c.action := ⟨hb.category, hb.action⟩
  have hgives := @gives_request c.category c.action places
  rw [hs] at hgives
  obtain ⟨hcategory, haction, hfields⟩ := hgives hreceived r hr
  refine ⟨hcategory, haction, ?_⟩
  rw [Option.getD_some, ← hplaces, List.forall₂_map_left_iff] at hfields
  -- The value of a parameter is the one at its place, because the parameters differ.
  rw [← hplaces, List.map_map] at hn
  have hvalues := (List.forall₂_and_left _ _).mpr
    ⟨fun place hplace => value?_eq hn hplace, hfields⟩
  refine hvalues.imp fun place field ⟨hvalue, hname, hread⟩ => ⟨hname, ?_⟩
  rwa [← hvalue]

namespace Binding

/-- Every command that is read has a signature, and once its arguments are bound it is refused for
a value that does not fit its field and for nothing else; otherwise its request says what the
arguments say. -/
theorem request_faithful :
    (∀ text c, Command.parse text = .ok c → (signature c.category c.action).isSome) ∧
    ∀ c parameters b, signature c.category c.action = some parameters →
      ofCommand c parameters = .ok b →
        ((∃ detail, b.request = .error (.invalidParameterType detail)) ↔
          ∃ place ∈ b.places, place.Misfit) ∧
        (∀ e, b.request = .error e → e.kind = .invalidParameterType) ∧
        ((∀ place ∈ b.places, ¬place.Misfit) → ∃ r, b.request = .ok r ∧ b.Asks r) := by
  refine ⟨fun text c => isSome_signature_of_parse, fun c parameters b hs hb => ?_⟩
  have hbound := isBound_of_ofCommand hb
  rcases hbound.request_refusedIff hs with ⟨hmisfit, detail, hr⟩ | ⟨hfits, r, hr⟩
  · refine ⟨iff_of_true ⟨detail, hr⟩ hmisfit, fun e he => ?_, fun hfits => ?_⟩
    · obtain rfl := Except.error.inj (hr.symm.trans he)
      rfl
    · obtain ⟨place, hplace, h⟩ := hmisfit
      exact absurd h (hfits place hplace)
  · refine ⟨iff_of_false ?_ hfits, fun e he => ?_, fun _ => ⟨r, hr, hbound.asks hs hr⟩⟩
    · rintro ⟨detail, he⟩
      cases hr.symm.trans he
    · cases hr.symm.trans he

/-- Without its optional argument a connection is saved, also one to the last node of all. -/
theorem request_faithful_connect :
    let c : Command := ⟨"nodes", .nodes, .connect, "connect", .keyword,
      [⟨some "B", .int 65535⟩, ⟨none, .int 3⟩]⟩
    let b : Binding := ⟨.nodes, .connect, [⟨⟨"a", .int, true⟩, some (.int 3)⟩,
      ⟨⟨"b", .int, true⟩, some (.int 65535)⟩, ⟨⟨"save", .flag, false⟩, none⟩]⟩
    ∃ parameters, signature c.category c.action = some parameters ∧
      ofCommand c parameters = .ok b ∧ (∀ place ∈ b.places, ¬place.Misfit) ∧
      b.Asks (.nets (.connect 3 65535 true)) := by
  intro c b
  have hb : ofCommand c (b.places.map Place.parameter) = .ok b := rfl
  have hfits : ∀ place ∈ b.places, ¬place.Misfit := by
    simp [b, Place.Misfit, Field.ofName, Field.Fits]
  refine ⟨_, rfl, hb, hfits, ?_⟩
  obtain ⟨r, hr, hasks⟩ := (request_faithful.2 c _ b rfl hb).2.2 hfits
  have hrequest : b.request = .ok (.nets (.connect 3 65535 true)) := rfl
  rwa [Except.ok.inj (hr.symm.trans hrequest)] at hasks

end Binding

end BenchConsole
