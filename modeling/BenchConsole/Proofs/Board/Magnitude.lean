import BenchConsole.Proofs.Answer.Magnitude
import BenchConsole.Proofs.Binding.Echo
import BenchConsole.Proofs.Binding.Request

/-!
# Replies with finite numbers

The replies of a board are written as moderate texts (`Reply.IsModerate`). Words, integers and lists
of connections have no point, and a measured value is rounded to a finite one. What the config table
gives back was put there before, so a board is moderate if its table holds moderate texts only;
every request keeps it so, unless it stores another text (`Board.IsModerate.handle`).
-/

namespace BenchConsole

open Text Number Answer

/-- The text of a reply is moderate. -/
def Board.Reply.IsModerate (reply : Reply) : Prop :=
  ∀ text ∈ Response.valueText? reply, Moderate (' ' :: text.toList)

/-- The config table holds moderate texts. -/
def Board.IsModerate (board : Board) : Prop :=
  ∀ entry ∈ board.config.entries, Moderate (' ' :: entry.value.toList)

/-! ## Texts of values -/

theorem isNaN_or_isInf {x : Float} (h : x.isFinite = false) : x.isNaN ∨ x.isInf := by
  revert h
  simp only [Float.isFinite, Float.isNaN, Float.isInf, Float.Model.isFinite, Float.Model.isNaN,
    Float.Model.isInf]
  cases x.toModel.unpack with
  | notANumber => exact fun _ => .inl rfl
  | infinity s => exact fun _ => .inr rfl
  | zero s => exact fun h => by cases h
  | finite s m e hm => exact fun h => by cases h

theorem moderate_fixedText (x : Float) (k : Nat) : Moderate (' ' :: fixedText (k + 1) x) := by
  cases hx : x.isFinite with
  | true =>
    have hchars := (isNumeralChar_fixedText hx k).1
    refine moderate_space (fun d hd => isBlank_eq_false_of_isNumeralChar (hchars d hd)) ?_
    intro a ha
    by_cases hpoint : '.' ∈ fixedText (k + 1) x
    · rw [ofNumeral?, if_pos hpoint] at ha
      obtain ⟨y, hy, rfl⟩ := Option.map_eq_some_iff.mp ha
      exact isFinite_of_readFloat?_fixedText hx k hy
    · exact isFinite_ofNumeral?_of_no_point hpoint ha
  | false =>
    refine moderate_of_no_point rfl ?_
    rw [fixedText, nameOr]
    rcases isNaN_or_isInf hx with h | h
    · rw [if_pos h]
      decide
    · split
      · decide
      · cases Binary64.isNegative x <;> decide

theorem moderate_pointedText {x : Float} (hx : x.isFinite) : Moderate (' ' :: pointedText x) := by
  have hchars := isNumeralChar_pointedText hx
  refine moderate_space (fun d hd => isBlank_eq_false_of_isNumeralChar (hchars d hd)) ?_
  intro a ha
  rw [ofNumeral?, if_pos (point_mem_pointedText hx), readFloat?_pointedText hx] at ha
  obtain rfl := Option.some.inj ha
  exact hx

theorem moderate_intText (v : Int) : Moderate (' ' :: intText v) := by
  refine moderate_of_no_point rfl fun hp => ?_
  rcases List.mem_cons.mp hp with hp | hp
  · cases hp
  · exact not_mem_intText rfl (by decide) hp

theorem moderate_word {cs : List Char} (h : IsWord cs) : Moderate (' ' :: cs) := by
  refine moderate_of_no_point rfl fun hp => ?_
  rcases List.mem_cons.mp hp with hp | hp
  · cases hp
  · exact h.not_mem rfl hp

/-- What a readable value is as a text is moderate. -/
theorem Literal.moderate_plain {v : Literal} (h : v.IsReadable) : Moderate (' ' :: v.plain.toList) := by
  cases v with
  | absent => cases h
  | int v =>
    simpa [plain, render, chars] using moderate_intText v.toInt
  | float x =>
    simpa [plain, render, chars] using moderate_pointedText h
  | string s =>
    have hlen : s.toList.length ≤ maxTextLength := h
    refine moderate_of_length_le rfl ?_
    simp only [maxTextLength] at hlen
    simp only [plain, List.length_cons]
    omega
  | bool b =>
    simpa [plain, render, chars] using moderate_word (isWord_boolText b)

namespace Board

variable {α β ε : Type} {P : Reply → Prop} {reply : Reply}

/-! ## Kinds of replies -/

theorem moderate_measured (x : Float) {unit : List Char} (hunit : IsWord unit) :
    Moderate (' ' :: (fixedText 3 x ++ ' ' :: unit)) :=
  (moderate_fixedText x 2).append (moderate_word hunit)

/-- A reply is moderate, unless it is a text that is not. -/
theorem Reply.isModerate_of_text (h : ∀ s, reply = .text s → Moderate (' ' :: s.toList)) :
    reply.IsModerate := by
  rintro text ht
  cases reply with
  | done => cases ht
  | level high =>
    obtain rfl := Option.some.inj ht
    exact moderate_word (isWord_levelWord high)
  | flag holds =>
    obtain rfl := Option.some.inj ht
    cases holds
    · exact moderate_word (by decide)
    · exact moderate_word (by decide)
  | int v =>
    obtain rfl := Option.some.inj ht
    rw [String.toList_ofList]
    exact moderate_intText _
  | volts x =>
    obtain rfl := Option.some.inj ht
    simpa [fixed] using @moderate_measured x ['V'] (by decide)
  | milliamps x =>
    obtain rfl := Option.some.inj ht
    simpa [fixed] using @moderate_measured x ['m', 'A'] (by decide)
  | milliwatts x =>
    obtain rfl := Option.some.inj ht
    simpa [fixed] using @moderate_measured x ['m', 'W'] (by decide)
  | text s =>
    obtain rfl := Option.some.inj ht
    exact h s rfl

/-- Whatever is answered has a property. -/
def Replies (P : Reply → Prop) (outcome : Except ε (Reply × α)) : Prop :=
  ∀ reply part, outcome = .ok (reply, part) → P reply

namespace Replies

theorem ok {part : α} (h : P reply) : Replies P (.ok (reply, part) : Except ε (Reply × α)) := by
  rintro _ _ ⟨⟩
  exact h

theorem error (e : ε) : Replies P (.error e : Except ε (Reply × α)) := by
  rintro _ _ ⟨⟩

theorem bind {x : Except ε β} {f : β → Except ε (Reply × α)}
    (hf : ∀ b, Replies P (f b)) : Replies P (x >>= f) := by
  cases x with
  | error e => exact error e
  | ok b => exact hf b

theorem ite {p : Prop} [Decidable p] {x y : Except ε (Reply × α)} (hx : Replies P x)
    (hy : Replies P y) : Replies P (if p then x else y) := by
  split
  · exact hx
  · exact hy

theorem refusing {outcome : Except Fault (Reply × α)} (h : Replies P outcome) :
    Replies P (Board.refusing outcome) := by
  cases outcome with
  | error fault => exact error _
  | ok answered => exact ok (h answered.1 answered.2 rfl)

end Replies

/-! ## Replies of the peripherals -/

theorem mem_intercalate {sep : List Char} {pieces : List (List Char)} {c : Char}
    (h : c ∈ sep.intercalate pieces) : c ∈ sep ∨ ∃ piece ∈ pieces, c ∈ piece := by
  induction pieces with
  | nil => cases h
  | cons piece pieces ih =>
    cases pieces with
    | nil =>
      rw [List.intercalate_singleton] at h
      exact .inr ⟨piece, List.mem_cons_self, h⟩
    | cons next pieces =>
      rw [List.intercalate_cons_cons] at h
      rcases List.mem_append.mp h with h | h
      · rcases List.mem_append.mp h with h | h
        · exact .inr ⟨piece, List.mem_cons_self, h⟩
        · exact .inl h
      · rcases ih h with h | ⟨other, ho, h⟩
        · exact .inl h
        · exact .inr ⟨other, List.mem_cons_of_mem _ ho, h⟩

section

variable {limits : Limits}

theorem Reply.isModerate_done : Reply.done.IsModerate :=
  isModerate_of_text nofun

theorem Gpio.replies_handle (gpio : Gpio) (r : Gpio.Request) :
    Replies Reply.IsModerate (gpio.handle r) := by
  cases r with
  | get pin => exact .bind fun _ => .ok (Reply.isModerate_of_text nofun)
  | _ => exact .bind fun _ => .ok Reply.isModerate_done

theorem Link.toList_text (link : Link) : link.text.toList =
    Nat.toDigits 10 link.low.toNat ++ '-' :: Nat.toDigits 10 link.high.toNat := by
  simp [text]

theorem Link.mem_text {link : Link} {c : Char} (h : c ∈ link.text.toList) :
    c = '-' ∨ c.isDigit := by
  rw [toList_text, List.mem_append, List.mem_cons] at h
  rcases h with h | rfl | h
  · exact .inr (isDigit_toDigits _ c h)
  · exact .inl rfl
  · exact .inr (isDigit_toDigits _ c h)

theorem Netlist.toList_text {nets : Netlist} (h : nets.links ≠ []) :
    nets.text.toList = [','].intercalate (nets.links.map fun link => link.text.toList) := by
  rw [text, if_neg (by simpa using h), String.toList_intercalate, List.map_map]
  rfl

/-- Connections are listed in digits and separators. -/
theorem Netlist.mem_text {nets : Netlist} {c : Char} (h : nets.links ≠ [])
    (hc : c ∈ nets.text.toList) : c = ',' ∨ c = '-' ∨ c.isDigit := by
  rw [toList_text h] at hc
  rcases mem_intercalate hc with hc | ⟨part, hpart, hc⟩
  · exact .inl (List.mem_singleton.mp hc)
  · obtain ⟨link, -, rfl⟩ := List.mem_map.mp hpart
    exact .inr (Link.mem_text hc)

theorem Netlist.isBlank_of_mem_text {nets : Netlist} {c : Char} (h : nets.links ≠ [])
    (hc : c ∈ nets.text.toList) : isBlank c = false := by
  rcases mem_text h hc with rfl | rfl | hdigit
  · rfl
  · rfl
  · exact isBlank_eq_false_of_isNumeralChar (isNumeralChar_of_isDigit hdigit)

theorem Netlist.point_not_mem_text (nets : Netlist) : '.' ∉ nets.text.toList := by
  by_cases h : nets.links = []
  · rw [text, h]
    decide
  · intro hpoint
    rcases mem_text h hpoint with heq | heq | hdigit
    · cases heq
    · cases heq
    · exact isDigit_ne hdigit rfl rfl

theorem Nets.replies_handle (nets : Nets) (r : Nets.Request) :
    Replies Reply.IsModerate (nets.handle limits r) := by
  cases r with
  | connect a b persist =>
    exact .bind fun _ => .bind fun _ => .ite (.error _) (.ok Reply.isModerate_done)
  | disconnect a b persist => exact .bind fun _ => .bind fun _ => .ok Reply.isModerate_done
  | clear persist => exact .ok Reply.isModerate_done
  | connected a b => exact .bind fun _ => .bind fun _ => .ok (Reply.isModerate_of_text nofun)
  | list =>
    refine .ok (Reply.isModerate_of_text ?_)
    rintro _ ⟨⟩
    refine moderate_of_no_point rfl fun hp => ?_
    rcases List.mem_cons.mp hp with hp | hp
    · cases hp
    · exact nets.live.point_not_mem_text hp
  | loadSlot slot | saveSlot slot | clearSlot slot =>
    exact .bind fun _ => .ok Reply.isModerate_done
  | currentSlot => exact .ok (Reply.isModerate_of_text nofun)

theorem Analog.replies_handle (analog : Analog) (r : Analog.Request) :
    Replies Reply.IsModerate (analog.handle limits r) := by
  cases r with
  | dacSet channel volts persist =>
    exact .bind fun _ => .ite (.ok Reply.isModerate_done) (.error _)
  | dacGet channel | adcGet channel => exact .bind fun _ => .ok (Reply.isModerate_of_text nofun)
  | sense sensor quantity =>
    refine .bind fun _ => .ok (Reply.isModerate_of_text ?_)
    cases quantity <;> nofun

theorem Target.replies_handle (target : Target) (r : Target.Request) :
    Replies Reply.IsModerate (target.handle r) := by
  cases r with
  | reset => exact .bind fun _ => .ok Reply.isModerate_done
  | flash => exact .ite (.bind fun _ => .ok Reply.isModerate_done) (.error _)
  | uartConnect | uartDisconnect => exact .ok Reply.isModerate_done
  | uartSetBaud baud => exact .ite (.error _) (.ok Reply.isModerate_done)
  | uartGetBaud => exact .ok (Reply.isModerate_of_text nofun)

theorem Probe.replies_handle (probe : Probe) (r : Probe.Request) :
    Replies Reply.IsModerate (probe.handle limits r) := by
  cases r with
  | read =>
    simp only [Probe.handle]
    split
    · exact .ok (Reply.isModerate_of_text nofun)
    · exact .ok (Reply.isModerate_of_text nofun)
  | simulate node => exact .bind fun _ => .ok Reply.isModerate_done

theorem Wheel.replies_handle (wheel : Wheel) (r : Wheel.Request) :
    Replies Reply.IsModerate (wheel.handle r) := by
  cases r with
  | get => exact .ok (Reply.isModerate_of_text nofun)
  | simulate delta => exact .ok Reply.isModerate_done

theorem Oled.replies_handle (oled : Oled) (r : Oled.Request) :
    Replies Reply.IsModerate (oled.handle r) := by
  cases r with
  | print text => exact .ite (.ok Reply.isModerate_done) (.error _)
  | clear | connect | disconnect => exact .ok Reply.isModerate_done

theorem DisplayMode.replies_handle (mode : DisplayMode) (r : DisplayMode.Request) :
    Replies Reply.IsModerate (mode.handle r) := by
  cases r with
  | set name =>
    simp only [DisplayMode.handle]
    split
    · exact .ok Reply.isModerate_done
    · exact .error _
  | get =>
    refine .ok (Reply.isModerate_of_text ?_)
    rintro _ ⟨⟩
    exact moderate_word (by cases mode <;> decide)

theorem Panel.replies_handle (panel : Panel) (r : Panel.Request) :
    Replies Reply.IsModerate (panel.handle r) := by
  cases r with
  | setBrightness level => exact .ok Reply.isModerate_done
  | getBrightness => exact .ok (Reply.isModerate_of_text nofun)

end

/-! ## The config table -/

variable {board : Board} {request : Request}

theorem isModerate_default : ∀ entry ∈ ConfigStore.default.entries,
    Moderate (' ' :: entry.value.toList) := by
  intro entry hentry
  have hshort : ∀ entry ∈ ConfigStore.default.entries, entry.value.toList.length ≤ 10 := by
    decide
  have hlen := hshort entry hentry
  refine moderate_of_length_le rfl ?_
  rw [List.length_cons]
  omega

theorem IsModerate.of_config_eq {other : Board} (hb : board.IsModerate)
    (h : other.config = board.config) : other.IsModerate := by
  intro entry hentry
  exact hb entry (h ▸ hentry)

/-- The text that a request stores in the config table, if it stores one, is moderate. -/
def Request.StoresModerate (request : Request) : Prop :=
  ∀ sectionName key value, request = .config (.set sectionName key value) →
    Moderate (' ' :: value.toList)

/-- A board gives a moderate reply and is moderate then. -/
structure Moderates (outcome : Except Stop (Reply × Board)) : Prop where
  replies : Replies Reply.IsModerate outcome
  board : ∀ reply later, outcome = .ok (reply, later) → later.IsModerate

theorem moderates_error (stop : Stop) : Moderates (.error stop) where
  replies := .error stop
  board _ _ h := by cases h

theorem moderates_replied {put : α → Board} {outcome : Except Stop (Reply × α)}
    (hb : board.IsModerate) (h : Replies Reply.IsModerate outcome)
    (hput : ∀ part, (put part).config = board.config) :
    Moderates (replied put outcome) := by
  cases outcome with
  | error stop => exact moderates_error stop
  | ok answered =>
    obtain ⟨reply, part⟩ := answered
    refine ⟨.ok (h reply part rfl), ?_⟩
    rintro _ _ ⟨⟩
    exact hb.of_config_eq (hput part)

theorem moderates_config (hb : board.IsModerate) {r : ConfigStore.Request}
    (hr : Request.StoresModerate (.config r)) : Moderates (board.handle (.config r)) := by
  cases r with
  | get sectionName key =>
    simp only [Board.handle, ConfigStore.handle]
    cases hget : board.config.get? sectionName key with
    | none => exact moderates_error _
    | some value =>
      obtain ⟨entry, hfind, rfl⟩ := Option.map_eq_some_iff.mp hget
      have hvalue := hb entry (List.mem_of_find?_eq_some hfind)
      refine ⟨.ok (Reply.isModerate_of_text ?_), ?_⟩
      · rintro _ ⟨⟩
        exact hvalue
      · rintro _ _ ⟨⟩
        exact hb
  | set sectionName key value =>
    simp only [Board.handle, ConfigStore.handle]
    cases board.config.get? sectionName key with
    | none => exact moderates_error _
    | some previous =>
      refine ⟨.ok Reply.isModerate_done, ?_⟩
      rintro _ _ ⟨⟩ entry hentry
      obtain ⟨old, hold, rfl⟩ := List.mem_map.mp hentry
      split
      · exact hr sectionName key value rfl
      · exact hb old hold
  | reset =>
    refine ⟨.ok Reply.isModerate_done, ?_⟩
    rintro _ _ ⟨⟩
    exact isModerate_default

/-- Every request keeps a board moderate, unless it stores a text that is not. -/
theorem IsModerate.handle (hb : board.IsModerate) (hr : request.StoresModerate) :
    Moderates (board.handle request) := by
  cases request with
  | config r => exact moderates_config hb hr
  | gpio r =>
    rw [Board.handle]
    exact moderates_replied hb (board.gpio.replies_handle r).refusing fun _ => rfl
  | nets r =>
    rw [Board.handle]
    exact moderates_replied hb (board.nets.replies_handle r).refusing fun _ => rfl
  | analog r =>
    rw [Board.handle]
    exact moderates_replied hb (board.analog.replies_handle r).refusing fun _ => rfl
  | target r =>
    rw [Board.handle]
    exact moderates_replied hb (board.target.replies_handle r) fun _ => rfl
  | probe r =>
    rw [Board.handle]
    exact moderates_replied hb (board.probe.replies_handle r).refusing fun _ => rfl
  | wheel r =>
    rw [Board.handle]
    exact moderates_replied hb (board.wheel.replies_handle r).refusing fun _ => rfl
  | oled r =>
    rw [Board.handle]
    exact moderates_replied hb (board.oled.replies_handle r).refusing fun _ => rfl
  | displayMode r =>
    rw [Board.handle]
    exact moderates_replied hb (board.displayMode.replies_handle r).refusing fun _ => rfl
  | panel r =>
    rw [Board.handle]
    exact moderates_replied hb (board.panel.replies_handle r).refusing fun _ => rfl

/-! ## Boards as they are set up -/

/-- New boards, and boards that readings and currents were put on afterwards. -/
inductive SetUp : Board → Prop
  | new (limits : Limits) : SetUp (.new limits)
  | withReading (channel : UInt8) (volts : Float) :
    SetUp b → SetUp (b.withReading channel volts)
  | withCurrent (sensor : UInt8) (milliamps : Float) :
    SetUp b → SetUp (b.withCurrent sensor milliamps)

theorem SetUp.isModerate (h : board.SetUp) : board.IsModerate := by
  induction h with
  | new limits => exact isModerate_default
  | withReading channel volts _ ih => exact ih.of_config_eq rfl
  | withCurrent sensor milliamps _ ih => exact ih.of_config_eq rfl

end Board

end BenchConsole
