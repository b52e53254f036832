import BenchConsole.Proofs.Binding
import BenchConsole.Proofs.Text.Words
import Mathlib.Data.List.Nodup

/-!
# Requests of bound commands

What a bound command still has to pass is its fields: an integer goes to a field of so many bits,
a word to one that knows only some words, and anything else is taken as it is (`Field`). A command
is refused if and only if a value does not fit its field (`request_refusedIff`); no other error is
left, because each value is there and of its kind.

`RefusedIff r bad` says of a result that it is an error about a parameter if and only if `bad`
holds. It is put together along a `do` block, one parameter at a time (`RefusedIff.read`).
-/

namespace BenchConsole

open Text Board

/-- A value as a text. -/
def Literal.plain : Literal → String
  | string s => s
  | v => v.render

/-- What becomes of the value of a parameter in a request. -/
inductive Field where
  /-- A number of so many bits, without a sign. -/
  | bits (width : Nat)
  /-- One of these words, in any case of its letters. -/
  | words (known : List String)
  | free

/-- The field of the parameter of a given name. -/
def Field.ofName (name : String) : Field :=
  if name ∈ ["pin", "channel", "sensor", "slot", "brightness"] then .bits 8
  else if name ∈ ["a", "b", "node"] then .bits 16
  else if name = "baud" then .bits 32
  else if name = "direction" then .words ["input", "in", "output", "out"]
  else if name = "pull" then .words ["none", "off", "up", "down"]
  else .free

/-- Whether a value fits a field. -/
def Field.Fits : Field → Literal → Prop
  | bits width, .int v => 0 ≤ v.toInt ∧ v.toInt < Nat.pow 2 width
  | words known, v => ∃ word ∈ known, sameName word v.plain
  | _, _ => True

/-- The value at a place does not fit its field. -/
def Place.Misfit (place : Place) : Prop :=
  ∃ v ∈ place.value, ¬(Field.ofName place.parameter.name).Fits v

/-- The value of a parameter does not fit its field. -/
def Binding.Misfit (b : Binding) (name : String) : Prop :=
  ∃ v ∈ b.value? name, ¬(Field.ofName name).Fits v

/-- A parameter has received a value of its kind, or none if it needs none. -/
structure Binding.Received (b : Binding) (p : Parameter) : Prop where
  accepted : ∀ v ∈ b.value? p.name, p.kind.accepts v
  supplied : p.required → b.value? p.name ≠ none

/-- The result is an error about a parameter if and only if `bad` holds. -/
def RefusedIff (r : Except Failure α) (bad : Prop) : Prop :=
  (bad ∧ ∃ detail, r = .error (.invalidParameterType detail)) ∨ (¬bad ∧ ∃ a, r = .ok a)

variable {c : Command} {b : Binding} {parameters : List Parameter} {p : Parameter} {place : Place}
  {category : Category} {action : Action} {places : List Place} {name : String} {v : Literal}

/-! ## Results -/

namespace RefusedIff

variable {P Q : Prop} {x : Except Failure α} {f : α → Except Failure β}

theorem ok (a : α) (h : ¬P) : RefusedIff (.ok a) P :=
  .inr ⟨h, a, rfl⟩

theorem congr (hx : RefusedIff x P) (h : P ↔ Q) : RefusedIff x Q := by
  rwa [RefusedIff, ← h]

theorem bind (hx : RefusedIff x P) (hf : ∀ a, RefusedIff (f a) Q) :
    RefusedIff (x >>= f) (P ∨ Q) := by
  rcases hx with ⟨hp, detail, rfl⟩ | ⟨hp, a, rfl⟩
  · exact .inl ⟨.inl hp, detail, rfl⟩
  · rcases hf a with ⟨hq, detail, he⟩ | ⟨hq, a', he⟩
    · exact .inl ⟨.inr hq, detail, he⟩
    · exact .inr ⟨by simp [hp, hq], a', he⟩

theorem map (hx : RefusedIff x P) (g : α → β) : RefusedIff (x.map g) P := by
  rcases hx with ⟨hp, detail, rfl⟩ | ⟨hp, a, rfl⟩
  · exact .inl ⟨hp, detail, rfl⟩
  · exact .inr ⟨hp, g a, rfl⟩

/-- Nothing is left to read. -/
theorem done (a : α) : RefusedIff (.ok a) (∃ p ∈ ([] : List Parameter), b.Misfit p.name) :=
  ok a (by simp)

theorem read (hx : RefusedIff x (b.Misfit p.name))
    (hf : ∀ a, RefusedIff (f a) (∃ q ∈ parameters, b.Misfit q.name)) :
    RefusedIff (x >>= f) (∃ q ∈ p :: parameters, b.Misfit q.name) :=
  (hx.bind hf).congr (by simp)

theorem readWord {g : β → Except Failure γ} {y : Except Failure β} {f : γ → Except Failure α}
    (hy : RefusedIff (y >>= g) (b.Misfit p.name))
    (hf : ∀ a, RefusedIff (f a) (∃ q ∈ parameters, b.Misfit q.name)) :
    RefusedIff (y >>= fun word => g word >>= f) (∃ q ∈ p :: parameters, b.Misfit q.name) := by
  rw [← bind_assoc]
  exact hy.read hf

/-- A parameter whose value always fits does not have to be read. -/
theorem skip (hp : ¬b.Misfit p.name) (hx : RefusedIff x (∃ q ∈ parameters, b.Misfit q.name)) :
    RefusedIff x (∃ q ∈ p :: parameters, b.Misfit q.name) :=
  hx.congr (by simp [hp])

theorem swap {q : Parameter} (hx : RefusedIff x (∃ r ∈ [q, p], b.Misfit r.name)) :
    RefusedIff x (∃ r ∈ [p, q], b.Misfit r.name) :=
  hx.congr (by simp [or_comm])

end RefusedIff

/-! ## Received values -/

namespace Binding

/-- In a binding whose parameters differ, the value of a parameter is the one at its place. -/
theorem value?_eq (hn : (b.places.map fun place => place.parameter.name).Nodup)
    (hp : place ∈ b.places) : b.value? place.parameter.name = place.value := by
  rw [value?]
  cases hf : b.places.find? fun other => other.parameter.name == place.parameter.name with
  | none => simpa using List.find?_eq_none.mp hf place hp
  | some other =>
    have hfound := List.find?_some hf
    have hname : other.parameter.name = place.parameter.name := eq_of_beq hfound
    rw [List.inj_on_of_nodup_map hn (List.mem_of_find?_eq_some hf) hp hname, Option.bind_some]

theorem IsBound.received (hb : IsBound c parameters b)
    (hn : (parameters.map Parameter.name).Nodup) (hp : p ∈ parameters) : b.Received p := by
  rw [← hb.parameters] at hn hp
  obtain ⟨place, hplace, rfl⟩ := List.mem_map.mp hp
  have hvalue := value?_eq (by rwa [List.map_map] at hn) hplace
  constructor
  · rw [hvalue]
    exact hb.accepted place hplace
  · rw [hvalue]
    exact hb.supplied place hplace

theorem not_misfit_of_free (hf : Field.ofName name = .free) : ¬b.Misfit name := by
  rintro ⟨v, -, hv⟩
  rw [hf] at hv
  exact hv trivial

/-! ## Fields -/

theorem misfit_iff (hv : b.value? name = some v) :
    b.Misfit name ↔ ¬(Field.ofName name).Fits v := by
  simp [Misfit, hv]

section

variable {width : Nat}

theorem Received.exists_int (h : b.Received ⟨name, .int, true⟩) :
    ∃ v, b.value? name = some (.int v) := by
  obtain ⟨v, hv⟩ := Option.ne_none_iff_exists'.mp (h.supplied rfl)
  have haccepts := h.accepted v hv
  cases v with
  | int v => exact ⟨v, hv⟩
  | _ => cases haccepts

theorem Received.unsigned_refusedIff (h : b.Received ⟨name, .int, true⟩)
    (hf : Field.ofName name = .bits width) :
    RefusedIff (b.unsigned width name) (b.Misfit name) := by
  obtain ⟨i, hi⟩ := h.exists_int
  have hrange : b.Misfit name ↔ ¬(0 ≤ i.toInt ∧ i.toInt < Nat.pow 2 width) := by
    rw [misfit_iff hi, hf]
    rfl
  have hint : b.int64 name = .ok i := by rw [int64, hi]
  have hunsigned : b.unsigned width name =
      if 0 ≤ i.toInt ∧ i.toInt < Nat.pow 2 width then .ok i.toInt.toNat
      else
        .error (.invalidParameterType
          (name ++ " value " ++ toString i.toInt ++ " out of range")) := by
    rw [unsigned, hint]
    rfl
  rw [hunsigned]
  split
  · next hfits => exact .ok _ (by rwa [hrange, not_not])
  · next hbad => exact .inl ⟨hrange.mpr hbad, _, rfl⟩

theorem Received.uint8OrZero_refusedIff (h : b.Received ⟨name, .int, false⟩)
    (hf : Field.ofName name = .bits 8) : RefusedIff (b.uint8OrZero name) (b.Misfit name) := by
  cases hv : b.value? name with
  | none =>
    have hzero : b.uint8OrZero name = .ok 0 := by rw [uint8OrZero, hv]
    rw [hzero]
    exact .ok _ (by simp [Misfit, hv])
  | some v =>
    have hread : b.uint8OrZero name = b.uint8 name := by rw [uint8OrZero, hv]
    rw [hread]
    have hr : b.Received ⟨name, .int, true⟩ := ⟨h.accepted, fun _ => by simp [hv]⟩
    exact (hr.unsigned_refusedIff hf).map _

theorem Received.int64_refusedIff (h : b.Received ⟨name, .int, true⟩)
    (hf : Field.ofName name = .free) : RefusedIff (b.int64 name) (b.Misfit name) := by
  obtain ⟨v, hv⟩ := h.exists_int
  rw [int64, hv]
  exact .ok _ (not_misfit_of_free hf)

theorem Received.number_refusedIff (h : b.Received ⟨name, .number, true⟩)
    (hf : Field.ofName name = .free) : RefusedIff (b.number name) (b.Misfit name) := by
  obtain ⟨v, hv⟩ := Option.ne_none_iff_exists'.mp (h.supplied rfl)
  have haccepts := h.accepted v hv
  rw [number, hv]
  cases v with
  | int v => exact .ok _ (not_misfit_of_free hf)
  | float v => exact .ok _ (not_misfit_of_free hf)
  | _ => cases haccepts

theorem Received.level_refusedIff (h : b.Received ⟨name, .level, true⟩)
    (hf : Field.ofName name = .free) : RefusedIff (b.level name) (b.Misfit name) := by
  obtain ⟨v, hv⟩ := Option.ne_none_iff_exists'.mp (h.supplied rfl)
  have haccepts := h.accepted v hv
  rw [level, hv]
  cases v with
  | bool high => exact .ok _ (not_misfit_of_free hf)
  | int v => exact .ok _ (not_misfit_of_free hf)
  | string s =>
    obtain ⟨high, hhigh⟩ := Option.isSome_iff_exists.mp haccepts
    simp only [hhigh]
    exact .ok _ (not_misfit_of_free hf)
  | _ => cases haccepts

theorem Received.exists_text (h : b.Received ⟨name, .text, true⟩) :
    ∃ v, b.value? name = some v ∧ b.text name = .ok v.plain := by
  obtain ⟨v, hv⟩ := Option.ne_none_iff_exists'.mp (h.supplied rfl)
  refine ⟨v, hv, ?_⟩
  rw [text, hv]
  cases v <;> rfl

theorem Received.text_refusedIff (h : b.Received ⟨name, .text, true⟩)
    (hf : Field.ofName name = .free) : RefusedIff (b.text name) (b.Misfit name) := by
  obtain ⟨v, -, htext⟩ := h.exists_text
  rw [htext]
  exact .ok _ (not_misfit_of_free hf)

end

end Binding

/-! ## Words -/

theorem ofList_lower_eq_iff {known : String} (h : lower known.toList = known.toList)
    (word : String) : String.ofList (lower word.toList) = known ↔ sameName known word := by
  rw [sameName, sameWord_iff, h, ← String.toList_inj, String.toList_ofList, eq_comm]

theorem directionOfWord_refusedIff (word : String) : RefusedIff (directionOfWord word)
    (¬∃ known ∈ ["input", "in", "output", "out"], sameName known word) := by
  simp only [directionOfWord, ofList_lower_eq_iff (by rfl : lower "input".toList = "input".toList),
    ofList_lower_eq_iff (by rfl : lower "in".toList = "in".toList),
    ofList_lower_eq_iff (by rfl : lower "output".toList = "output".toList),
    ofList_lower_eq_iff (by rfl : lower "out".toList = "out".toList)]
  split
  · next h => exact .ok _ (by rcases h with h | h <;> simp [h])
  split
  · next h => exact .ok _ (by rcases h with h | h <;> simp [h])
  · next hin hout =>
    rw [not_or] at hin hout
    exact .inl ⟨by simp [hin, hout], _, rfl⟩

theorem pullOfWord_refusedIff (word : String) : RefusedIff (pullOfWord word)
    (¬∃ known ∈ ["none", "off", "up", "down"], sameName known word) := by
  simp only [pullOfWord, ofList_lower_eq_iff (by rfl : lower "none".toList = "none".toList),
    ofList_lower_eq_iff (by rfl : lower "off".toList = "off".toList),
    ofList_lower_eq_iff (by rfl : lower "up".toList = "up".toList),
    ofList_lower_eq_iff (by rfl : lower "down".toList = "down".toList)]
  split
  · next h => exact .ok _ (by rcases h with h | h <;> simp [h])
  split
  · next h => exact .ok _ (by simp [h])
  split
  · next h => exact .ok _ (by simp [h])
  · next hnone hup hdown =>
    rw [not_or] at hnone
    exact .inl ⟨by simp [hnone, hup, hdown], _, rfl⟩

/-- The word of a parameter is read in two steps, the text and what it names. -/
theorem Binding.Received.word_refusedIff {known : List String} {ofWord : String → Except Failure α}
    (h : b.Received ⟨name, .text, true⟩) (hf : Field.ofName name = .words known)
    (hw : ∀ word, RefusedIff (ofWord word) (¬∃ k ∈ known, sameName k word)) :
    RefusedIff (b.text name >>= ofWord) (b.Misfit name) := by
  obtain ⟨v, hv, htext⟩ := h.exists_text
  have hmisfit : b.Misfit name ↔ ¬∃ k ∈ known, sameName k v.plain := by
    rw [misfit_iff hv, hf]
    rfl
  rw [htext]
  exact (hw v.plain).congr hmisfit.symm

/-! ## Requests -/

/-- Every parameter that is in the signature is read, into a field of its name. -/
theorem request_refusedIff (hs : (signature category action).isSome)
    (hr : ∀ p ∈ (signature category action).getD [],
      (⟨category, action, places⟩ : Binding).Received p) :
    RefusedIff (⟨category, action, places⟩ : Binding).request
      (∃ p ∈ (signature category action).getD [],
        (⟨category, action, places⟩ : Binding).Misfit p.name) := by
  have hsave : ¬(⟨category, action, places⟩ : Binding).Misfit "save" :=
    Binding.not_misfit_of_free rfl
  cases category with
  | gpio =>
    cases action with
    | set =>
      exact .read (((hr _ (by decide)).unsigned_refusedIff rfl).map _) fun _ =>
        .read ((hr _ (by decide)).level_refusedIff rfl) fun _ => .done _
    | get => exact .read (((hr _ (by decide)).unsigned_refusedIff rfl).map _) fun _ => .done _
    -- A direction and a pull are read before the pin they are for.
    | direction =>
      have hword := (hr ⟨"direction", .text, true⟩ (by decide)).word_refusedIff rfl
        directionOfWord_refusedIff
      exact .swap (.readWord hword fun _ =>
        .read (((hr _ (by decide)).unsigned_refusedIff rfl).map _) fun _ => .done _)
    | pulls =>
      have hword := (hr ⟨"pull", .text, true⟩ (by decide)).word_refusedIff rfl pullOfWord_refusedIff
      exact .swap (.readWord hword fun _ =>
        .read (((hr _ (by decide)).unsigned_refusedIff rfl).map _) fun _ => .done _)
    | _ => cases hs
  | nodes =>
    cases action with
    | connect | disconnect =>
      exact .read (((hr _ (by decide)).unsigned_refusedIff rfl).map _) fun _ =>
        .read (((hr _ (by decide)).unsigned_refusedIff rfl).map _) fun _ => .skip hsave (.done _)
    | clear => exact .skip hsave (.done _)
    | check =>
      exact .read (((hr _ (by decide)).unsigned_refusedIff rfl).map _) fun _ =>
        .read (((hr _ (by decide)).unsigned_refusedIff rfl).map _) fun _ => .done _
    | _ => cases hs
  | dac =>
    cases action with
    | set =>
      exact .read (((hr _ (by decide)).unsigned_refusedIff rfl).map _) fun _ =>
        .read ((hr _ (by decide)).number_refusedIff rfl) fun _ => .skip hsave (.done _)
    | get => exact .read (((hr _ (by decide)).unsigned_refusedIff rfl).map _) fun _ => .done _
    | _ => cases hs
  | adc =>
    cases action with
    | get => exact .read (((hr _ (by decide)).unsigned_refusedIff rfl).map _) fun _ => .done _
    | _ => cases hs
  | currentSense =>
    cases action with
    | current | shuntVoltage | busVoltage | power =>
      exact .read ((hr _ (by decide)).uint8OrZero_refusedIff rfl) fun _ => .done _
    | _ => cases hs
  | config =>
    cases action with
    | get =>
      exact .read ((hr _ (by decide)).text_refusedIff rfl) fun _ =>
        .read ((hr _ (by decide)).text_refusedIff rfl) fun _ => .done _
    | set =>
      exact .read ((hr _ (by decide)).text_refusedIff rfl) fun _ =>
        .read ((hr _ (by decide)).text_refusedIff rfl) fun _ =>
        .read ((hr _ (by decide)).text_refusedIff rfl) fun _ => .done _
    | reset => exact .done _
    | _ => cases hs
  | target =>
    cases action with
    | reset | flash => exact .done _
    | _ => cases hs
  | uart =>
    cases action with
    | connect | disconnect | get => exact .done _
    | set => exact .read (((hr _ (by decide)).unsigned_refusedIff rfl).map _) fun _ => .done _
    | _ => cases hs
  | probe =>
    cases action with
    | get => exact .done _
    | simulate => exact .read (((hr _ (by decide)).unsigned_refusedIff rfl).map _) fun _ => .done _
    | _ => cases hs
  | wheel =>
    cases action with
    | get => exact .done _
    | simulate => exact .read ((hr _ (by decide)).int64_refusedIff rfl) fun _ => .done _
    | _ => cases hs
  | oled =>
    cases action with
    | print => exact .read ((hr _ (by decide)).text_refusedIff rfl) fun _ => .done _
    | clear | connect | disconnect => exact .done _
    | _ => cases hs
  | display =>
    cases action with
    | print | get => exact .done _
    | set => exact .read ((hr _ (by decide)).text_refusedIff rfl) fun _ => .done _
    | _ => cases hs
  | slot =>
    cases action with
    | load | save | clear =>
      exact .read (((hr _ (by decide)).unsigned_refusedIff rfl).map _) fun _ => .done _
    | get => exact .done _
    | _ => cases hs
  | panel =>
    cases action with
    | set => exact .read (((hr _ (by decide)).unsigned_refusedIff rfl).map _) fun _ => .done _
    | get => exact .done _
    | _ => cases hs

namespace Binding.IsBound

variable (hb : IsBound c parameters b)
  (hs : signature c.category c.action = some parameters)
include hb hs

theorem misfit_iff :
    (∃ p ∈ parameters, b.Misfit p.name) ↔ ∃ place ∈ b.places, place.Misfit := by
  have hn := nodup_parameters hs
  rw [← hb.parameters, List.map_map] at hn
  rw [← hb.parameters]
  simp only [List.mem_map, exists_exists_and_eq_and]
  refine exists_congr fun place => and_congr_right fun hp => ?_
  rw [Binding.Misfit, value?_eq hn hp]
  rfl

/-- A bound command is refused if and only if one of its values does not fit its field. -/
theorem request_refusedIff : RefusedIff b.request (∃ place ∈ b.places, place.Misfit) := by
  have hr : ∀ p ∈ parameters, b.Received p := fun p hp => hb.received (nodup_parameters hs) hp
  have hmisfit := hb.misfit_iff hs
  obtain ⟨category, action, places⟩ := b
  obtain ⟨rfl, rfl⟩ : category = c.category ∧ action = c.action := ⟨hb.category, hb.action⟩
  have hread := @BenchConsole.request_refusedIff c.category c.action places (by simp [hs])
  rw [hs] at hread
  exact (hread hr).congr hmisfit

end Binding.IsBound

end BenchConsole
