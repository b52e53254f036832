import BenchConsole.Proofs.Answer.Magnitude

/-!
# The types of values

`Typed value tag text` says what a value is read as, in terms of the characters it consists of: one
rule for each type. Each value is read as one type, and `ofValue` gives it (`typed_ofValue_iff`), because
a numeral with a point is always read as a float (`exists_ofNumeral?_float`), and one without a point
as an integer if it fits 64 bits and not otherwise (`exists_ofNumeral?_int`, `ofNumeral?_eq_none`).

A value behind a plain echo is typed by its own text alone, so that this holds of whole lines
(`typed_iff`).
-/

namespace BenchConsole

namespace Number

/-- Digits with an optional sign, and the integer that they stand for. -/
inductive IsInteger : List Char → Int → Prop
  | unsigned : whole ≠ [] → (∀ c ∈ whole, c.isDigit) →
    IsInteger whole (Nat.ofDigitChars 10 whole 0)
  | plus : whole ≠ [] → (∀ c ∈ whole, c.isDigit) →
    IsInteger ('+' :: whole) (Nat.ofDigitChars 10 whole 0)
  | minus : whole ≠ [] → (∀ c ∈ whole, c.isDigit) →
    IsInteger ('-' :: whole) (-(Nat.ofDigitChars 10 whole 0))

/-- The numeral of an integer of 64 bits. -/
def FitsInt64 (numeral : List Char) : Prop :=
  ∃ v, IsInteger numeral v ∧ -2 ^ 63 ≤ v ∧ v < 2 ^ 63

variable {whole numeral : List Char} {v : Int}

theorem readNat?_eq_some (hne : whole ≠ []) (hdigits : ∀ c ∈ whole, c.isDigit) :
    readNat? whole = some (Nat.ofDigitChars 10 whole 0) := by
  have hall : whole.all Char.isDigit := List.all_eq_true.mpr hdigits
  simp [readNat?, hne, hall]

theorem IsInteger.readInt?_eq (h : IsInteger numeral v) : readInt? numeral = some v := by
  cases h with
  | unsigned hne hdigits =>
    have hsign : splitSign numeral = (false, numeral) := by
      obtain ⟨c, cs, rfl⟩ := List.exists_cons_of_ne_nil hne
      exact splitSign_signed (hdigits c List.mem_cons_self) false cs
    simp [readInt?, hsign, readNat?_eq_some hne hdigits]
  | plus hne hdigits => simp [readInt?, splitSign, readNat?_eq_some hne hdigits]
  | minus hne hdigits => simp [readInt?, splitSign, readNat?_eq_some hne hdigits]

theorem IsInteger.readInt64?_eq_none_iff (h : IsInteger numeral v) :
    readInt64? numeral = none ↔ ¬FitsInt64 numeral := by
  have hfits : FitsInt64 numeral ↔ -2 ^ 63 ≤ v ∧ v < 2 ^ 63 := by
    refine ⟨fun ⟨w, hw, hrange⟩ => ?_, fun hrange => ⟨v, h, hrange⟩⟩
    obtain rfl := Option.some.inj (h.readInt?_eq.symm.trans hw.readInt?_eq)
    exact hrange
  rw [readInt64?, h.readInt?_eq, Option.bind_some, hfits]
  simp

end Number

namespace Answer

open Text Number

/-- The numeral stands at the start of the value, with nothing or a space behind it. -/
def LeadingNumeral (value numeral : List Char) : Prop :=
  ∃ rest, value = numeral ++ rest ∧ IsSignedNumeral numeral ∧ ∀ c ∈ rest.head?, isUnitSpace c

/-- What a value is read as: its type, and the part of it that is kept. -/
inductive Typed (value : List Char) : AnswerTag → List Char → Prop
  | bool : IsTruthWord value → Typed value .bool value
  | float : ¬IsTruthWord value → LeadingNumeral value numeral → '.' ∈ numeral →
    Typed value .float numeral
  | int : ¬IsTruthWord value → LeadingNumeral value numeral → '.' ∉ numeral →
    FitsInt64 numeral → Typed value .int numeral
  | text : ¬IsTruthWord value →
    (∀ numeral, LeadingNumeral value numeral → '.' ∉ numeral ∧ ¬FitsInt64 numeral) →
    Typed value .string value

variable {value numeral text : List Char} {tag : AnswerTag}

/-! ## Numerals -/

theorem LeadingNumeral.isSignedNumeral (h : LeadingNumeral value numeral) :
    IsSignedNumeral numeral := by
  obtain ⟨-, -, hsigned, -⟩ := h
  exact hsigned

theorem exists_ofNumeral?_float (h : IsSignedNumeral numeral) (hpoint : '.' ∈ numeral) :
    ∃ x, ofNumeral? numeral = some ⟨String.ofList numeral, .float, x⟩ := by
  obtain @⟨sign, whole, fraction, hsign, hne, hdigits, hfraction⟩ := h
  obtain ⟨negative, hread⟩ := exists_readFloat?_signed hsign hne hdigits fraction
  rw [ofNumeral?, if_pos hpoint, hread]
  cases hfraction with
  | nil => exact absurd hpoint (point_not_mem_whole hsign hdigits)
  | point hfraction =>
    have hnumeral : IsNumeral whole _ _ := ⟨hne, hdigits, hfraction, rfl⟩
    rw [hnumeral.readFloat?_pointed]
    exact ⟨_, rfl⟩

theorem exists_isInteger (h : IsSignedNumeral numeral) (hpoint : '.' ∉ numeral) :
    ∃ v, IsInteger numeral v := by
  obtain @⟨sign, whole, fraction, hsign, hne, hdigits, hfraction⟩ := h
  cases hfraction with
  | nil =>
    rw [List.append_nil]
    simp only [List.mem_cons, List.not_mem_nil, or_false] at hsign
    rcases hsign with rfl | rfl | rfl
    · exact ⟨_, .unsigned hne hdigits⟩
    · exact ⟨_, .minus hne hdigits⟩
    · exact ⟨_, .plus hne hdigits⟩
  | point => simp at hpoint

theorem exists_ofNumeral?_int (hpoint : '.' ∉ numeral) (hfits : FitsInt64 numeral) :
    ∃ x, ofNumeral? numeral = some ⟨String.ofList numeral, .int, x⟩ := by
  obtain ⟨v, hv, -⟩ := id hfits
  rw [ofNumeral?, if_neg hpoint]
  cases hread : readInt64? numeral with
  | none => exact absurd hfits (hv.readInt64?_eq_none_iff.mp hread)
  | some v => exact ⟨_, rfl⟩

theorem ofNumeral?_eq_none (h : IsSignedNumeral numeral) (hpoint : '.' ∉ numeral)
    (hfits : ¬FitsInt64 numeral) : ofNumeral? numeral = none := by
  obtain ⟨v, hv⟩ := exists_isInteger h hpoint
  rw [ofNumeral?, if_neg hpoint, hv.readInt64?_eq_none_iff.mpr hfits]
  rfl

/-! ## Values -/

theorem exists_ofValue_truthWord (h : IsTruthWord value) :
    ∃ x, ofValue value = ⟨String.ofList value, .bool, x⟩ := by
  rw [ofValue]
  cases hword : boolOfWord? value with
  | none => exact absurd h (boolOfWord?_eq_none_iff.mp hword)
  | some b => exact ⟨_, rfl⟩

theorem LeadingNumeral.ofValue_eq {a : Answer} (h : LeadingNumeral value numeral)
    (hword : ¬IsTruthWord value) (ha : ofNumeral? numeral = some a) : ofValue value = a :=
  ofValue_of_numeralOf? (boolOfWord?_eq_none_iff.mpr hword) (numeralOf?_eq_some_iff.mpr h) ha

theorem Typed.ofValue_eq (h : Typed value tag text) :
    ∃ x, ofValue value = ⟨String.ofList text, tag, x⟩ := by
  cases h with
  | bool hword => exact exists_ofValue_truthWord hword
  | float hword hleads hpoint =>
    obtain ⟨x, hx⟩ := exists_ofNumeral?_float hleads.isSignedNumeral hpoint
    exact ⟨x, hleads.ofValue_eq hword hx⟩
  | int hword hleads hpoint hfits =>
    obtain ⟨x, hx⟩ := exists_ofNumeral?_int hpoint hfits
    exact ⟨x, hleads.ofValue_eq hword hx⟩
  | text hword hnone =>
    rw [ofValue, boolOfWord?_eq_none_iff.mpr hword]
    cases hnumeral : numeralOf? value with
    | none => exact ⟨_, rfl⟩
    | some numeral =>
      have hleads : LeadingNumeral value numeral := numeralOf?_eq_some_iff.mp hnumeral
      obtain ⟨hpoint, hfits⟩ := hnone numeral hleads
      rw [Option.bind_some, ofNumeral?_eq_none hleads.isSignedNumeral hpoint hfits]
      exact ⟨_, rfl⟩

/-- Each value is read as something. -/
theorem exists_typed (value : List Char) : ∃ tag text, Typed value tag text := by
  by_cases hword : IsTruthWord value
  · exact ⟨_, _, .bool hword⟩
  by_cases hread : ∃ numeral, LeadingNumeral value numeral ∧ ('.' ∈ numeral ∨ FitsInt64 numeral)
  · obtain ⟨numeral, hleads, hpoint | hfits⟩ := hread
    · exact ⟨_, _, .float hword hleads hpoint⟩
    · by_cases hpoint : '.' ∈ numeral
      · exact ⟨_, _, .float hword hleads hpoint⟩
      · exact ⟨_, _, .int hword hleads hpoint hfits⟩
  · refine ⟨_, _, .text hword fun numeral hleads => ?_⟩
    exact not_or.mp fun h => hread ⟨numeral, hleads, h⟩

theorem typed_ofValue_iff :
    (ofValue value).tag = tag ∧ (ofValue value).text = String.ofList text ↔
      Typed value tag text := by
  constructor
  · rintro ⟨rfl, htext⟩
    obtain ⟨tag, text', htyped⟩ := exists_typed value
    obtain ⟨x, hx⟩ := htyped.ofValue_eq
    rw [hx] at htext ⊢
    obtain rfl := String.ofList_injective htext
    exact htyped
  · intro h
    obtain ⟨x, hx⟩ := h.ofValue_eq
    rw [hx]
    exact ⟨rfl, rfl⟩

/-! ## Lines -/

/-- The value of a line is typed just as its characters say. -/
theorem typed_iff {echo value : String} (he : Plain echo.toList) (hv : IsTrimmed value.toList)
    (hne : value ≠ "") (tag : AnswerTag) (text : String) :
    let a := ofLine ("SUCCESS: " ++ echo ++ " = " ++ value)
    a.tag = tag ∧ a.text = text ↔ Typed value.toList tag text.toList := by
  have hchars : value.toList ≠ [] := fun h => hne (String.toList_eq_nil_iff.mp h)
  have hline : "SUCCESS: " ++ echo ++ " = " ++ value =
      (Response.success echo (some value)).line := by
    apply String.toList_injective
    rw [value_line_toList]
    simp [Response.successMark]
  have hvalue : ofLine ("SUCCESS: " ++ echo ++ " = " ++ value) = ofValue value.toList := by
    rw [hline]
    exact (he.passedOver.ofResponse_value (hv.not_isBlankText hchars)).trans
      (congrArg ofValue hv.trim_eq)
  intro a
  rw [show a = _ from hvalue, ← typed_ofValue_iff, String.ofList_toList]

/-- A numeral may end in its point, and what stands behind the space may look like a separator. -/
theorem typed_iff_bareDot :
    Plain "axis 2.level".toList ∧ IsTrimmed "+7.\tmm = (x".toList ∧
      (ofLine ("SUCCESS: " ++ "axis 2.level" ++ " = " ++ "+7.\tmm = (x")).tag = .float ∧
      (ofLine ("SUCCESS: " ++ "axis 2.level" ++ " = " ++ "+7.\tmm = (x")).text = "+7." := by
  have hplain : Plain "axis 2.level".toList := ⟨by decide, by decide, by simp [isQuote]⟩
  have htrimmed : IsTrimmed "+7.\tmm = (x".toList := by decide
  have hsigned : IsSignedNumeral ['+', '7', '.'] :=
    @IsSignedNumeral.mk ['+'] ['7'] ['.'] (by simp) (by simp) (by simp) (.point (by simp))
  have hleads : LeadingNumeral "+7.\tmm = (x".toList "+7.".toList :=
    ⟨"\tmm = (x".toList, by simp, hsigned, by simp [isUnitSpace]⟩
  have htyped := Typed.float (by decide) hleads (by simp)
  exact ⟨hplain, htrimmed, (typed_iff hplain htrimmed (by decide) .float "+7.").mpr htyped⟩

end Answer

end BenchConsole
