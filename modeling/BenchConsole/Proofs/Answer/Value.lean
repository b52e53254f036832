import BenchConsole.Answer
import BenchConsole.Proofs.Literal

/-!
# The value in a response line

`numeralOf?` finds a numeral at the start of a value if and only if one stands there and nothing
or a space follows it (`numeralOf?_eq_some_iff`). So an integer and a measured value with its unit
are typed as what they were written for (`ofValue_intText`, `exists_ofValue_fixedText`), and a
text that is neither a word for a truth value nor starts with a numeral stays a text
(`ofValue_text`).
-/

namespace BenchConsole.Answer

open Text Number

/-- The part of a numeral behind its whole digits. -/
inductive IsFraction : List Char → Prop
  | nil : IsFraction []
  | point : (∀ c ∈ digits, c.isDigit) → IsFraction ('.' :: digits)

/-- Digits, with an optional sign in front of them and an optional fraction behind. -/
inductive IsSignedNumeral : List Char → Prop
  | mk : sign ∈ [[], ['-'], ['+']] → whole ≠ [] → (∀ c ∈ whole, c.isDigit) → IsFraction fraction →
    IsSignedNumeral (sign ++ (whole ++ fraction))

/-- The words for truth values; those for levels have to be in upper case. -/
def IsTruthWord (cs : List Char) : Prop :=
  cs = "HIGH".toList ∨ cs = "LOW".toList ∨ sameWord cs "true".toList ∨ sameWord cs "false".toList

instance : Decidable (IsTruthWord cs) :=
  inferInstanceAs (Decidable (cs = "HIGH".toList ∨ cs = "LOW".toList ∨
    sameWord cs "true".toList ∨ sameWord cs "false".toList))

/-- A numeral at the start of a text, with nothing or a space behind it. -/
def StartsWithNumeral (cs : List Char) : Prop :=
  ∃ numeral rest, cs = numeral ++ rest ∧ IsSignedNumeral numeral ∧ ∀ c ∈ rest.head?, isUnitSpace c

variable {c : Char} {cs numeral rest value whole fraction : List Char}

/-! ## Numerals -/

theorem takeWhile_dropWhile_append {p : Char → Bool} (hcs : ∀ c ∈ cs, p c)
    (hrest : ∀ c ∈ rest.head?, p c = false) :
    (cs ++ rest).takeWhile p = cs ∧ (cs ++ rest).dropWhile p = rest := by
  have hspan := span_eq_iff.mpr ⟨rfl, hcs, hrest⟩
  rwa [List.span_eq_takeWhile_dropWhile, Prod.mk.injEq] at hspan

theorem spanSign_spec (cs : List Char) :
    (spanSign cs).1 ∈ [[], ['-'], ['+']] ∧ cs = (spanSign cs).1 ++ (spanSign cs).2 := by
  unfold spanSign
  split <;> simp

theorem spanSign_append {sign : List Char} (hsign : sign ∈ [[], ['-'], ['+']]) (hc : c.isDigit) :
    spanSign (sign ++ c :: cs) = (sign, c :: cs) := by
  have hminus : c ≠ '-' := isDigit_ne hc rfl
  have hplus : c ≠ '+' := isDigit_ne hc rfl
  simp only [List.mem_cons, List.not_mem_nil, or_false] at hsign
  rcases hsign with rfl | rfl | rfl <;> simp [spanSign, hminus, hplus]

theorem spanFraction_spec (cs : List Char) :
    IsFraction (spanFraction cs).1 ∧ cs = (spanFraction cs).1 ++ (spanFraction cs).2 := by
  unfold spanFraction
  split
  · exact ⟨.point fun c hc => List.mem_takeWhile_imp hc, by simp⟩
  · exact ⟨.nil, rfl⟩

theorem not_isDigit_of_isUnitSpace (h : isUnitSpace c) : c.isDigit = false := by
  simp only [isUnitSpace, Bool.or_eq_true, beq_iff_eq] at h
  rcases h with (((rfl | rfl) | rfl) | rfl) | rfl <;> rfl

theorem spanFraction_append (hf : IsFraction fraction)
    (hrest : ∀ c ∈ rest.head?, isUnitSpace c) :
    spanFraction (fraction ++ rest) = (fraction, rest) := by
  cases hf with
  | nil =>
    cases rest with
    | nil => rfl
    | cons c rest =>
      have hc : c ≠ '.' := by
        rintro rfl
        cases hrest '.' rfl
      simp [spanFraction, hc]
  | point hdigits =>
    have hspan := takeWhile_dropWhile_append hdigits fun c hc =>
      not_isDigit_of_isUnitSpace (hrest c hc)
    simp [spanFraction, hspan.1, hspan.2]

theorem not_isDigit_head_fraction (hf : IsFraction fraction)
    (hrest : ∀ c ∈ rest.head?, isUnitSpace c) :
    ∀ c ∈ (fraction ++ rest).head?, c.isDigit = false := by
  cases hf with
  | nil => exact fun c hc => not_isDigit_of_isUnitSpace (hrest c hc)
  | point =>
    intro c hc
    obtain rfl : '.' = c := by simpa using hc
    rfl

/-- A numeral is found if and only if it stands at the start, with nothing or a space behind it. -/
theorem numeralOf?_eq_some_iff : numeralOf? value = some numeral ↔
    ∃ rest, value = numeral ++ rest ∧ IsSignedNumeral numeral ∧
      ∀ c ∈ rest.head?, isUnitSpace c := by
  constructor
  · intro h
    obtain ⟨hsign, hvalue⟩ := spanSign_spec value
    obtain ⟨hf, htail⟩ := spanFraction_spec ((spanSign value).2.dropWhile Char.isDigit)
    simp only [numeralOf?] at h
    split at h
    · cases h
    next hwhole =>
    rw [List.isEmpty_iff] at hwhole
    have hnumeral := IsSignedNumeral.mk hsign hwhole (fun c hc => List.mem_takeWhile_imp hc) hf
    have hparts : value = (spanSign value).1 ++ ((spanSign value).2.takeWhile Char.isDigit ++
        ((spanFraction ((spanSign value).2.dropWhile Char.isDigit)).1 ++
          (spanFraction ((spanSign value).2.dropWhile Char.isDigit)).2)) := by
      rw [← htail, List.takeWhile_append_dropWhile, ← hvalue]
    generalize (spanFraction ((spanSign value).2.dropWhile Char.isDigit)).2 = rest at h hparts
    split at h
    · obtain rfl := Option.some.inj h
      exact ⟨[], by simpa using hparts, by simpa using hnumeral, by simp⟩
    · next c rest =>
      split at h
      · next hc =>
        obtain rfl := Option.some.inj h
        exact ⟨c :: rest, by simpa using hparts, by simpa using hnumeral, by simpa using hc⟩
      · cases h
  · rintro ⟨rest, rfl, @⟨sign, whole, fraction, hsign, hne, hdigits, hf⟩, hrest⟩
    have hspan := takeWhile_dropWhile_append hdigits (not_isDigit_head_fraction hf hrest)
    have hstart : spanSign (sign ++ (whole ++ (fraction ++ rest))) =
        (sign, whole ++ (fraction ++ rest)) := by
      obtain ⟨c, cs, rfl⟩ := List.exists_cons_of_ne_nil hne
      exact spanSign_append hsign (hdigits c List.mem_cons_self)
    rw [List.append_assoc, List.append_assoc]
    simp only [numeralOf?, hstart, hspan.1, hspan.2, spanFraction_append hf hrest,
      List.isEmpty_eq_false_iff.mpr hne, Bool.false_eq_true, if_false, List.append_assoc]
    cases rest with
    | nil => rfl
    | cons c rest => exact if_pos (hrest c rfl)

theorem numeralOf?_eq_none_iff : numeralOf? value = none ↔ ¬StartsWithNumeral value := by
  rw [Option.eq_none_iff_forall_ne_some]
  constructor
  · rintro h ⟨numeral, rest, hnumeral⟩
    exact h numeral (numeralOf?_eq_some_iff.mpr ⟨rest, hnumeral⟩)
  · intro h numeral hn
    obtain ⟨rest, hnumeral⟩ := numeralOf?_eq_some_iff.mp hn
    exact h ⟨numeral, rest, hnumeral⟩

instance : Decidable (StartsWithNumeral value) :=
  decidable_of_iff (¬numeralOf? value = none) (by rw [numeralOf?_eq_none_iff, not_not])

theorem isSignedNumeral_signed (hne : whole ≠ []) (hdigits : ∀ c ∈ whole, c.isDigit)
    (hf : IsFraction fraction) (negative : Bool) :
    IsSignedNumeral (signed negative (whole ++ fraction)) := by
  cases negative with
  | false => exact @IsSignedNumeral.mk [] whole fraction (by simp) hne hdigits hf
  | true => exact @IsSignedNumeral.mk ['-'] whole fraction (by simp) hne hdigits hf

theorem isSignedNumeral_intText (v : Int) : IsSignedNumeral (intText v) := by
  have h := isSignedNumeral_signed Nat.toDigits_ne_nil (isDigit_toDigits v.natAbs) .nil
    (decide (v < 0))
  rwa [List.append_nil, ← intText_eq] at h

/-! ## Types of values -/

theorem boolOfWord?_eq_none_iff : boolOfWord? value = none ↔ ¬IsTruthWord value := by
  unfold boolOfWord? IsTruthWord
  repeat' split
  all_goals simp_all

/-- A value with a character that no word has is no word for a truth value. -/
theorem boolOfWord?_eq_none (hc : c ∈ value) (hw : isWordChar c = false) :
    boolOfWord? value = none := by
  have hsame {word : List Char} (hword : IsWord word) : ¬sameWord value word := by
    rw [sameWord_eq_false_of_mem hword hc hw]
    exact Bool.false_ne_true
  rw [boolOfWord?_eq_none_iff]
  rintro (rfl | rfl | h | h)
  · exact (by decide : IsWord "HIGH".toList).not_mem hw hc
  · exact (by decide : IsWord "LOW".toList).not_mem hw hc
  · exact hsame (by decide) h
  · exact hsame (by decide) h

theorem ofValue_of_numeralOf? (hb : boolOfWord? value = none)
    (hn : numeralOf? value = some numeral) {a : Answer} (ha : ofNumeral? numeral = some a) :
    ofValue value = a := by
  rw [ofValue, hb, hn, Option.bind_some, ha]
  rfl

/-- What is neither a word for a truth value nor starts with a numeral stays a text. -/
theorem ofValue_text (hb : ¬IsTruthWord value) (hn : ¬StartsWithNumeral value) :
    ofValue value = ⟨String.ofList value, .string, 0.0⟩ := by
  rw [ofValue, boolOfWord?_eq_none_iff.mpr hb, numeralOf?_eq_none_iff.mpr hn]
  rfl

theorem ofValue_intText (v : Int64) : ofValue (intText v.toInt) =
    ⟨String.ofList (intText v.toInt), .int, Binary64.ofInt v.toInt⟩ := by
  have hpoint : '.' ∉ intText v.toInt := not_mem_intText rfl (by decide)
  obtain ⟨c, cs, hcs⟩ := List.exists_cons_of_ne_nil (intText_ne_nil v.toInt)
  have hc : c ∈ intText v.toInt := by simp [hcs]
  have hbool := boolOfWord?_eq_none hc
    (isWordChar_eq_false_of_isNumeralChar (isNumeralChar_intText v.toInt c hc))
  refine ofValue_of_numeralOf? hbool (numeralOf?_eq_some_iff.mpr
    ⟨[], (List.append_nil _).symm, isSignedNumeral_intText _, by simp⟩) ?_
  rw [ofNumeral?, if_neg hpoint, readInt64?_intText]
  rfl

/-- A measured value with a unit is typed as the number, whatever the unit is. -/
theorem exists_ofValue_fixedText {x : Float} (hx : x.isFinite) (k : Nat) (unit : List Char) :
    ∃ y, readFloat? (fixedText (k + 1) x) = some y ∧
      ofValue (fixedText (k + 1) x ++ ' ' :: unit) =
        ⟨String.ofList (fixedText (k + 1) x), .float, y⟩ := by
  obtain ⟨whole, fraction, p, he, h⟩ := exists_fixedText hx k
  have hread := h.readFloat?_pointed (Binary64.isNegative x)
  rw [← he] at hread
  have hnumeral := isSignedNumeral_signed h.whole_ne_nil h.whole_digits (.point h.fraction_digits)
    (Binary64.isNegative x)
  rw [← he] at hnumeral
  have hpoint : '.' ∈ fixedText (k + 1) x := by
    rw [he, ← signed_append]
    simp
  refine ⟨_, hread, ofValue_of_numeralOf? ?_ (numeralOf?_eq_some_iff.mpr
    ⟨' ' :: unit, rfl, hnumeral, by simp [isUnitSpace]⟩) ?_⟩
  · exact boolOfWord?_eq_none (List.mem_append_left _ hpoint) rfl
  · rw [ofNumeral?, if_pos hpoint, hread]
    rfl

/-- The text of a typed value is no longer than the value. -/
theorem length_text_ofValue_le (value : List Char) :
    (ofValue value).text.toList.length ≤ value.length := by
  unfold ofValue
  split
  · rw [String.toList_ofList]
  · next hb =>
    cases hn : (numeralOf? value).bind ofNumeral? with
    | none => rw [Option.getD_none, String.toList_ofList]
    | some a =>
      obtain ⟨numeral, hnumeral, ha⟩ := Option.bind_eq_some_iff.mp hn
      obtain ⟨rest, rfl, -⟩ := numeralOf?_eq_some_iff.mp hnumeral
      have htext : a.text = String.ofList numeral := by
        unfold ofNumeral? at ha
        split at ha
        all_goals
          obtain ⟨_, -, rfl⟩ := Option.map_eq_some_iff.mp ha
          rfl
      rw [Option.getD_some, htext, String.toList_ofList, List.length_append]
      exact Nat.le_add_right _ _

end BenchConsole.Answer
