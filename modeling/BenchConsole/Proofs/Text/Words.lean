import BenchConsole.Proofs.Text.Scanning
import BenchConsole.Text.Quote
import BenchConsole.Text.Word

/-!
# Words

The names and keywords of commands consist of ASCII letters and underscores only (`IsWord`). A
text that agrees with a word up to the case of its letters is a word itself
(`IsWord.of_sameWord`), so none of the characters that a reader looks for (blanks, quotation
marks, parentheses, commas, equals signs) can stand in it.
-/

namespace BenchConsole.Text

variable {as bs cs : List Char} {c d : Char}

/-- The characters of names and keywords. -/
def isWordChar (c : Char) : Bool :=
  c.isAlpha || c == '_'

/-- A text of word characters only. -/
def IsWord (cs : List Char) : Prop := ∀ c ∈ cs, isWordChar c

instance : Decidable (IsWord cs) := List.decidableBAll (fun c => isWordChar c) cs

theorem isWordChar_iff : isWordChar c ↔
    65 ≤ c.toNat ∧ c.toNat ≤ 90 ∨ 97 ≤ c.toNat ∧ c.toNat ≤ 122 ∨ c.toNat = 95 := by
  have h95 : c = '_' ↔ c.toNat = 95 := by
    rw [← Char.toNat_inj]
    rfl
  delta isWordChar Char.isAlpha Char.isUpper Char.isLower
  simp only [Bool.or_eq_true, Bool.and_eq_true, decide_eq_true_eq, beq_iff_eq, ge_iff_le,
    UInt32.le_iff_toNat_le, h95]
  exact or_assoc

theorem isBlank_eq_false_of_isWordChar (h : isWordChar c) : isBlank c = false := by
  have hc := isWordChar_iff.mp h
  simp only [isBlank, Bool.or_eq_false_iff, Bool.and_eq_false_iff, decide_eq_false_iff_not,
    beq_eq_false_iff_ne]
  omega

theorem ne_of_isWordChar (hc : isWordChar c) (hd : isWordChar d = false) : c ≠ d := by
  rintro rfl
  simp [hc] at hd

/-! ## Comparison without regard to case -/

theorem sameWord_iff : sameWord as bs ↔ lower as = lower bs := beq_iff_eq

theorem sameWord_symm (h : sameWord as bs) : sameWord bs as :=
  sameWord_iff.mpr (sameWord_iff.mp h).symm

theorem sameWord_trans (h₁ : sameWord as bs) (h₂ : sameWord bs cs) : sameWord as cs :=
  sameWord_iff.mpr ((sameWord_iff.mp h₁).trans (sameWord_iff.mp h₂))

theorem length_eq_of_sameWord (h : sameWord as bs) : as.length = bs.length := by
  simpa [lower] using congrArg List.length (sameWord_iff.mp h)

theorem isWordChar_toLower (c : Char) : isWordChar c.toLower = isWordChar c := by
  unfold Char.toLower
  split
  · next h =>
    have h65 : 65 ≤ c.toNat := UInt32.le_iff_toNat_le.mp h.1
    have h90 : c.toNat ≤ 90 := UInt32.le_iff_toNat_le.mp h.2
    have hval : (c.val + ('a'.val - 'A'.val)).toNat = c.toNat + 32 := by
      rw [UInt32.toNat_add]
      change (c.toNat + 32) % 4294967296 = c.toNat + 32
      omega
    rw [Bool.eq_iff_iff, isWordChar_iff, isWordChar_iff, Char.toNat, hval]
    omega
  · rfl

theorem isWordChar_toUpper (c : Char) : isWordChar c.toUpper = isWordChar c := by
  unfold Char.toUpper
  split
  · next h =>
    have h97 : 97 ≤ c.toNat := UInt32.le_iff_toNat_le.mp h.1
    have h122 : c.toNat ≤ 122 := UInt32.le_iff_toNat_le.mp h.2
    have hval : (c.val + ('A'.val - 'a'.val)).toNat = c.toNat - 32 := by
      rw [UInt32.toNat_add]
      change (c.toNat + 4294967264) % 4294967296 = c.toNat - 32
      omega
    rw [Bool.eq_iff_iff, isWordChar_iff, isWordChar_iff, Char.toNat, hval]
    omega
  · rfl

theorem isWord_lower : IsWord (lower cs) ↔ IsWord cs := by
  simp [IsWord, lower, isWordChar_toLower]

theorem isWord_upper : IsWord (upper cs) ↔ IsWord cs := by
  simp [IsWord, upper, isWordChar_toUpper]

theorem IsWord.of_sameWord (h : IsWord as) (hs : sameWord as bs) : IsWord bs := by
  rw [← isWord_lower, ← sameWord_iff.mp hs]
  exact isWord_lower.mpr h

/-! ## What cannot stand in a word -/

theorem IsWord.not_mem (h : IsWord cs) (hd : isWordChar d = false) : d ∉ cs :=
  fun hm => ne_of_isWordChar (h d hm) hd rfl

theorem IsWord.isTrimmed (h : IsWord cs) : IsTrimmed cs :=
  isTrimmed_of_forall fun c hc => isBlank_eq_false_of_isWordChar (h c hc)

theorem IsWord.isQuote_eq_false (h : IsWord cs) : ∀ c ∈ cs, isQuote c = false := by
  intro c hc
  simp only [isQuote, Bool.or_eq_false_iff, beq_eq_false_iff_ne]
  exact ⟨ne_of_isWordChar (h c hc) rfl, ne_of_isWordChar (h c hc) rfl⟩

/-- A text with a character that no word has agrees with no word. -/
theorem sameWord_eq_false_of_mem (hword : IsWord bs) (hc : c ∈ cs) (hw : isWordChar c = false) :
    sameWord cs bs = false := by
  rw [← Bool.not_eq_true]
  exact fun h => (hword.of_sameWord (sameWord_symm h)).not_mem hw hc

/-! ## Bounded texts -/

theorem bounded_eq_self_iff : bounded cs = cs ↔ cs.length ≤ maxTextLength := by
  constructor
  · intro h
    exact h ▸ List.length_take_le _ _
  · exact List.take_of_length_le

theorem length_bounded_le (cs : List Char) : (bounded cs).length ≤ maxTextLength :=
  List.length_take_le _ _

end BenchConsole.Text
