import BenchConsole.Proofs.Literal
import BenchConsole.Proofs.Text.Lines
import BenchConsole.Script.Interpreter

/-!
# Script values read back

A value is read back from its literal (`readValue_literalChars`), whatever characters a text in it
holds. The literal has no line end and no blank at either end (`isOneLine_literalChars`,
`isTrimmed_literalChars`), so that it never reaches beyond the statement it is written in. The one
exception are floats that are not finite: their literal reads as a text.
-/

namespace BenchConsole.Script

open Text Number

variable {cs : List Char} {v : Value}

/-- The values that are read back from their literals. -/
def Value.IsReadable : Value → Prop
  | float x => x.isFinite
  | _ => True

/-! ## Escapes -/

/-- A character is read back from its escaped form. -/
theorem unescape_escapeChar_append (c : Char) (cs : List Char) :
    unescape (Value.escapeChar c ++ cs) = (unescape cs).map (c :: ·) := by
  unfold Value.escapeChar
  split_ifs with hquote hslash hlf hcr
  · obtain rfl := hquote
    rfl
  · obtain rfl := hslash
    rfl
  · obtain rfl := hlf
    rfl
  · obtain rfl := hcr
    rfl
  · rw [List.singleton_append, unescape]
    · exact fun h _ => hslash h
    · exact fun _ _ h _ => hslash h

theorem unescape_flatMap_escapeChar (cs : List Char) :
    unescape (cs.flatMap Value.escapeChar) = .ok cs := by
  induction cs with
  | nil => rfl
  | cons c cs ih =>
    rw [List.flatMap_cons, unescape_escapeChar_append, ih]
    rfl

theorem isOneLine_escapeChar (c : Char) : IsOneLine (Value.escapeChar c) := by
  unfold Value.escapeChar
  split_ifs with hquote hslash hlf hcr
  · decide
  · decide
  · decide
  · decide
  · intro d hd
    obtain rfl := List.mem_singleton.mp hd
    simp [isLineEnd, hlf, hcr]

theorem doubleQuoted?_quoted (cs : List Char) : doubleQuoted? ('"' :: cs ++ ['"']) = some cs := by
  simp [doubleQuoted?]

/-! ## Literals -/

theorem Value.literalChars_float {x : Float} (hx : x.isFinite) :
    (float x).literalChars = pointedText x :=
  if_pos hx

/-- What has no double quote at its start is read as an argument literal. -/
theorem readValue_of_head (hnone : cs ≠ "None".toList) (hhead : cs.head? ≠ some '"') :
    readValue cs = .ok (.ofLiteral (Literal.ofChars cs)) := by
  have hquoted : doubleQuoted? cs = none := by
    cases cs with
    | nil => rfl
    | cons c cs =>
      have hc : c ≠ '"' := fun he => hhead (congrArg some he)
      simp [doubleQuoted?, hc]
  rw [readValue, if_neg hnone, hquoted]

theorem readValue_numeral (h : ∀ c ∈ cs, isNumeralChar c) :
    readValue cs = .ok (.ofLiteral (Literal.ofChars cs)) := by
  refine readValue_of_head ?_ fun hhead => ?_
  · rintro rfl
    exact absurd (h 'N' List.mem_cons_self) (by decide)
  · exact absurd (h '"' (List.mem_of_mem_head? hhead)) (by decide)

/-- A value is read back from its literal. -/
theorem readValue_literalChars (h : v.IsReadable) : readValue v.literalChars = .ok v := by
  cases v with
  | none => rfl
  | bool b => cases b <;> rfl
  | int v =>
    have hread : Literal.ofChars (intText v.toInt) = .int v :=
      Literal.ofChars_chars (v := .int v) trivial
    rw [Value.literalChars, readValue_numeral (isNumeralChar_intText _), hread]
    rfl
  | float x =>
    have hread : Literal.ofChars (pointedText x) = .float x :=
      Literal.ofChars_chars (v := .float x) h
    rw [Value.literalChars_float h, readValue_numeral (isNumeralChar_pointedText h), hread]
    rfl
  | str s =>
    rw [Value.literalChars, readValue, if_neg (by simp), doubleQuoted?_quoted]
    simp only [unescape_flatMap_escapeChar, Except.map, String.ofList_toList]

theorem isTrimmed_literalChars (h : v.IsReadable) : IsTrimmed v.literalChars := by
  cases v with
  | none => decide
  | bool b => cases b <;> decide
  | int v => exact Literal.isTrimmed_chars (v := .int v) trivial
  | float x =>
    rw [Value.literalChars_float h]
    exact Literal.isTrimmed_chars (v := .float x) h
  | str s => exact isTrimmed_between rfl _

theorem literalChars_ne_nil (h : v.IsReadable) : v.literalChars ≠ [] := by
  cases v with
  | none => decide
  | bool b => cases b <;> decide
  | int v => exact intText_ne_nil _
  | float x =>
    rw [Value.literalChars_float h]
    exact List.ne_nil_of_mem (point_mem_pointedText h)
  | str s => exact List.cons_ne_nil _ _

theorem isOneLine_numeral (h : ∀ c ∈ cs, isNumeralChar c) : IsOneLine cs :=
  isOneLine_of_no_blank fun c hc => isBlank_eq_false_of_isNumeralChar (h c hc)

/-- A literal is one line, whatever line ends are in the text that it stands for. -/
theorem isOneLine_literalChars (h : v.IsReadable) : IsOneLine v.literalChars := by
  cases v with
  | none => decide
  | bool b => cases b <;> decide
  | int v => exact isOneLine_numeral (isNumeralChar_intText _)
  | float x =>
    rw [Value.literalChars_float h]
    exact isOneLine_numeral (isNumeralChar_pointedText h)
  | str s =>
    have hquote : IsOneLine ['"'] := by decide
    have hinner : IsOneLine (s.toList.flatMap Value.escapeChar) := by
      intro d hd
      obtain ⟨c, -, hc⟩ := List.mem_flatMap.mp hd
      exact isOneLine_escapeChar c d hc
    exact (hquote.append hinner).append hquote

end BenchConsole.Script
