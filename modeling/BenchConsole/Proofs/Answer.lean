import BenchConsole.Proofs.Answer.Separator
import BenchConsole.Proofs.Answer.Value

/-!
# Response lines read back

What is read back from the line of a response depends on its echo only as far as the echo shows a
separator. An error gives its message (`ofResponse_error`), a success without a value its echo
(`ofResponse_echo_iff`). A success with a value gives the value, typed by its own text alone, if
the echo is enclosed and the value is not blank (`ofResponse_value`); a blank value is lost
(`ofResponse_blank_value`), because the end of the line is trimmed and the separator with it.

`Conveys reply a` says that the answer `a` is the value of `reply`.
-/

namespace BenchConsole.Answer

open Text Number Board

/-- The answer has the type and the value of the reply. Of a text only what is left after trimming
counts; a reply without a value conveys nothing. -/
def Conveys : Reply → Answer → Prop
  | .done, _ => True
  | .level high, a => a.tag = .bool ∧ a.bool? = some high
  | .flag holds, a => a.tag = .bool ∧ a.bool? = some holds
  | .int v, a => a = ⟨String.ofList (intText v.toInt), .int, Binary64.ofInt v.toInt⟩
  | .volts x, a | .milliamps x, a | .milliwatts x, a =>
    x.isFinite → a.tag = .float ∧ a.text = fixed 3 x ∧ readFloat? (fixedText 3 x) = some a.numeric
  | .text s, a => ¬IsBlankText s.toList → a = ofValue (trim s.toList)

variable {echo message : String} {value : String} {kind : FailureKind} {reply : Reply}

/-! ## Lines -/

theorem ofChars_errorMark_append (rest : List Char) :
    ofChars (Response.errorMark.toList ++ rest) =
      ⟨String.ofList (trim rest), .error, 0.0⟩ := by
  have hmark : IsTrimmed Response.errorMark.toList := by decide
  have hstarts (cs : List Char) :
      Response.errorMark.toList.isPrefixOf? (Response.errorMark.toList ++ cs) = some cs := rfl
  rw [ofChars, hmark.trim_append (by decide)]
  simp only [hstarts, trim_trimEnd]

theorem ofChars_successMark_append (rest : List Char) :
    ofChars (Response.successMark.toList ++ rest) =
      ((value? (trim rest)).map ofValue).getD ⟨String.ofList (trim rest), .string, 0.0⟩ := by
  have hmark : IsTrimmed Response.successMark.toList := by decide
  have herror (cs : List Char) :
      Response.errorMark.toList.isPrefixOf? (Response.successMark.toList ++ cs) = none := rfl
  have hstarts (cs : List Char) :
      Response.successMark.toList.isPrefixOf? (Response.successMark.toList ++ cs) = some cs := rfl
  rw [ofChars, hmark.trim_append (by decide)]
  simp only [herror, hstarts, Option.getD_some, trim_trimEnd]
  cases value? (trim rest) <;> rfl

theorem ofResponse_error (kind : FailureKind) (message : String) :
    ofResponse (.error kind message) = ⟨trimmed message, .error, 0.0⟩ := by
  have hline : (Response.error kind message).line.toList =
      Response.errorMark.toList ++ ' ' :: message.toList := by
    simp [Response.line]
  rw [ofResponse, ofLine, hline, ofChars_errorMark_append, trim_space]
  rfl

/-- A success without a value gives its echo if and only if the echo shows no separator. -/
theorem ofResponse_echo_iff (ht : IsTrimmed echo.toList) :
    ofResponse (.success echo none) = ⟨echo, .string, 0.0⟩ ↔ ¬ShowsSeparator echo.toList := by
  have hline : (Response.success echo none).line.toList =
      Response.successMark.toList ++ ' ' :: echo.toList := by
    simp [Response.line]
  rw [ofResponse, ofLine, hline, ofChars_successMark_append, trim_space, ht.trim_eq,
    String.ofList_toList, ← afterSeparator?_eq_none_iff_not_showsSeparator, value?]
  cases hsep : afterSeparator? none 0 echo.toList with
  | none => simp
  | some rest =>
    refine iff_of_false (fun h => ?_) (by simp)
    -- What stands behind a separator is shorter than the echo.
    have hlt := length_lt_of_afterSeparator? hsep
    have hle := (length_text_ofValue_le (trim rest)).trans (trim_sublist rest).length_le
    have htext : (ofValue (trim rest)).text = echo := congrArg Answer.text h
    rw [htext] at hle
    omega

theorem value_line_toList (echo value : String) :
    (Response.success echo (some value)).line.toList =
      Response.successMark.toList ++ ' ' :: (echo.toList ++ [' ', '='] ++ ' ' :: value.toList) := by
  simp [Response.line, separator_toList]

theorem isTrimmed_append_equals {cs : List Char} (h : IsTrimmed cs) (hne : cs ≠ []) :
    IsTrimmed (cs ++ [' ', '=']) := by
  obtain ⟨c, cs, rfl⟩ := List.exists_cons_of_ne_nil hne
  refine isTrimmed_of_ends (h.head c rfl) (rfl : isBlank '=' = false) rfl ?_
  rw [List.getLast?_append]
  rfl

/-- A value behind an echo that a scan passes over is typed by its own text alone. -/
theorem PassedOver.ofResponse_value (he : PassedOver echo.toList)
    (hv : ¬IsBlankText value.toList) :
    ofResponse (.success echo (some value)) = ofValue (trim value.toList) := by
  have hend : trimEnd (' ' :: value.toList) = ' ' :: trimEnd value.toList := by
    have happend := trimEnd_append [' '] value.toList
    rwa [if_neg hv] at happend
  have hscan : afterSeparator? none 0 (echo.toList ++ [' ', '='] ++ ' ' :: trimEnd value.toList) =
      some (trimEnd value.toList) := by
    rw [List.append_assoc, he.afterSeparator?_append, List.cons_append, afterSeparator?_cons]
    exact if_pos ⟨rfl, rfl, trimEnd value.toList, rfl⟩
  rw [ofResponse, ofLine, value_line_toList, ofChars_successMark_append, trim_space,
    (isTrimmed_append_equals he.isTrimmed he.ne_nil).trim_append (by simp), hend, value?, hscan,
    Option.map_some, trim_trimEnd]
  rfl

theorem ofResponse_value (he : IsEnclosed echo.toList) (hv : ¬IsBlankText value.toList) :
    ofResponse (.success echo (some value)) = ofValue (trim value.toList) :=
  he.passedOver.ofResponse_value hv

/-- A blank value is lost with the end of the separator. -/
theorem ofResponse_blank_value (he : IsEnclosed echo.toList) (hv : IsBlankText value.toList) :
    ofResponse (.success echo (some value)) = ⟨echo ++ " =", .string, 0.0⟩ := by
  obtain ⟨ht, hne⟩ := he.isTrimmed
  have hend : trimEnd (' ' :: value.toList) = [] := by
    have happend := trimEnd_append [' '] value.toList
    rwa [if_pos hv] at happend
  have hscan : afterSeparator? none 0 (echo.toList ++ [' ', '=']) = none := by
    rw [he.afterSeparator?_append]
    rfl
  have htext : String.ofList (echo.toList ++ [' ', '=']) = echo ++ " =" := by
    simp
  rw [ofResponse, ofLine, value_line_toList, ofChars_successMark_append, trim_space,
    (isTrimmed_append_equals ht hne).trim_append (by simp), hend, List.append_nil, value?, hscan,
    htext]
  rfl

/-- No value is read as an error. -/
theorem tag_ofValue_ne_error (value : List Char) : (ofValue value).tag ≠ .error := by
  unfold ofValue
  split
  · nofun
  · cases hn : (numeralOf? value).bind ofNumeral? with
    | none => nofun
    | some a =>
      obtain ⟨numeral, -, ha⟩ := Option.bind_eq_some_iff.mp hn
      unfold ofNumeral? at ha
      split at ha
      all_goals
        obtain ⟨x, -, rfl⟩ := Option.map_eq_some_iff.mp ha
        nofun

/-- An answer is an error if and only if the response is one, whatever its texts are. -/
theorem isError_ofResponse (r : Response) : (ofResponse r).isError = r.isError := by
  have hsuccess (rest : List Char) :
      (ofChars (Response.successMark.toList ++ rest)).isError = false := by
    rw [ofChars_successMark_append, isError, beq_eq_false_iff_ne]
    cases value? (trim rest) with
    | none => nofun
    | some value => exact tag_ofValue_ne_error value
  cases r with
  | error kind message =>
    rw [ofResponse_error]
    rfl
  | success summary value =>
    have hline : ∃ rest, (Response.success summary value).line.toList =
        Response.successMark.toList ++ rest := by
      cases value with
      | none => exact ⟨' ' :: summary.toList, by simp [Response.line]⟩
      | some value => exact ⟨_, value_line_toList summary value⟩
    obtain ⟨rest, hrest⟩ := hline
    rw [ofResponse, ofLine, hrest, hsuccess]
    rfl

/-! ## Replies -/

theorem ofResponse_value_of_isTrimmed (he : IsEnclosed echo.toList) (ht : IsTrimmed value.toList)
    (hne : value.toList ≠ []) :
    ofResponse (.success echo (some value)) = ofValue value.toList := by
  rw [ofResponse_value he (ht.not_isBlankText hne), ht.trim_eq]

/-- A measured value loses its unit and nothing else. -/
theorem ofResponse_measured {x : Float} {c : Char} (he : IsEnclosed echo.toList)
    (unit : List Char) (hvalue : value.toList = fixedText 3 x ++ ' ' :: unit)
    (hlast : unit.getLast? = some c)
    (hc : isBlank c = false) (hx : x.isFinite) :
    (ofResponse (.success echo (some value))).tag = .float ∧
      (ofResponse (.success echo (some value))).text = fixed 3 x ∧
      readFloat? (fixedText 3 x) = some (ofResponse (.success echo (some value))).numeric := by
  obtain ⟨hchars, hne⟩ := isNumeralChar_fixedText hx 2
  obtain ⟨y, hread, hof⟩ := exists_ofValue_fixedText hx 2 unit
  have ht : IsTrimmed value.toList := by
    obtain ⟨d, ds, hds⟩ := List.exists_cons_of_ne_nil hne
    have hd := isBlank_eq_false_of_isNumeralChar (hchars d (hds ▸ List.mem_cons_self))
    refine isTrimmed_of_ends hd hc ?_ ?_
    · rw [hvalue, hds]
      rfl
    · rw [hvalue, List.getLast?_append, List.getLast?_cons, hlast]
      rfl
  rw [ofResponse_value_of_isTrimmed he ht (by simp [hvalue]), hvalue, hof]
  exact ⟨rfl, rfl, hread⟩

theorem ofValue_levelWord (high : Bool) : ofValue (levelWord high).toList =
    ⟨levelWord high, .bool, if high then 1.0 else 0.0⟩ := by
  cases high <;> rfl

theorem bool?_truthValue (text : String) (b : Bool) :
    bool? ⟨text, .bool, if b then 1.0 else 0.0⟩ = some b := by
  have hone : ((1.0 : Float) == 0.0) = false := by decide
  have hzero : ((0.0 : Float) == 0.0) = true := by decide
  cases b <;> simp [bool?, hone, hzero]

/-- The answer to a reply has its type and its value, whatever enclosed echo stands before it. -/
theorem conveys_ofReply (he : IsEnclosed echo.toList) (reply : Reply) :
    Conveys reply (ofResponse (.ofReply echo (.ok reply))) := by
  cases reply with
  | done => trivial
  | level high =>
    have h : ofResponse (.ofReply echo (.ok (.level high))) =
        ⟨levelWord high, .bool, if high then 1.0 else 0.0⟩ := by
      rw [← ofValue_levelWord]
      exact ofResponse_value_of_isTrimmed he (by cases high <;> decide) (by cases high <;> decide)
    rw [h]
    exact ⟨rfl, bool?_truthValue _ high⟩
  | flag holds =>
    have h : ofResponse (.ofReply echo (.ok (.flag holds))) =
        ⟨if holds then "true" else "false", .bool, if holds then 1.0 else 0.0⟩ := by
      refine (ofResponse_value_of_isTrimmed he ?_ ?_).trans ?_
      all_goals cases holds
      all_goals decide
    rw [h]
    exact ⟨rfl, bool?_truthValue _ holds⟩
  | int v =>
    have htext : (String.ofList (intText v.toInt)).toList = intText v.toInt :=
      String.toList_ofList
    have ht : IsTrimmed (intText v.toInt) := isTrimmed_of_forall fun c hc =>
      isBlank_eq_false_of_isNumeralChar (isNumeralChar_intText _ c hc)
    refine (ofResponse_value_of_isTrimmed he ?_ ?_).trans ?_
    · rwa [htext]
    · rw [htext]
      exact intText_ne_nil _
    · rw [htext, ofValue_intText]
  | volts x => exact ofResponse_measured he ['V'] (by simp [fixed]) rfl rfl
  | milliamps x => exact ofResponse_measured he ['m', 'A'] (by simp [fixed]) rfl rfl
  | milliwatts x => exact ofResponse_measured he ['m', 'W'] (by simp [fixed]) rfl rfl
  | text s => exact ofResponse_value he

end BenchConsole.Answer
