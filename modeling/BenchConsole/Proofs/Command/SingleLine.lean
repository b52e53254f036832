import BenchConsole.Proofs.Binding.Request
import BenchConsole.Proofs.Board.SingleLine
import BenchConsole.Proofs.Command.Grammar

/-!
# Commands of single lines

Everything that reading takes from a command text stands in it: the name, the pieces, and of each
piece the name and the value of an argument. So a command that is read from a single line is made
of single lines (`Command.InOneLine`), and a text that is not read is rejected in one line
(`singleLine_of_parse_error`). The other way round holds for texts that are no calls, which are
quoted whole (`singleLine_of_splitCall_error`).
-/

namespace BenchConsole

open Text

variable {cs name body : List Char} {pieces : List (List Char)} {v : Literal} {a : Argument}
  {c : Command} {text function : String} {failure : Failure} {entry : FunctionEntry}

/-! ## Literals and arguments -/

/-- A value that is no text is written in one line. -/
theorem Literal.singleLine_plain (h : v.IsReadable) (hs : ∀ s, v = .string s → SingleLine s) :
    SingleLine v.plain := by
  cases v with
  | absent => cases h
  | int v =>
    have hdigits := isOneLine_of_isNumeralChar (Number.isNumeralChar_intText v.toInt)
    exact singleLine_ofList_iff.mpr hdigits
  | float x =>
    have hdigits := isOneLine_of_isNumeralChar (Number.isNumeralChar_pointedText h)
    exact singleLine_ofList_iff.mpr hdigits
  | string s => exact hs s rfl
  | bool b => exact singleLine_ofList_iff.mpr (isOneLine_of_isWord (isWord_boolText b))

theorem Literal.singleLine_plain_ofChars (h : IsOneLine cs) : SingleLine (ofChars cs).plain := by
  refine singleLine_plain (isReadable_ofChars cs) fun s hs => ?_
  exact h.of_subset ((sublist_of_ofTrimmed hs).trans (trim_sublist cs)).subset

/-- An argument whose name and value are single lines. -/
structure Argument.InOneLine (a : Argument) : Prop where
  name : ∀ name ∈ a.name, SingleLine name
  value : SingleLine a.value.plain

theorem Argument.inOneLine_ofChars (h : IsOneLine cs) : (ofChars cs).InOneLine := by
  rcases ofChars_cases cs with ⟨name, value, hcs, -, -, he⟩ | he
  · have htrim : IsOneLine (name ++ '=' :: value) := hcs ▸ h.of_subset (trim_sublist cs).subset
    obtain ⟨hname, hvalue⟩ := isOneLine_append_iff.mp htrim
    rw [he]
    refine ⟨?_, Literal.singleLine_plain_ofChars (hvalue.of_subset (List.subset_cons_self _ _))⟩
    rintro _ ⟨⟩
    have hbounded : (bounded (trim name)).Sublist name :=
      (List.take_sublist _ _).trans (trim_sublist name)
    exact singleLine_ofList_iff.mpr (hname.of_subset hbounded.subset)
  · rw [he]
    exact ⟨nofun, Literal.singleLine_plain_ofChars h⟩

/-! ## Pieces -/

theorem Text.Cut.sublist (h : Cut cs pieces) : ∀ piece ∈ pieces, piece.Sublist cs := by
  induction h with
  | last h =>
    intro piece hp
    rw [List.mem_singleton.mp hp]
  | comma hw hcut ih =>
    intro piece hp
    rcases List.mem_cons.mp hp with rfl | hp
    · exact List.sublist_append_left _ _
    · exact (ih piece hp).trans ((List.sublist_cons_self _ _).trans (List.sublist_append_right _ _))

theorem Grammar.HasPieces.sublist (h : HasPieces body pieces) :
    ∀ piece ∈ pieces, piece.Sublist body := by
  cases h with
  | blank hb => exact nofun
  | cut hb hcut =>
    intro piece hp
    obtain ⟨part, hpart, rfl⟩ := List.mem_map.mp hp
    exact (trim_sublist part).trans (hcut.sublist part hpart)

theorem Grammar.IsCall.isOneLine {text : List Char} (h : IsCall text name body)
    (hl : IsOneLine text) : IsOneLine (trim name) ∧ IsOneLine body := by
  rw [h.eq, isOneLine_append_iff] at hl
  obtain ⟨hname, hrest⟩ := hl
  have hbody : body.Sublist ('(' :: (body ++ [')'])) :=
    (List.sublist_append_left _ _).trans (List.sublist_cons_self _ _)
  exact ⟨hname.of_subset (trim_sublist name).subset, hrest.of_subset hbody.subset⟩

/-! ## Commands -/

/-- A command whose function and arguments are single lines. -/
structure Command.InOneLine (c : Command) : Prop where
  function : SingleLine c.function
  arguments : ∀ a ∈ c.arguments, a.InOneLine

theorem Command.inOneLine_of_parse (h : Command.parse text = .ok c)
    (hl : IsOneLine (trim text.toList)) : c.InOneLine := by
  rw [parse_eq_ok_iff, Grammar.verdict_ok_iff] at h
  obtain ⟨-, name, body, pieces, hcall, hname, hpieces, -, hfrom⟩ := h
  obtain ⟨hfunction, hbody⟩ := hcall.isOneLine hl
  have hread : ∀ a ∈ pieces.map Argument.ofChars, a.InOneLine := by
    intro a ha
    obtain ⟨piece, hp, rfl⟩ := List.mem_map.mp ha
    exact Argument.inOneLine_ofChars (hbody.of_subset (hpieces.sublist piece hp).subset)
  refine ⟨hname ▸ singleLine_ofList_iff.mpr hfunction, ?_⟩
  unfold Grammar.FromPieces at hfrom
  split at hfrom
  · obtain ⟨rest, rfl, harguments⟩ := hfrom
    rw [← harguments]
    exact fun a ha => hread a (List.mem_cons_of_mem _ ha)
  · rwa [← hfrom]

/-! ## Rejections -/

/-- A text that is no call is quoted whole. -/
theorem singleLine_of_splitCall_error (h : Command.splitCall cs = .error failure) :
    SingleLine failure.message ↔ IsOneLine cs := by
  have hmalformed {problem : String} (hp : SingleLine problem) :
      SingleLine (Command.malformed problem cs).message ↔ IsOneLine cs := by
    have hmarks : SingleLine "invalid command: " ∧ SingleLine " in '" ∧ SingleLine "'" := by
      decide
    unfold Command.malformed Failure.message
    simp only [singleLine_append_iff, singleLine_ofList_iff, hmarks, hp, true_and, and_true]
  unfold Command.splitCall at h
  repeat' split at h
  all_goals cases h
  all_goals exact hmalformed (by decide)

theorem singleLine_of_checkedPieces_error (hf : SingleLine function)
    (h : Command.checkedPieces function body = .error failure) : SingleLine failure.message := by
  simp only [Command.checkedPieces] at h
  repeat' split at h
  all_goals cases h
  all_goals
    unfold Failure.message
    simp only [singleLine_append_iff, hf, singleLine_toString_nat]
    decide

theorem singleLine_invalidSubaction {action : String} (hf : SingleLine function)
    (ha : SingleLine action) : SingleLine (Failure.invalidSubaction function action).message := by
  unfold Failure.message
  simp only [singleLine_append_iff, hf, ha]
  decide

theorem singleLine_of_ofPieces_error (hf : SingleLine function)
    (hp : ∀ piece ∈ pieces, IsOneLine piece)
    (h : Command.ofPieces function entry pieces = .error failure) : SingleLine failure.message := by
  have hverbs : ∀ verb ∈ FunctionTable.verbs, SingleLine verb := by decide
  unfold Command.ofPieces at h
  split at h
  · dsimp only at h
    split at h
    · cases h
    · cases h
      refine singleLine_invalidSubaction hf (singleLine_ofList_iff.mpr ?_)
      cases pieces with
      | nil => exact List.forall_mem_nil _
      | cons piece pieces => exact hp piece List.mem_cons_self
  · dsimp only at h
    split at h
    · cases h
    · cases h
      refine singleLine_invalidSubaction hf ?_
      cases hverb : FunctionTable.verbOf? function with
      | none => decide
      | some verb => exact hverbs verb (FunctionTable.verbOf?_eq_some_iff.mp hverb).mem

/-- A single line that is not read is rejected in one line. -/
theorem singleLine_of_parse_error (h : Command.parse text = .error failure)
    (hl : IsOneLine (trim text.toList)) : SingleLine failure.message := by
  rw [Command.parse, Command.ofChars, bind_eq_error_iff] at h
  obtain h | ⟨⟨function, body⟩, hsplit, h⟩ := h
  · exact (singleLine_of_splitCall_error h).mpr hl
  obtain ⟨name, hcall, rfl⟩ := (Grammar.splitCall_eq_ok_iff (isTrimmed_trim _)).mp hsplit
  obtain ⟨hname, hbody⟩ := hcall.isOneLine hl
  have hfunction : SingleLine (String.ofList (bounded (trim name))) :=
    singleLine_ofList_iff.mpr (hname.of_subset (List.take_sublist _ _).subset)
  dsimp only at h
  split at h
  · cases h
    unfold Failure.message
    simp only [singleLine_append_iff, hfunction]
    decide
  · rw [bind_eq_error_iff] at h
    obtain h | ⟨pieces, hpieces, h⟩ := h
    · exact singleLine_of_checkedPieces_error hfunction h
    · obtain ⟨hpieces, -⟩ := Grammar.checkedPieces_eq_ok_iff.mp hpieces
      exact singleLine_of_ofPieces_error hfunction
        (fun piece hp => hbody.of_subset (hpieces.sublist piece hp).subset) h

end BenchConsole
