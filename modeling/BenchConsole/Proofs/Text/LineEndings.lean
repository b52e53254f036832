import BenchConsole.Proofs.Text.Lines

/-!
# Line endings of one kind

`CrlfOnly` are the texts in which every line end is a carriage return followed by a line feed.
`crlfEndings` gives such a text (`crlfOnly_crlfEndings`), leaves such a text as it is
(`CrlfOnly.crlfEndings_eq`), and keeps what stands between the line ends
(`cutAtLineEnds_crlfEndings`). One more line end behind a text adds an empty piece, and that is the
only thing that `withCrlfEndings` adds. So the lines stay as they are, and a second run changes
nothing (`withCrlfEndings_normalizes`).
-/

namespace BenchConsole.Text

/-- What stands between the line ends of a text, before the first and behind the last of them. A
carriage return and a line feed right behind it are one line end; any other of them is one by
itself. -/
def cutAtLineEnds : List Char → List (List Char)
  | [] => [[]]
  | '\r' :: '\n' :: cs => [] :: cutAtLineEnds cs
  | c :: cs =>
    if isLineEnd c then [] :: cutAtLineEnds cs else (cutAtLineEnds cs).modifyHead (c :: ·)

/-- The lines of a text. No line starts behind a line end that the text ends in. -/
def endedLines (cs : List Char) : List (List Char) :=
  if (cutAtLineEnds cs).getLast? = some [] then (cutAtLineEnds cs).dropLast else cutAtLineEnds cs

/-- A text in which every line end is a carriage return followed by a line feed. -/
inductive CrlfOnly : List Char → Prop
  | nil : CrlfOnly []
  | char : isLineEnd c = false → CrlfOnly cs → CrlfOnly (c :: cs)
  | ending : CrlfOnly cs → CrlfOnly ('\r' :: '\n' :: cs)

/-- Carriage returns and line feeds stand together only, and the text ends in such a pair. -/
structure IsNormal (cs : List Char) : Prop where
  after_return : ∀ before after, cs = before ++ '\r' :: after → after.head? = some '\n'
  before_feed : ∀ before after, cs = before ++ '\n' :: after → before.getLast? = some '\r'
  ended : ['\r', '\n'] <:+ cs

variable {c : Char} {as bs cs : List Char}

/-! ## One step -/

theorem crlfEndings_char (hc : isLineEnd c = false) (cs : List Char) :
    crlfEndings (c :: cs) = c :: crlfEndings cs := by
  obtain ⟨hcr, hlf⟩ := isLineEnd_eq_false_iff.mp hc
  rw [crlfEndings]
  · exact fun _ he _ => hcr he
  · exact hcr
  · exact hlf

theorem cutAtLineEnds_char (hc : isLineEnd c = false) (cs : List Char) :
    cutAtLineEnds (c :: cs) = (cutAtLineEnds cs).modifyHead (c :: ·) := by
  obtain ⟨hcr, -⟩ := isLineEnd_eq_false_iff.mp hc
  rw [cutAtLineEnds, if_neg (by simp [hc])]
  exact fun _ he _ => hcr he

theorem exists_cutAtLineEnds (cs : List Char) :
    ∃ piece pieces, cutAtLineEnds cs = piece :: pieces := by
  fun_induction cutAtLineEnds cs with
  | case1 | case2 | case3 => exact ⟨_, _, rfl⟩
  | case4 c cs _ _ ih =>
    obtain ⟨piece, pieces, hcut⟩ := ih
    rw [hcut]
    exact ⟨_, _, rfl⟩

/-! ## Texts with one kind of line end -/

theorem crlfOnly_crlfEndings (cs : List Char) : CrlfOnly (crlfEndings cs) := by
  fun_induction crlfEndings cs with
  | case1 => exact .nil
  | case2 cs ih | case3 cs _ ih | case4 cs ih => exact .ending ih
  | case5 c cs _ hcr hlf ih => exact .char (isLineEnd_eq_false_iff.mpr ⟨hcr, hlf⟩) ih

theorem crlfEndings_ne_nil (h : cs ≠ []) : crlfEndings cs ≠ [] := by
  fun_cases crlfEndings cs with
  | case1 => exact h
  | case2 | case3 | case4 | case5 => exact List.cons_ne_nil _ _

theorem cutAtLineEnds_crlfEndings (cs : List Char) :
    cutAtLineEnds (crlfEndings cs) = cutAtLineEnds cs := by
  fun_induction crlfEndings cs with
  | case1 => rfl
  | case2 cs ih => rw [cutAtLineEnds, cutAtLineEnds, ih]
  | case3 cs hlf ih =>
    rw [cutAtLineEnds, cutAtLineEnds, ih]
    · rfl
    · exact fun _ _ => hlf _
  | case4 cs ih =>
    rw [cutAtLineEnds, cutAtLineEnds, ih]
    · rfl
    · exact fun _ he => absurd he (by decide)
  | case5 c cs _ hcr hlf ih =>
    have hc := isLineEnd_eq_false_iff.mpr ⟨hcr, hlf⟩
    rw [cutAtLineEnds_char hc, cutAtLineEnds_char hc, ih]

namespace CrlfOnly

theorem crlfEndings_eq (h : CrlfOnly cs) : crlfEndings cs = cs := by
  induction h with
  | nil => rfl
  | char hc _ ih => rw [crlfEndings_char hc, ih]
  | ending _ ih => rw [crlfEndings, ih]

theorem append (ha : CrlfOnly as) (hb : CrlfOnly bs) : CrlfOnly (as ++ bs) := by
  induction ha with
  | nil => exact hb
  | char hc _ ih => exact .char hc ih
  | ending _ ih => exact .ending ih

/-- Each character of a line end is one half of a pair. -/
theorem half (h : CrlfOnly cs) : ∀ before c after, cs = before ++ c :: after → isLineEnd c →
    c = '\r' ∧ after.head? = some '\n' ∨ c = '\n' ∧ before.getLast? = some '\r' := by
  induction h with
  | nil =>
    intro before c after he
    cases before <;> cases he
  | char hc _ ih =>
    intro before c after he hend
    cases before with
    | nil =>
      obtain ⟨rfl, -⟩ := List.cons_eq_cons.mp he
      rw [hc] at hend
      cases hend
    | cons d before =>
      refine (ih before c after (List.cons_eq_cons.mp he).2 hend).imp_right fun ⟨hlf, hlast⟩ => ?_
      rw [List.getLast?_cons, hlast]
      exact ⟨hlf, rfl⟩
  | ending _ ih =>
    intro before c after he hend
    match before, he with
    | [], he =>
      obtain ⟨rfl, rfl⟩ := List.cons_eq_cons.mp he
      exact .inl ⟨rfl, rfl⟩
    | [d], he =>
      simp only [List.cons_append, List.nil_append, List.cons_eq_cons] at he
      obtain ⟨rfl, rfl, -⟩ := he
      exact .inr ⟨rfl, rfl⟩
    | d :: e :: before, he =>
      simp only [List.cons_append, List.cons_eq_cons] at he
      refine (ih before c after he.2.2 hend).imp_right fun ⟨hlf, hlast⟩ => ?_
      rw [List.getLast?_cons, List.getLast?_cons, hlast]
      exact ⟨hlf, rfl⟩

theorem isNormal (h : CrlfOnly cs) (hended : ['\r', '\n'] <:+ cs) : IsNormal cs where
  after_return before after he := by
    rcases h.half before _ after he rfl with ⟨-, hhead⟩ | ⟨hne, -⟩
    · exact hhead
    · exact absurd hne (by decide)
  before_feed before after he := by
    rcases h.half before _ after he rfl with ⟨hne, -⟩ | ⟨-, hlast⟩
    · exact absurd hne (by decide)
    · exact hlast
  ended := hended

/-- A line end behind a text adds an empty piece. -/
theorem cutAtLineEnds_append_ending (h : CrlfOnly cs) :
    cutAtLineEnds (cs ++ ['\r', '\n']) = cutAtLineEnds cs ++ [[]] := by
  induction h with
  | nil => rfl
  | @char c cs hc _ ih =>
    obtain ⟨piece, pieces, hcut⟩ := exists_cutAtLineEnds cs
    rw [List.cons_append, cutAtLineEnds_char hc, cutAtLineEnds_char hc, ih, hcut]
    rfl
  | ending _ ih =>
    rw [List.cons_append, List.cons_append, cutAtLineEnds, cutAtLineEnds, ih, List.cons_append]

/-- Only behind a line end the last piece is empty. -/
theorem ended_of_getLast? (h : CrlfOnly cs) (hlast : (cutAtLineEnds cs).getLast? = some []) :
    cs = [] ∨ ['\r', '\n'] <:+ cs := by
  induction h with
  | nil => exact .inl rfl
  | @char c cs hc h ih =>
    rw [cutAtLineEnds_char hc] at hlast
    match hcut : cutAtLineEnds cs with
    | [] => simp [hcut] at hlast
    | [piece] => simp [hcut] at hlast
    | piece :: next :: pieces =>
      rw [hcut, List.modifyHead_cons, List.getLast?_cons_cons] at hlast
      rw [hcut, List.getLast?_cons_cons] at ih
      rcases ih hlast with rfl | hended
      · cases hcut
      · exact .inr (hended.trans (List.suffix_cons _ _))
  | @ending cs h ih =>
    obtain ⟨piece, pieces, hcut⟩ := exists_cutAtLineEnds cs
    rw [cutAtLineEnds, hcut, List.getLast?_cons_cons, ← hcut] at hlast
    rcases ih hlast with rfl | hended
    · exact .inr List.suffix_rfl
    · exact .inr (hended.trans ((List.suffix_cons _ _).trans (List.suffix_cons _ _)))

end CrlfOnly

/-! ## A line end at the end -/

theorem withCrlfEndings_of_ended (h : ['\r', '\n'] <:+ crlfEndings cs) :
    withCrlfEndings cs = crlfEndings cs :=
  if_pos (List.isSuffixOf_iff_suffix.mpr h)

theorem withCrlfEndings_of_not_ended (h : ¬['\r', '\n'] <:+ crlfEndings cs) :
    withCrlfEndings cs = crlfEndings cs ++ ['\r', '\n'] :=
  if_neg (mt List.isSuffixOf_iff_suffix.mp h)

theorem crlfOnly_withCrlfEndings (cs : List Char) :
    CrlfOnly (withCrlfEndings cs) ∧ ['\r', '\n'] <:+ withCrlfEndings cs := by
  by_cases hended : ['\r', '\n'] <:+ crlfEndings cs
  · rw [withCrlfEndings_of_ended hended]
    exact ⟨crlfOnly_crlfEndings cs, hended⟩
  · rw [withCrlfEndings_of_not_ended hended]
    exact ⟨(crlfOnly_crlfEndings cs).append (.ending .nil), List.suffix_append _ _⟩

theorem endedLines_withCrlfEndings (hne : cs ≠ []) :
    endedLines (withCrlfEndings cs) = endedLines cs := by
  have hpieces := cutAtLineEnds_crlfEndings cs
  have honly := crlfOnly_crlfEndings cs
  by_cases hended : ['\r', '\n'] <:+ crlfEndings cs
  · rw [withCrlfEndings_of_ended hended, endedLines, endedLines, hpieces]
  -- The text ends in a line that no line end stands behind, and that is its last piece.
  have hlast : (cutAtLineEnds cs).getLast? ≠ some [] := by
    intro hlast
    rw [← hpieces] at hlast
    exact (honly.ended_of_getLast? hlast).elim (crlfEndings_ne_nil hne) hended
  have hcut : cutAtLineEnds (withCrlfEndings cs) = cutAtLineEnds cs ++ [[]] := by
    rw [withCrlfEndings_of_not_ended hended, honly.cutAtLineEnds_append_ending, hpieces]
  rw [endedLines, endedLines, hcut, if_neg hlast, if_pos List.getLast?_concat,
    List.dropLast_concat]

/-- Whatever line ends a text has, afterwards each of them is a carriage return and a line feed, and
one of them ends the text. The lines are the same as before, but for an empty text, which has no
line before and one afterwards. A second run changes nothing. -/
theorem withCrlfEndings_normalizes (cs : List Char) :
    IsNormal (withCrlfEndings cs) ∧
      (endedLines (withCrlfEndings cs) = endedLines cs ↔ cs ≠ []) ∧
      withCrlfEndings (withCrlfEndings cs) = withCrlfEndings cs := by
  obtain ⟨honly, hended⟩ := crlfOnly_withCrlfEndings cs
  have hfixed := honly.crlfEndings_eq
  refine ⟨honly.isNormal hended, ⟨?_, endedLines_withCrlfEndings⟩, ?_⟩
  · rintro hlines rfl
    cases hlines
  · rw [withCrlfEndings_of_ended (hfixed.symm ▸ hended), hfixed]

end BenchConsole.Text
