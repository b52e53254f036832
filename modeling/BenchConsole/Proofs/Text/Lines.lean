import BenchConsole.Proofs.Text.Scanning
import BenchConsole.Text.Line

/-!
# Lines

A line end is blank, so taking line ends off the end of a text changes nothing for a reader that
trims (`trim_dropLineEnds`). It changes what the text starts with only if it reaches that far
(`prefix_dropLineEnds_append_iff`). Up to a line feed there is one line (`exists_lines_append`), so
that texts that hold no line end are found again as the lines of what they are joined to
(`lines_append`, `lines_intercalate`).
-/

namespace BenchConsole.Text

variable {as bs cs : List Char} {c : Char}

/-- A text without any line end. -/
def IsOneLine (cs : List Char) : Prop := ∀ c ∈ cs, isLineEnd c = false

instance : Decidable (IsOneLine cs) := List.decidableBAll (fun c => isLineEnd c = false) cs

theorem isLineEnd_iff : isLineEnd c ↔ c = '\r' ∨ c = '\n' := by
  simp [isLineEnd]

theorem isLineEnd_eq_false_iff : isLineEnd c = false ↔ c ≠ '\r' ∧ c ≠ '\n' := by
  rw [← Bool.not_eq_true, isLineEnd_iff, not_or]

theorem isBlank_of_isLineEnd (h : isLineEnd c) : isBlank c := by
  rcases isLineEnd_iff.mp h with rfl | rfl <;> rfl

theorem IsOneLine.append (ha : IsOneLine as) (hb : IsOneLine bs) : IsOneLine (as ++ bs) := by
  intro c hc
  rcases List.mem_append.mp hc with hc | hc
  · exact ha c hc
  · exact hb c hc

theorem isOneLine_of_no_blank (h : ∀ c ∈ cs, isBlank c = false) : IsOneLine cs := by
  intro c hc
  rw [← Bool.not_eq_true]
  intro hend
  have hblank := h c hc
  rw [isBlank_of_isLineEnd hend] at hblank
  cases hblank

/-! ## Line ends at the end -/

theorem trim_dropLineEnds (cs : List Char) : trim (dropLineEnds cs) = trim cs := by
  have hblank : IsBlankText (cs.rtakeWhile isLineEnd) := fun c hc =>
    isBlank_of_isLineEnd (List.mem_rtakeWhile_imp hc)
  conv => rhs; rw [← @List.rdropWhile_append_rtakeWhile _ isLineEnd cs]
  exact (trim_append_of_blank_right hblank).symm

theorem dropLineEnds_isPrefix (cs : List Char) : dropLineEnds cs <+: cs :=
  List.rdropWhile_prefix _ _

theorem dropLineEnds_eq_self_iff :
    dropLineEnds cs = cs ↔ ∀ c ∈ cs.getLast?, isLineEnd c = false := by
  refine List.rdropWhile_eq_self_iff.trans ⟨fun h c hc => ?_, fun h hne => ?_⟩
  · obtain ⟨hne, rfl⟩ := List.mem_getLast?_eq_getLast hc
    exact Bool.not_eq_true _ ▸ h hne
  · exact Bool.not_eq_true _ ▸ h _ (List.getLast?_eq_some_getLast hne)

/-- What a line starts with stays whole when line ends are taken off its end, unless it ends in one
itself and nothing but line ends comes behind it. -/
theorem prefix_dropLineEnds_append_iff : as <+: dropLineEnds (as ++ bs) ↔
    (∀ c ∈ as.getLast?, isLineEnd c = false) ∨ ∃ c ∈ bs, isLineEnd c = false := by
  rw [← dropLineEnds_eq_self_iff]
  by_cases hbs : ∀ c ∈ bs, isLineEnd c
  · have hdrop : dropLineEnds (as ++ bs) = dropLineEnds as := dropEndWhile_append_of_forall hbs as
    have hno : ¬∃ c ∈ bs, isLineEnd c = false := by
      rintro ⟨c, hc, hend⟩
      rw [hbs c hc] at hend
      cases hend
    rw [hdrop, or_iff_left hno]
    constructor
    · intro h
      exact (dropLineEnds_isPrefix as).eq_of_length_le h.length_le
    · intro h
      exact ⟨[], (List.append_nil as).trans h.symm⟩
  · have hdrop : dropLineEnds (as ++ bs) = as ++ dropLineEnds bs :=
      dropEndWhile_append_of_not_forall hbs as
    obtain ⟨c, hc⟩ := not_forall.mp hbs
    obtain ⟨hc, hend⟩ := Classical.not_imp.mp hc
    rw [hdrop]
    exact iff_of_true (List.prefix_append _ _) (.inr ⟨c, hc, Bool.not_eq_true _ ▸ hend⟩)

theorem dropLineEnds_append_of_prefix (h : as <+: dropLineEnds (as ++ bs)) :
    dropLineEnds (as ++ bs) = as ++ dropLineEnds bs := by
  by_cases hbs : ∀ c ∈ bs, isLineEnd c
  · have hdrop : dropLineEnds (as ++ bs) = dropLineEnds as := dropEndWhile_append_of_forall hbs as
    have hnil : dropLineEnds bs = [] := List.rdropWhile_eq_nil_iff.mpr hbs
    rw [hdrop] at h
    rw [hdrop, hnil, List.append_nil]
    exact (dropLineEnds_isPrefix as).eq_of_length_le h.length_le
  · exact dropEndWhile_append_of_not_forall hbs as

/-! ## Lines that are joined -/

/-- A character that is not in a line end goes to the first line. -/
theorem lines_cons (hlf : c ≠ '\n') (hcr : c = '\r' → cs.head? ≠ some '\n') : lines (c :: cs) =
    match lines cs with
    | [] => [[c]]
    | line :: rest => (c :: line) :: rest := by
  refine lines.eq_4 c cs hlf fun rest hc hcs => hcr hc ?_
  rw [hcs]
  rfl

/-- Up to a line feed there is one line. A carriage return in front of the line feed is in the line
end, and no other one is. -/
theorem exists_lines_append (h : '\n' ∉ as) (bs : List Char) :
    ∃ line, lines (as ++ '\n' :: bs) = line :: lines bs ∧ (as = line ∨ as = line ++ ['\r']) := by
  induction as with
  | nil => exact ⟨[], rfl, .inl rfl⟩
  | cons c as ih =>
    obtain ⟨hlf, hrest⟩ := not_or.mp (mt List.mem_cons.mpr h)
    by_cases hlast : c = '\r' ∧ as = []
    · obtain ⟨rfl, rfl⟩ := hlast
      exact ⟨[], rfl, .inr rfl⟩
    have hcr : c = '\r' → (as ++ '\n' :: bs).head? ≠ some '\n' := by
      intro hc hhead
      rw [List.head?_append_of_ne_nil _ fun hnil => hlast ⟨hc, hnil⟩] at hhead
      exact hrest (List.mem_of_mem_head? hhead)
    obtain ⟨line, hlines, hline⟩ := ih hrest
    refine ⟨c :: line, ?_, hline.imp (congrArg (c :: ·)) (congrArg (c :: ·))⟩
    rw [List.cons_append, lines_cons (Ne.symm hlf) hcr, hlines]

theorem lines_of_not_mem (h : '\n' ∉ as) (hne : as ≠ []) : lines as = [as] := by
  induction as with
  | nil => exact absurd rfl hne
  | cons c as ih =>
    obtain ⟨hlf, hrest⟩ := not_or.mp (mt List.mem_cons.mpr h)
    rw [lines_cons (Ne.symm hlf) fun _ hhead => hrest (List.mem_of_mem_head? hhead)]
    cases as with
    | nil => rfl
    | cons d as => rw [ih hrest (List.cons_ne_nil _ _)]

theorem IsOneLine.not_mem (h : IsOneLine as) (hc : isLineEnd c) : c ∉ as := by
  intro hmem
  rw [h c hmem] at hc
  cases hc

theorem lines_append (h : IsOneLine as) (bs : List Char) :
    lines (as ++ '\n' :: bs) = as :: lines bs := by
  obtain ⟨line, hlines, rfl | rfl⟩ := exists_lines_append (h.not_mem rfl) bs
  · exact hlines
  · exact absurd (List.mem_append_right _ List.mem_cons_self) (h.not_mem rfl)

/-- Lines that are joined by line feeds are found again. -/
theorem lines_intercalate {pieces : List (List Char)}
    (h : ∀ piece ∈ pieces, IsOneLine piece ∧ piece ≠ []) :
    lines (['\n'].intercalate pieces) = pieces := by
  induction pieces with
  | nil => rfl
  | cons piece pieces ih =>
    obtain ⟨hline, hne⟩ := h piece List.mem_cons_self
    cases pieces with
    | nil =>
      rw [List.intercalate_singleton]
      exact lines_of_not_mem (hline.not_mem rfl) hne
    | cons next pieces =>
      rw [List.intercalate_cons_cons, List.append_assoc, List.singleton_append,
        lines_append hline, ih fun other hother => h other (List.mem_cons_of_mem _ hother)]

end BenchConsole.Text
