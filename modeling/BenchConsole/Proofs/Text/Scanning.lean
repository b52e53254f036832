import BenchConsole.Text.Blank
import Mathlib.Data.List.DropRight
import Mathlib.Data.List.TakeDrop

/-!
# Scanning and trimming

`List.span` splits a text in front of the first character that fails a test; `span_eq_iff` says
so without the scan.

`trim` is described from two sides. `exists_trim` says what it takes away: blanks in front and
blanks behind. `isTrimmed_trim` says where it stops: what is left has no blank at either end, and
such texts are exactly the ones that `trim` leaves alone (`trim_eq_self_iff`).
-/

namespace BenchConsole.Text

variable {as bs cs ds : List Char}

/-! ## Spans -/

theorem span_eq_iff {p : Char → Bool} :
    cs.span p = (as, bs) ↔
      cs = as ++ bs ∧ (∀ c ∈ as, p c) ∧ ∀ c ∈ bs.head?, p c = false := by
  rw [List.span_eq_takeWhile_dropWhile, Prod.mk.injEq]
  constructor
  · rintro ⟨rfl, rfl⟩
    refine ⟨List.takeWhile_append_dropWhile.symm, fun c hc => List.mem_takeWhile_imp hc, ?_⟩
    intro c hc
    rw [Option.mem_def] at hc
    simpa [hc] using List.head?_dropWhile_not p cs
  · rintro ⟨rfl, has, hbs⟩
    have hdrop : bs.dropWhile p = bs := by
      cases bs with
      | nil => rfl
      | cons b bs => simp [hbs b rfl]
    have htake : bs.takeWhile p = [] := by
      cases bs with
      | nil => rfl
      | cons b bs => simp [hbs b rfl]
    rw [List.takeWhile_append_of_pos has, List.dropWhile_append_of_pos has, hdrop, htake,
      List.append_nil]
    exact ⟨rfl, rfl⟩

variable {c mark : Char}

theorem span_ne_eq_cons_iff :
    cs.span (· != mark) = (as, c :: bs) ↔ c = mark ∧ cs = as ++ mark :: bs ∧ mark ∉ as := by
  rw [span_eq_iff]
  constructor
  · rintro ⟨rfl, has, hc⟩
    obtain rfl : c = mark := by simpa using hc c rfl
    exact ⟨rfl, rfl, fun hm => by simpa using has c hm⟩
  · rintro ⟨rfl, rfl, hm⟩
    refine ⟨rfl, fun d hd => bne_iff_ne.mpr fun he => hm (he ▸ hd), ?_⟩
    simp

/-! ## Blanks -/

/-- A text of blanks only. -/
def IsBlankText (cs : List Char) : Prop := ∀ c ∈ cs, isBlank c

instance : Decidable (IsBlankText cs) := List.decidableBAll (fun c => isBlank c) cs

/-- A text without a blank at either end. -/
structure IsTrimmed (cs : List Char) : Prop where
  head : ∀ c ∈ cs.head?, isBlank c = false
  last : ∀ c ∈ cs.getLast?, isBlank c = false

theorem trim_eq (cs : List Char) : trim cs = (cs.dropWhile isBlank).rdropWhile isBlank := rfl

@[simp] theorem trim_nil : trim [] = [] := rfl

theorem trim_eq_nil_iff : trim cs = [] ↔ IsBlankText cs := by
  rw [trim_eq, List.rdropWhile_eq_nil_iff]
  constructor
  · intro h c hc
    rw [← @List.takeWhile_append_dropWhile _ isBlank cs] at hc
    rcases List.mem_append.mp hc with hc | hc
    · exact List.mem_takeWhile_imp hc
    · exact h c hc
  · exact fun h c hc => h c ((List.dropWhile_sublist _).mem hc)

theorem trim_append_of_blank_left (h : IsBlankText ds) : trim (ds ++ cs) = trim cs := by
  rw [trim_eq, List.dropWhile_append_of_pos h, ← trim_eq]

theorem dropEndWhile_append_of_forall {p : Char → Bool} (h : ∀ c ∈ ds, p c) (cs : List Char) :
    dropEndWhile p (cs ++ ds) = dropEndWhile p cs := by
  have hds : ∀ c ∈ ds.reverse, p c := fun c hc => h c (List.mem_reverse.mp hc)
  rw [dropEndWhile, List.reverse_append, List.dropWhile_append_of_pos hds, dropEndWhile]

theorem dropEndWhile_append_of_not_forall {p : Char → Bool} (h : ¬∀ c ∈ ds, p c)
    (cs : List Char) : dropEndWhile p (cs ++ ds) = cs ++ dropEndWhile p ds := by
  have hds : ¬(ds.reverse.dropWhile p).isEmpty := by
    rw [List.isEmpty_iff, List.dropWhile_eq_nil_iff]
    exact mt (fun hall c hc => hall c (List.mem_reverse.mpr hc)) h
  rw [dropEndWhile, List.reverse_append, List.dropWhile_append, if_neg hds, List.reverse_append,
    List.reverse_reverse, dropEndWhile]

theorem trimEnd_append (cs ds : List Char) :
    trimEnd (cs ++ ds) = if IsBlankText ds then trimEnd cs else cs ++ trimEnd ds := by
  split
  · next h => exact dropEndWhile_append_of_forall h cs
  · next h => exact dropEndWhile_append_of_not_forall h cs

theorem trim_append_of_blank_right (h : IsBlankText ds) : trim (cs ++ ds) = trim cs := by
  rw [trim, List.dropWhile_append]
  split
  · next he =>
    have hcs : IsBlankText cs := List.dropWhile_eq_nil_iff.mp (List.isEmpty_iff.mp he)
    rw [← trim, trim_eq_nil_iff.mpr h, trim_eq_nil_iff.mpr hcs]
  · rw [trimEnd_append, if_pos h, trim]

theorem trim_trimEnd (cs : List Char) : trim (trimEnd cs) = trim cs := by
  have hblank : IsBlankText (cs.rtakeWhile isBlank) := fun c hc => List.mem_rtakeWhile_imp hc
  conv => rhs; rw [← @List.rdropWhile_append_rtakeWhile _ isBlank cs]
  exact (trim_append_of_blank_right hblank).symm

/-- What `trim` takes away is blank. -/
theorem exists_trim (cs : List Char) :
    ∃ before after, IsBlankText before ∧ IsBlankText after ∧ cs = before ++ trim cs ++ after := by
  refine ⟨cs.takeWhile isBlank, (cs.dropWhile isBlank).rtakeWhile isBlank, ?_, ?_, ?_⟩
  · exact fun c hc => List.mem_takeWhile_imp hc
  · exact fun c hc => List.mem_rtakeWhile_imp hc
  · rw [trim_eq, List.append_assoc, List.rdropWhile_append_rtakeWhile,
      List.takeWhile_append_dropWhile]

theorem trim_sublist (cs : List Char) : (trim cs).Sublist cs :=
  (List.rdropWhile_prefix _ _).sublist.trans (List.dropWhile_sublist _)

theorem mem_of_mem_trim {c : Char} (h : c ∈ trim cs) : c ∈ cs :=
  (trim_sublist cs).mem h

theorem isTrimmed_trim (cs : List Char) : IsTrimmed (trim cs) where
  head c hc := by
    obtain ⟨rest, hrest⟩ := List.rdropWhile_prefix isBlank (cs.dropWhile isBlank)
    obtain ⟨ds, hds⟩ := List.head?_eq_some_iff.mp hc
    have hcs : (cs.dropWhile isBlank).head? = some c := by
      rw [← hrest, ← trim_eq, hds]
      rfl
    simpa [hcs] using List.head?_dropWhile_not isBlank cs
  last c hc := by
    have hne : trim cs ≠ [] := by
      rintro he
      simp [he] at hc
    have hlast := List.rdropWhile_last_not isBlank (cs.dropWhile isBlank) hne
    rw [List.getLast?_eq_some_getLast hne, Option.mem_some_iff] at hc
    rw [← hc]
    exact Bool.eq_false_iff.mpr hlast

theorem trim_eq_self_iff : trim cs = cs ↔ IsTrimmed cs := by
  constructor
  · intro h
    exact h ▸ isTrimmed_trim cs
  · intro h
    have hfront : cs.dropWhile isBlank = cs := by
      cases cs with
      | nil => rfl
      | cons c cs => simp [h.head c rfl]
    rw [trim_eq, hfront, List.rdropWhile_eq_self_iff]
    intro hne hb
    have hlast := h.last _ (List.getLast?_eq_some_getLast hne)
    rw [hlast] at hb
    exact Bool.noConfusion hb

alias ⟨_, IsTrimmed.trim_eq⟩ := trim_eq_self_iff

theorem IsTrimmed.not_isBlankText (h : IsTrimmed cs) (hne : cs ≠ []) : ¬IsBlankText cs := by
  rwa [← trim_eq_nil_iff, h.trim_eq]

instance : Decidable (IsTrimmed cs) := decidable_of_iff _ trim_eq_self_iff

/-- What stands in front of a trimmed text stays, what comes behind it is trimmed at its end. -/
theorem IsTrimmed.trim_append (h : IsTrimmed cs) (hne : cs ≠ []) (ds : List Char) :
    trim (cs ++ ds) = cs ++ trimEnd ds := by
  obtain ⟨c, rest, rfl⟩ := List.exists_cons_of_ne_nil hne
  have hfront : (c :: rest ++ ds).dropWhile isBlank = c :: rest ++ ds := by
    simp [h.head c rfl]
  have htrim := h.trim_eq
  rw [trim, List.dropWhile_cons_of_neg (by simp [h.head c rfl])] at htrim
  rw [trim, hfront, trimEnd_append]
  split
  · next hds =>
    have hnil : trimEnd ds = [] := List.rdropWhile_eq_nil_iff.mpr hds
    rw [hnil, List.append_nil, htrim]
  · rfl

@[simp] theorem trim_trim (cs : List Char) : trim (trim cs) = trim cs :=
  (isTrimmed_trim cs).trim_eq

/-- A text that starts and ends with characters other than blanks is trimmed. -/
theorem isTrimmed_of_ends {c d : Char} (hc : isBlank c = false) (hd : isBlank d = false)
    (hh : cs.head? = some c) (hl : cs.getLast? = some d) : IsTrimmed cs where
  head e he := by
    obtain rfl : c = e := by simpa [hh] using he
    exact hc
  last e he := by
    obtain rfl : d = e := by simpa [hl] using he
    exact hd

/-- A text without any blanks is trimmed. -/
theorem isTrimmed_of_forall (h : ∀ c ∈ cs, isBlank c = false) : IsTrimmed cs where
  head c hc := h c (List.mem_of_mem_head? hc)
  last c hc := h c (List.mem_of_mem_getLast? hc)

end BenchConsole.Text
