import BenchConsole.Proofs.Text.Quotations

/-!
# Values written, joined and read again

Values are written as pieces, joined with commas, cut again and read. What does it take for the
values to come back? If the pieces keep apart, the cutting finds them again. The converse needs a
reader that adds no commas to a text: then no part of a piece in front of one of its commas, or
behind one, can read as the value that the piece was written for, and a cutting that has once lost
track of the pieces stays behind (`tail_map_read_ne`). So the pieces keep apart whenever the values
come back (`keepApart_of_map_read_eq`).
-/

namespace BenchConsole.Text

variable {inside : Option Char} {cs ds piece : List Char} {pieces : List (List Char)}

theorem joinPieces_append_cons : joinPieces ((cs ++ piece) :: pieces) =
    cs ++ joinPieces (piece :: pieces) := by
  cases pieces with
  | nil => rfl
  | cons next pieces => simp [joinPieces]

theorem joinPieces_space_cons :
    joinPieces ((' ' :: piece) :: pieces) = ' ' :: joinPieces (piece :: pieces) :=
  @joinPieces_append_cons [' '] piece pieces

theorem joinPieces_comma_cons {before after : List Char} :
    joinPieces ((before ++ ',' :: after) :: pieces) =
      before ++ ',' :: joinPieces (after :: pieces) := by
  have happend : before ++ ',' :: after = (before ++ [',']) ++ after := by simp
  rw [happend, joinPieces_append_cons]
  simp

/-- A beginning without commas outside quotations goes to the first piece. -/
theorem tail_cutAtCommasFrom_append (h : Uncut inside cs) :
    (cutAtCommasFrom inside (cs ++ ds)).tail =
      (cutAtCommasFrom (quoteAfter inside cs) ds).tail := by
  induction cs generalizing inside with
  | nil => rfl
  | cons c cs ih =>
    rw [List.cons_append, cutAtCommasFrom_cons h.1, List.tail_modifyHead, ih h.2, quoteAfter_cons]

/-- A piece that closes its quotations is cut off from the next one. -/
theorem tail_cutAtCommasFrom_joinPieces (h : Uncut inside piece)
    (hq : quoteAfter inside piece = none) {next : List Char} :
    (cutAtCommasFrom inside (joinPieces (piece :: next :: pieces))).tail =
      cutAtCommas (joinPieces ((' ' :: next) :: pieces)) := by
  rw [joinPieces_cons_cons, cutAtCommasFrom_append_comma h hq]
  exact congrArg cutAtCommas joinPieces_space_cons.symm

/-- A piece that leaves a quotation open is not cut off from the next one. -/
theorem tail_cutAtCommasFrom_joinPieces_of_open {mark : Char} (hm : isQuote mark)
    (h : Uncut inside piece) (hq : quoteAfter inside piece = some mark) {next : List Char} :
    (cutAtCommasFrom inside (joinPieces (piece :: next :: pieces))).tail =
      (cutAtCommasFrom (some mark) (joinPieces ((' ' :: next) :: pieces))).tail := by
  have hnext : nextQuote (some mark) ',' = some mark := if_neg (ne_comma_of_isQuote hm).symm
  rw [joinPieces_cons_cons, tail_cutAtCommasFrom_append h, hq, cutAtCommasFrom_cons (by simp),
    List.tail_modifyHead, hnext, joinPieces_space_cons]

section

variable {α : Type} {read : List Char → α} {write : α → List Char}
  (hcount : ∀ cs, (write (read cs)).count ',' ≤ cs.count ',')
include hcount

/-- A text with fewer commas than the text of a value does not read as this value. -/
theorem read_ne_of_count_lt {a : α} (h : cs.count ',' < (write a).count ',') : read cs ≠ a := by
  rintro rfl
  exact absurd (hcount cs) (Nat.not_le.mpr h)

/-- A piece with too few commas to read as `a` can be a part of one only: it leaves a quotation
open, and another piece follows. -/
theorem runs_on_of_count_lt {a : α} {rest wants : List α}
    (hlt : piece.count ',' < (write a).count ',')
    (he : (cutAtCommas (joinPieces (piece :: rest.map write))).map read = a :: wants) :
    Uncut none piece ∧ rest ≠ [] ∧ ∃ mark, quoteAfter none piece = some mark := by
  rcases uncut_or_comma none piece with h | ⟨before, after, rfl, h, hq⟩
  · have hnot {found : List (List Char)} :
        cutAtCommas (joinPieces (piece :: rest.map write)) ≠ piece :: found := by
      intro hcut
      rw [hcut] at he
      exact read_ne_of_count_lt hcount hlt (List.cons.inj he).1
    have hne : rest ≠ [] := by
      rintro rfl
      exact hnot (cutAtCommasFrom_of_uncut h)
    obtain ⟨b, others, rfl⟩ := List.exists_cons_of_ne_nil hne
    cases hq : quoteAfter none piece with
    | none => exact absurd (cutAtCommasFrom_append_comma h hq) hnot
    | some mark => exact ⟨h, hne, mark, rfl⟩
  · rw [joinPieces_comma_cons, cutAtCommas, cutAtCommasFrom_append_comma h hq] at he
    rw [List.count_append] at hlt
    exact absurd (List.cons.inj he).1 (read_ne_of_count_lt hcount (by omega))

/-- The pieces that a cutting finds after the one it is in are not those of `wants`, if it is
inside the piece of one of them. -/
theorem tail_map_read_ne (hinside : ∀ mark ∈ inside, isQuote mark) {a : α} {rest wants : List α}
    (hwants : a :: rest <:+ wants) (hpiece : piece <:+ ' ' :: write a) :
    (cutAtCommasFrom inside (joinPieces (piece :: rest.map write))).tail.map read ≠ wants := by
  -- Whatever comes next, a later part of the piece or the next one, the scan is still behind.
  induction hn : (joinPieces (piece :: rest.map write)).length using Nat.strong_induction_on
    generalizing inside piece a rest wants with | _ n ih
  obtain ⟨want, wants, rfl⟩ : ∃ want tail, wants = want :: tail :=
    List.exists_cons_of_ne_nil fun he => by simp [he] at hwants
  have hshort {b : α} {others : List α} (hrest : rest = b :: others) :
      (joinPieces ((' ' :: write b) :: others.map write)).length < n := by
    rw [← hn, hrest, joinPieces_space_cons, List.map_cons, joinPieces_cons_cons]
    simp only [List.length_append, List.length_cons]
    omega
  rcases uncut_or_comma inside piece with h | ⟨before, after, rfl, h, hq⟩
  · cases rest with
    | nil => simp [joinPieces, cutAtCommasFrom_of_uncut h]
    | cons b rest =>
      have hlater : b :: rest <:+ wants := by
        rcases List.suffix_cons_iff.mp hwants with heq | hsuffix
        · exact (List.cons.inj heq).2 ▸ List.suffix_refl _
        · exact (List.suffix_cons a _).trans hsuffix
      cases hq : quoteAfter inside piece with
      | none =>
        rw [List.map_cons, tail_cutAtCommasFrom_joinPieces h hq]
        intro he
        have htail := congrArg List.tail he
        rw [← List.map_tail] at htail
        exact ih _ (hshort rfl) (by simp) hlater (List.suffix_refl _) rfl htail
      | some mark =>
        have hm := isQuote_of_mem_quoteAfter hinside mark hq
        rw [List.map_cons, tail_cutAtCommasFrom_joinPieces_of_open hm h hq]
        exact ih _ (hshort rfl) (by simpa using hm) (hlater.trans (List.suffix_cons _ _))
          (List.suffix_refl _) rfl
  · have hafter : after <:+ ' ' :: write a :=
      ((List.suffix_cons ',' after).trans (List.suffix_append before _)).trans hpiece
    rw [joinPieces_comma_cons, cutAtCommasFrom_append_comma h hq, List.tail_cons, ← cutAtCommas]
    intro he
    have htail := congrArg List.tail he
    rw [← List.map_tail, List.tail_cons] at htail
    rcases List.suffix_cons_iff.mp hwants with heq | hlater
    · -- The next piece begins behind a comma of the text that it would have to be.
      obtain ⟨rfl, rfl⟩ := List.cons.inj heq
      have hlt : after.count ',' < (write a).count ',' := by
        have hle := hpiece.sublist.count_le ','
        rw [List.count_append, List.count_cons_self, List.count_cons_of_ne (by decide)] at hle
        omega
      obtain ⟨huncut, hne, mark, hopen⟩ := runs_on_of_count_lt hcount hlt he
      obtain ⟨b, others, rfl⟩ := List.exists_cons_of_ne_nil hne
      have hm := isQuote_of_mem_quoteAfter (by simp) mark hopen
      rw [List.map_cons, cutAtCommas, tail_cutAtCommasFrom_joinPieces_of_open hm huncut hopen]
        at htail
      exact ih _ (hshort rfl) (by simpa using hm) (List.suffix_refl _) (List.suffix_refl _) rfl
        htail
    · refine ih _ ?_ (by simp) hlater hafter rfl htail
      rw [← hn, joinPieces_comma_cons, List.length_append, List.length_cons]
      omega

/-- If the values that a list is written for are read again, then its pieces keep apart. -/
theorem keepApart_of_map_read_eq (hspace : ∀ cs, read (' ' :: cs) = read cs) {values : List α}
    (h : (cutAtCommas (joinPieces (values.map write))).map read = values) :
    KeepApart (values.map write) := by
  induction values with
  | nil => trivial
  | cons a rest ih =>
    rcases uncut_or_comma none (write a) with huncut | ⟨before, after, he, huncut, hq⟩
    · cases rest with
      | nil => exact lastPiece_iff.mpr huncut
      | cons b rest =>
        rw [List.map_cons, List.map_cons] at h ⊢
        cases hq : quoteAfter none (write a) with
        | none =>
          have htail := congrArg List.tail h
          rw [← List.map_tail, cutAtCommas, tail_cutAtCommasFrom_joinPieces huncut hq,
            joinPieces_space_cons, map_cutAtCommas_space hspace] at htail
          exact ⟨whole_iff.mpr ⟨huncut, hq⟩, ih htail⟩
        | some mark =>
          have hm := isQuote_of_mem_quoteAfter (by simp) mark hq
          have htail := congrArg List.tail h
          rw [← List.map_tail, cutAtCommas, tail_cutAtCommasFrom_joinPieces_of_open hm huncut hq]
            at htail
          exact absurd htail (tail_map_read_ne hcount (by simpa using hm) (List.suffix_refl _)
            (List.suffix_refl _))
    · rw [List.map_cons, he, joinPieces_comma_cons, cutAtCommas,
        cutAtCommasFrom_append_comma huncut hq] at h
      refine absurd (List.cons.inj h).1 (read_ne_of_count_lt hcount ?_)
      rw [he, List.count_append, List.count_cons_self]
      omega

end

end BenchConsole.Text
