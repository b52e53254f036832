import BenchConsole.Proofs.Text.Scanning
import BenchConsole.Text.Quote

/-!
# Quotations and the cutting of texts

How a text falls into pieces, said without a scanner. In a *whole* text every quotation is closed
again and no comma stands outside quotations; in a *last* piece the last quotation may stay open.
`Cut cs pieces` says that `pieces` are the parts of `cs` between its commas outside quotations:
all of them are whole but the last. `cut_iff` shows that `cutAtCommas` finds exactly these.

The scanner side of the same matter are `Uncut` and `quoteAfter`, the two things that a scan of
a text depends on; `whole_iff` and `lastPiece_iff` express the pieces by them.
-/

namespace BenchConsole.Text

/-- A text without commas outside quotations, in which every quotation is closed. -/
inductive Whole : List Char → Prop
  | nil : Whole []
  | char : isQuote c = false → c ≠ ',' → Whole cs → Whole (c :: cs)
  | quotation : isQuote mark → mark ∉ middle → Whole cs → Whole (mark :: (middle ++ mark :: cs))

/-- A text without commas outside quotations; its last quotation may last to the end. -/
inductive LastPiece : List Char → Prop
  | whole : Whole cs → LastPiece cs
  | unclosed : Whole cs → isQuote mark → mark ∉ middle → LastPiece (cs ++ mark :: middle)

/-- The pieces of a text are its parts between the commas outside quotations. -/
inductive Cut : List Char → List (List Char) → Prop
  | last : LastPiece cs → Cut cs [cs]
  | comma : Whole piece → Cut rest pieces → Cut (piece ++ ',' :: rest) (piece :: pieces)

/-- Pieces that keep apart when they are joined: all of them are whole but the last. -/
def KeepApart : List (List Char) → Prop
  | [] => True
  | [piece] => LastPiece piece
  | piece :: pieces => Whole piece ∧ KeepApart pieces

/-- The quotation that is open after a text, `inside` being the one open before it. -/
def quoteAfter (inside : Option Char) (cs : List Char) : Option Char :=
  cs.foldl nextQuote inside

/-- No comma of a text stands outside quotations, `inside` being the one open at its start. -/
def Uncut (inside : Option Char) : List Char → Prop
  | [] => True
  | c :: cs => ¬(inside = none ∧ c = ',') ∧ Uncut (nextQuote inside c) cs

variable {inside : Option Char} {c mark : Char} {cs ds middle piece rest : List Char}
  {pieces : List (List Char)}

/-! ## Quotation marks -/

theorem isQuote_iff : isQuote c ↔ c = '"' ∨ c = '\'' := by
  simp [isQuote]

theorem isBlank_eq_false_of_isQuote (h : isQuote c) : isBlank c = false := by
  rcases isQuote_iff.mp h with rfl | rfl <;> rfl

theorem isTrimmed_between (h : isQuote mark) (cs : List Char) :
    IsTrimmed (mark :: (cs ++ [mark])) := by
  have hm := isBlank_eq_false_of_isQuote h
  refine isTrimmed_of_ends hm hm rfl ?_
  rw [← List.cons_append, List.getLast?_concat]

theorem ne_comma_of_isQuote (h : isQuote c) : c ≠ ',' := by
  rcases isQuote_iff.mp h with rfl | rfl <;> decide

/-! ## The scanner -/

@[simp] theorem quoteAfter_nil : quoteAfter inside [] = inside := rfl

@[simp] theorem quoteAfter_cons :
    quoteAfter inside (c :: cs) = quoteAfter (nextQuote inside c) cs := rfl

@[simp] theorem quoteAfter_append :
    quoteAfter inside (cs ++ ds) = quoteAfter (quoteAfter inside cs) ds :=
  List.foldl_append

@[simp] theorem uncut_nil : Uncut inside [] := trivial

@[simp] theorem uncut_cons :
    Uncut inside (c :: cs) ↔ ¬(inside = none ∧ c = ',') ∧ Uncut (nextQuote inside c) cs := Iff.rfl

theorem uncut_append :
    Uncut inside (cs ++ ds) ↔ Uncut inside cs ∧ Uncut (quoteAfter inside cs) ds := by
  induction cs generalizing inside with
  | nil => simp
  | cons c cs ih => simp [ih, and_assoc]

theorem nextQuote_of_not_isQuote (h : isQuote c = false) : nextQuote none c = none := by
  simp [nextQuote, h]

theorem nextQuote_of_isQuote (h : isQuote c) : nextQuote none c = some c := by
  simp [nextQuote, h]

theorem nextQuote_self : nextQuote (some mark) mark = none := by
  simp [nextQuote]

/-- Inside a quotation nothing counts but its own mark. -/
theorem uncut_inside (h : mark ∉ middle) :
    Uncut (some mark) middle ∧ quoteAfter (some mark) middle = some mark := by
  induction middle with
  | nil => simp
  | cons c middle ih =>
    have hc : nextQuote (some mark) c = some mark := by
      simp only [nextQuote]
      exact if_neg fun he : c = mark => h (he ▸ List.mem_cons_self)
    simpa [hc] using ih fun hm => h (List.mem_cons_of_mem _ hm)

/-- Only a quotation mark can be the end of the quotation that is open. -/
theorem isQuote_of_mem_quoteAfter (hinside : ∀ mark ∈ inside, isQuote mark) :
    ∀ mark ∈ quoteAfter inside cs, isQuote mark := by
  induction cs generalizing inside with
  | nil => exact hinside
  | cons c cs ih =>
    refine ih fun mark hm => ?_
    cases inside with
    | none =>
      simp only [nextQuote] at hm
      split at hm
      · next hc =>
        obtain rfl := Option.some.inj hm
        exact hc
      · cases hm
    | some other =>
      simp only [nextQuote] at hm
      split at hm
      · cases hm
      · exact hinside mark hm

/-- Either a scan meets no comma outside quotations, or there is a first one. -/
theorem uncut_or_comma (inside : Option Char) (cs : List Char) :
    Uncut inside cs ∨ ∃ before after, cs = before ++ ',' :: after ∧ Uncut inside before ∧
      quoteAfter inside before = none := by
  induction cs generalizing inside with
  | nil => exact .inl trivial
  | cons c cs ih =>
    by_cases hc : inside = none ∧ c = ','
    · exact .inr ⟨[], cs, by simp [hc.2], trivial, hc.1⟩
    rcases ih (nextQuote inside c) with h | ⟨before, after, rfl, hbefore, hafter⟩
    · exact .inl ⟨hc, h⟩
    · exact .inr ⟨c :: before, after, rfl, ⟨hc, hbefore⟩, hafter⟩

theorem cutAtCommasFrom_of_uncut (h : Uncut inside cs) : cutAtCommasFrom inside cs = [cs] := by
  induction cs generalizing inside with
  | nil => rfl
  | cons c cs ih => simp [cutAtCommasFrom, h.1, ih h.2]

theorem cutAtCommasFrom_append_comma (h : Uncut inside piece)
    (hq : quoteAfter inside piece = none) :
    cutAtCommasFrom inside (piece ++ ',' :: rest) = piece :: cutAtCommasFrom none rest := by
  induction piece generalizing inside with
  | nil =>
    obtain rfl : inside = none := hq
    simp [cutAtCommasFrom]
  | cons c piece ih => simp [cutAtCommasFrom, h.1, ih h.2 hq]

/-- A character that neither opens nor closes a quotation, nor is a comma outside them, goes to
the first piece. -/
theorem cutAtCommasFrom_cons (hc : ¬(inside = none ∧ c = ',')) :
    cutAtCommasFrom inside (c :: cs) =
      (cutAtCommasFrom (nextQuote inside c) cs).modifyHead (c :: ·) := by
  rw [cutAtCommasFrom, if_neg hc]
  rcases uncut_or_comma (nextQuote inside c) cs with h | ⟨before, after, rfl, h, hq⟩
  · rw [cutAtCommasFrom_of_uncut h]
    rfl
  · rw [cutAtCommasFrom_append_comma h hq]
    rfl

/-! ## Pieces by the scanner -/

theorem Whole.uncut (h : Whole cs) : Uncut none cs ∧ quoteAfter none cs = none := by
  induction h with
  | nil => exact ⟨trivial, rfl⟩
  | char hq hc _ ih =>
    simp only [uncut_cons, quoteAfter_cons, nextQuote_of_not_isQuote hq]
    exact ⟨⟨fun h => hc h.2, ih.1⟩, ih.2⟩
  | @quotation mark middle cs hm hmiddle _ ih =>
    obtain ⟨hun, hin⟩ := uncut_inside hmiddle
    simp only [uncut_cons, quoteAfter_cons, nextQuote_of_isQuote hm, uncut_append,
      quoteAfter_append, hin, nextQuote_self]
    exact ⟨⟨fun h => ne_comma_of_isQuote hm h.2, hun, by simp, ih.1⟩, ih.2⟩

theorem LastPiece.cons (hq : isQuote c = false) (hc : c ≠ ',') (h : LastPiece cs) :
    LastPiece (c :: cs) := by
  cases h with
  | whole h => exact .whole (.char hq hc h)
  | unclosed h hm hmiddle => exact .unclosed (.char hq hc h) hm hmiddle

theorem LastPiece.quotation (hm : isQuote mark) (hmiddle : mark ∉ middle) (h : LastPiece cs) :
    LastPiece (mark :: (middle ++ mark :: cs)) := by
  cases h with
  | whole h => exact .whole (.quotation hm hmiddle h)
  | @unclosed cs m i h hm' hi =>
    have := LastPiece.unclosed (.quotation hm hmiddle h) hm' hi
    simpa using this

theorem lastPiece_of_uncut (cs : List Char) (h : Uncut none cs) : LastPiece cs := by
  match cs with
  | [] => exact .whole .nil
  | c :: cs =>
    by_cases hc : isQuote c
    · rw [uncut_cons, nextQuote_of_isQuote hc] at h
      by_cases hm : c ∈ cs
      · obtain ⟨middle, rest, rfl, hmiddle⟩ := List.eq_append_cons_of_mem hm
        have hrest := h.2
        rw [uncut_append, (uncut_inside hmiddle).2, uncut_cons, nextQuote_self] at hrest
        exact .quotation hc hmiddle (lastPiece_of_uncut rest hrest.2.2)
      · exact .unclosed .nil hc hm
    · rw [Bool.not_eq_true] at hc
      rw [uncut_cons, nextQuote_of_not_isQuote hc] at h
      exact .cons hc (fun he => h.1 ⟨rfl, he⟩) (lastPiece_of_uncut cs h.2)
  termination_by cs.length
  decreasing_by all_goals subst_vars; simp; try omega

theorem lastPiece_iff : LastPiece cs ↔ Uncut none cs := by
  constructor
  · rintro (h | @⟨cs, mark, middle, h, hm, hmiddle⟩)
    · exact h.uncut.1
    · rw [uncut_append, h.uncut.2, uncut_cons, nextQuote_of_isQuote hm]
      exact ⟨h.uncut.1, fun h => ne_comma_of_isQuote hm h.2, (uncut_inside hmiddle).1⟩
  · exact lastPiece_of_uncut cs

theorem whole_iff : Whole cs ↔ Uncut none cs ∧ quoteAfter none cs = none := by
  constructor
  · exact Whole.uncut
  · rintro ⟨h, hq⟩
    rcases lastPiece_of_uncut cs h with hw | @⟨cs, mark, middle, hw, hm, hmiddle⟩
    · exact hw
    · rw [quoteAfter_append, hw.uncut.2, quoteAfter_cons, nextQuote_of_isQuote hm,
        (uncut_inside hmiddle).2] at hq
      cases hq

/-! ## Cutting -/

theorem cut_cutAtCommas (cs : List Char) : Cut cs (cutAtCommas cs) := by
  rcases uncut_or_comma none cs with h | ⟨before, after, rfl, h, hq⟩
  · rw [cutAtCommas, cutAtCommasFrom_of_uncut h]
    exact .last (lastPiece_iff.mpr h)
  · rw [cutAtCommas, cutAtCommasFrom_append_comma h hq]
    exact .comma (whole_iff.mpr ⟨h, hq⟩) (cut_cutAtCommas after)
  termination_by cs.length
  decreasing_by subst_vars; simp; omega

/-- `cutAtCommas` finds the pieces of a text, and there is only one way to cut it. -/
theorem cut_iff : Cut cs pieces ↔ cutAtCommas cs = pieces := by
  constructor
  · intro h
    induction h with
    | last h => exact cutAtCommasFrom_of_uncut (lastPiece_iff.mp h)
    | comma h _ ih =>
      rw [cutAtCommas, cutAtCommasFrom_append_comma h.uncut.1 h.uncut.2]
      exact congrArg _ ih
  · rintro rfl
    exact cut_cutAtCommas cs

theorem joinPieces_cons_cons (piece next : List Char) (pieces : List (List Char)) :
    joinPieces (piece :: next :: pieces) =
      piece ++ ',' :: ' ' :: joinPieces (next :: pieces) := rfl

/-- A space in front of a text goes to its first piece, where it does not matter to a reader that
passes over it. -/
theorem map_cutAtCommas_space {read : List Char → α} (hread : ∀ cs, read (' ' :: cs) = read cs)
    (cs : List Char) : (cutAtCommas (' ' :: cs)).map read = (cutAtCommas cs).map read := by
  have hc : ¬((none : Option Char) = none ∧ ' ' = ',') := by decide
  rw [cutAtCommas, cutAtCommasFrom_cons hc, nextQuote_of_not_isQuote rfl, ← cutAtCommas]
  cases cutAtCommas cs with
  | nil => rfl
  | cons piece pieces => simp [hread]

theorem trim_space (cs : List Char) : trim (' ' :: cs) = trim cs :=
  @trim_append_of_blank_left cs [' '] (by decide)

/-- Pieces that keep apart are found again in their joined text. -/
theorem map_trim_cutAtCommas_joinPieces (h : KeepApart pieces) (hne : pieces ≠ []) :
    (cutAtCommas (joinPieces pieces)).map trim = pieces.map trim := by
  induction pieces with
  | nil => exact absurd rfl hne
  | cons piece pieces ih =>
    cases pieces with
    | nil => rw [joinPieces, cut_iff.mp (.last h)]
    | cons next pieces =>
      rw [joinPieces_cons_cons, cutAtCommas,
        cutAtCommasFrom_append_comma h.1.uncut.1 h.1.uncut.2, List.map_cons, ← cutAtCommas,
        map_cutAtCommas_space trim_space, ih h.2 (List.cons_ne_nil _ _)]
      rfl

theorem keepApart_of_whole (h : ∀ piece ∈ pieces, Whole piece) : KeepApart pieces := by
  induction pieces with
  | nil => trivial
  | cons piece pieces ih =>
    have hp := h piece List.mem_cons_self
    have hps := ih fun p hp => h p (List.mem_cons_of_mem _ hp)
    cases pieces with
    | nil => exact .whole hp
    | cons next pieces => exact ⟨hp, hps⟩

/-! ## Whole texts -/

theorem Whole.append (hc : Whole cs) (hd : Whole ds) : Whole (cs ++ ds) := by
  induction hc with
  | nil => exact hd
  | char hq hc _ ih => exact .char hq hc ih
  | quotation hm hmiddle _ ih => simpa using Whole.quotation hm hmiddle ih

/-- A text without quotation marks and commas is whole. -/
theorem whole_of_forall (h : ∀ c ∈ cs, isQuote c = false ∧ c ≠ ',') : Whole cs := by
  induction cs with
  | nil => exact .nil
  | cons c cs ih =>
    have hc := h c List.mem_cons_self
    exact .char hc.1 hc.2 (ih fun d hd => h d (List.mem_cons_of_mem _ hd))

theorem not_isQuote_of_isBlank (h : isBlank c) : isQuote c = false := by
  rw [← Bool.not_eq_true]
  intro hq
  simp [isBlank_eq_false_of_isQuote hq] at h

theorem ne_comma_of_isBlank (h : isBlank c) : c ≠ ',' := by
  rintro rfl
  simp [isBlank] at h

theorem whole_of_isBlankText (h : IsBlankText cs) : Whole cs :=
  whole_of_forall fun c hc => ⟨not_isQuote_of_isBlank (h c hc), ne_comma_of_isBlank (h c hc)⟩

/-- Blanks around a piece do not matter to its being one. -/
theorem LastPiece.trim (h : LastPiece cs) : LastPiece (trim cs) := by
  obtain ⟨before, after, hbefore, -, he⟩ := exists_trim cs
  rw [lastPiece_iff, he, List.append_assoc, uncut_append,
    (whole_of_isBlankText hbefore).uncut.2, uncut_append] at h
  exact lastPiece_iff.mpr h.2.1

theorem Whole.trim (h : Whole cs) : Whole (trim cs) := by
  obtain ⟨before, after, hbefore, hafter, he⟩ := exists_trim cs
  have hq := h.uncut.2
  rw [he, List.append_assoc, quoteAfter_append, (whole_of_isBlankText hbefore).uncut.2,
    quoteAfter_append] at hq
  refine whole_iff.mpr ⟨lastPiece_iff.mp (LastPiece.whole h).trim, ?_⟩
  cases hopen : quoteAfter none (Text.trim cs) with
  | none => rfl
  | some mark =>
    have hmark := isQuote_of_mem_quoteAfter (by simp) mark hopen
    have hnot : mark ∉ after := fun hm =>
      Bool.false_ne_true ((not_isQuote_of_isBlank (hafter mark hm)).symm.trans hmark)
    rw [hopen, (uncut_inside hnot).2] at hq
    cases hq

/-- The pieces of a text keep apart. -/
theorem Cut.keepApart_map_trim (h : Cut cs pieces) : KeepApart (pieces.map Text.trim) := by
  induction h with
  | last h => exact h.trim
  | @comma piece rest pieces h hcut ih =>
    cases hcut with
    | last => exact ⟨h.trim, ih⟩
    | comma => exact ⟨h.trim, ih⟩

/-- What stands between quotation marks is whole if the mark does not occur in it. -/
theorem whole_between (hm : isQuote mark) (h : mark ∉ middle) : Whole (mark :: middle ++ [mark]) :=
  .quotation hm h .nil

end BenchConsole.Text
