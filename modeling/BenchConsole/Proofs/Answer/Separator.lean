import BenchConsole.Answer
import BenchConsole.Proofs.Text.Quotations
import BenchConsole.Proofs.Text.Words

/-!
# The separator in a response line

The value of a response stands behind the first separator that is outside all quotations and
parentheses. `ShowsSeparator` says that a text has such a separator, and `afterSeparator?` finds
one if and only if there is one (`afterSeparator?_eq_none_iff`).

An echo shows no separator if it is `IsEnclosed`: a word and a pair of parentheses around a `Flat`
text, one in which every quotation is closed and no parenthesis stands outside quotations. Then the
echo is `PassedOver`: a scan takes up what comes behind it (`IsEnclosed.passedOver`). The same holds
of an echo that is `Plain`, one that has nothing in it that the scan looks for (`Plain.passedOver`).
-/

namespace BenchConsole.Answer

open Text

/-- The number of open parentheses after reading `c`, given the quotation and the parentheses that
were open before it. -/
def nextDepth (inside : Option Char) (depth : Nat) (c : Char) : Nat :=
  if inside.isSome || isQuote c then depth
  else if c = '(' then depth + 1
  else if c = ')' then depth - 1
  else depth

/-- The number of open parentheses after a text. -/
def depthAfter (inside : Option Char) (depth : Nat) : List Char → Nat
  | [] => depth
  | c :: cs => depthAfter (nextQuote inside c) (nextDepth inside depth c) cs

/-- Whether all quotations and parentheses of a text are closed at its end, `inside` being the
quotation and `depth` the number of parentheses open at its start. -/
def EndsOutside (inside : Option Char) (depth : Nat) (cs : List Char) : Prop :=
  quoteAfter inside cs = none ∧ depthAfter inside depth cs = 0

/-- A separator stands in the text outside all quotations and parentheses. -/
def ShowsSeparator (cs : List Char) : Prop :=
  ∃ before after, cs = before ++ Response.separator.toList ++ after ∧ EndsOutside none 0 before

/-- A text in which every quotation is closed and no parenthesis stands outside quotations. -/
inductive Flat : List Char → Prop
  | nil : Flat []
  | char : isQuote c = false → c ≠ '(' → c ≠ ')' → Flat cs → Flat (c :: cs)
  | quotation : isQuote mark → mark ∉ middle → Flat cs → Flat (mark :: (middle ++ mark :: cs))

/-- A word with parentheses behind it, around a flat text. -/
inductive IsEnclosed : List Char → Prop
  | mk : IsWord name → name ≠ [] → Flat body → IsEnclosed (name ++ '(' :: (body ++ [')']))

/-- A text without quotation marks, parentheses and equals signs, and without blanks around it. -/
structure Plain (cs : List Char) : Prop where
  ne_nil : cs ≠ []
  isTrimmed : IsTrimmed cs
  chars : ∀ c ∈ cs, isQuote c = false ∧ c ≠ '(' ∧ c ≠ ')' ∧ c ≠ '='

/-- A text that a scan passes over. -/
structure PassedOver (cs : List Char) : Prop where
  ne_nil : cs ≠ []
  isTrimmed : IsTrimmed cs
  afterSeparator?_append : ∀ ds, afterSeparator? none 0 (cs ++ ds) = afterSeparator? none 0 ds

variable {inside : Option Char} {depth : Nat} {c mark : Char}
  {cs ds middle name before after rest : List Char}

/-! ## The scan -/

theorem separator_toList : Response.separator.toList = [' ', '=', ' '] := rfl

/-- One step of the scan: it is over at a separator outside quotations and parentheses. -/
theorem afterSeparator?_cons : afterSeparator? inside depth (c :: cs) =
    if inside = none ∧ depth = 0 ∧ [' ', '=', ' '] <+: c :: cs then some (cs.drop 2)
    else afterSeparator? (nextQuote inside c) (nextDepth inside depth c) cs := by
  rw [afterSeparator?]
  cases inside with
  | some mark => simp [nextDepth]
  | none =>
    by_cases hq : isQuote c
    · have hne : c ≠ ' ' := by
        rintro rfl
        cases hq
      simp [hq, nextDepth, List.prefix_cons_iff, hne.symm]
    · rw [Bool.not_eq_true] at hq
      have hstarts : [' ', '=', ' '] <+: c :: cs ↔ c = ' ' ∧ ['=', ' '] <+: cs := by
        rw [List.cons_prefix_cons, eq_comm]
      simp only [hq, nextDepth, nextQuote_of_not_isQuote hq, hstarts, Option.isSome_none,
        Bool.or_false, Bool.false_eq_true, if_false, true_and, List.isPrefixOf_iff_prefix]
      by_cases hopen : c = '('
      · simp [hopen]
      by_cases hclose : c = ')'
      · simp [hclose]
      simp only [hopen, hclose, if_false]

theorem endsOutside_nil : EndsOutside inside depth [] ↔ inside = none ∧ depth = 0 := Iff.rfl

/-- The scan finds a separator if and only if there is one. -/
theorem afterSeparator?_eq_none_iff : afterSeparator? inside depth cs = none ↔
    ∀ before after, cs = before ++ Response.separator.toList ++ after →
      ¬EndsOutside inside depth before := by
  rw [separator_toList]
  induction cs generalizing inside depth with
  | nil => simp [afterSeparator?]
  | cons c cs ih =>
    rw [afterSeparator?_cons]
    by_cases hsep : inside = none ∧ depth = 0 ∧ [' ', '=', ' '] <+: c :: cs
    · obtain ⟨after, hafter⟩ := hsep.2.2
      rw [if_pos hsep]
      refine iff_of_false (by simp) fun h => ?_
      exact h [] after hafter.symm (endsOutside_nil.mpr ⟨hsep.1, hsep.2.1⟩)
    rw [if_neg hsep, ih]
    constructor
    · rintro h (_ | ⟨d, before⟩) after he hends
      · exact hsep ⟨hends.1, hends.2, after, he.symm⟩
      · obtain ⟨rfl, rfl⟩ := List.cons_eq_cons.mp he
        exact h before after rfl hends
    · rintro h before after rfl hends
      exact h (c :: before) after rfl hends

theorem afterSeparator?_eq_none_iff_not_showsSeparator :
    afterSeparator? none 0 cs = none ↔ ¬ShowsSeparator cs := by
  rw [afterSeparator?_eq_none_iff]
  constructor
  · rintro h ⟨before, after, he, hends⟩
    exact h before after he hends
  · exact fun h before after he hends => h ⟨before, after, he, hends⟩

/-- What the scan finds is shorter than the text by a separator at least. -/
theorem length_lt_of_afterSeparator? (h : afterSeparator? inside depth cs = some rest) :
    rest.length < cs.length := by
  induction cs generalizing inside depth with
  | nil => cases h
  | cons c cs ih =>
    rw [afterSeparator?_cons] at h
    split at h
    · obtain rfl := Option.some.inj h
      simp only [List.length_drop, List.length_cons]
      omega
    · exact (ih h).trans (Nat.lt_succ_self _)

/-! ## Texts that a scan passes over -/

theorem afterSeparator?_inside_append (h : mark ∉ middle) :
    afterSeparator? (some mark) depth (middle ++ mark :: cs) = afterSeparator? none depth cs := by
  induction middle with
  | nil => simp [afterSeparator?_cons, nextDepth, nextQuote_self]
  | cons c middle ih =>
    have hc : nextQuote (some mark) c = some mark := by
      simp only [nextQuote]
      exact if_neg fun he : c = mark => h (he ▸ List.mem_cons_self)
    rw [List.cons_append, afterSeparator?_cons, if_neg (by simp), hc]
    exact ih fun hm => h (List.mem_cons_of_mem _ hm)

theorem Flat.afterSeparator?_append (h : Flat cs) (hd : depth ≠ 0) :
    afterSeparator? none depth (cs ++ ds) = afterSeparator? none depth ds := by
  induction h with
  | nil => rfl
  | char hq hopen hclose _ ih =>
    rw [List.cons_append, afterSeparator?_cons, if_neg (by simp [hd]), nextQuote_of_not_isQuote hq]
    simp only [nextDepth, hq, hopen, hclose, Option.isSome_none, Bool.or_false,
      Bool.false_eq_true, if_false]
    exact ih
  | @quotation mark middle cs hm hmiddle _ ih =>
    rw [List.cons_append, afterSeparator?_cons, if_neg (by simp [hd]), nextQuote_of_isQuote hm,
      List.append_assoc, List.cons_append]
    simp only [nextDepth, hm, Bool.or_true, if_true]
    rw [afterSeparator?_inside_append hmiddle]
    exact ih

/-- A scan passes over a text that has nothing in it that the scan looks for. The blank of a separator
must not stand at its end. -/
theorem afterSeparator?_plain_append
    (h : ∀ c ∈ cs, isQuote c = false ∧ c ≠ '(' ∧ c ≠ ')' ∧ c ≠ '=')
    (hlast : ∀ c ∈ cs.getLast?, c ≠ ' ') :
    afterSeparator? none depth (cs ++ ds) = afterSeparator? none depth ds := by
  induction cs with
  | nil => rfl
  | cons c cs ih =>
    obtain ⟨⟨hq, hopen, hclose, -⟩, hrest⟩ := List.forall_mem_cons.mp h
    have hsep : ¬[' ', '=', ' '] <+: c :: (cs ++ ds) := by
      cases cs with
      | nil => simp [List.cons_prefix_cons, (hlast c rfl).symm]
      | cons d cs =>
        obtain ⟨-, -, -, hd⟩ := hrest d List.mem_cons_self
        simp [List.cons_prefix_cons, hd.symm]
    have hlast' : ∀ d ∈ cs.getLast?, d ≠ ' ' := by
      cases cs with
      | nil => nofun
      | cons d cs => rwa [List.getLast?_cons_cons] at hlast
    rw [List.cons_append, afterSeparator?_cons, if_neg fun hstart => hsep hstart.2.2,
      nextQuote_of_not_isQuote hq]
    simp only [nextDepth, hq, hopen, hclose, Option.isSome_none, Bool.or_false,
      Bool.false_eq_true, if_false]
    exact ih hrest hlast'

theorem Plain.passedOver (h : Plain cs) : PassedOver cs where
  ne_nil := h.ne_nil
  isTrimmed := h.isTrimmed
  afterSeparator?_append _ := by
    refine afterSeparator?_plain_append h.chars fun c hc => ?_
    rintro rfl
    cases h.isTrimmed.last ' ' hc

theorem afterSeparator?_word_append (h : IsWord name) :
    afterSeparator? none depth (name ++ cs) = afterSeparator? none depth cs := by
  refine afterSeparator?_plain_append (fun c hc => ?_) fun c hc => ?_
  · have hword := h c hc
    exact ⟨h.isQuote_eq_false c hc, ne_of_isWordChar hword rfl, ne_of_isWordChar hword rfl,
      ne_of_isWordChar hword rfl⟩
  · exact ne_of_isWordChar (h c (List.mem_of_mem_getLast? hc)) rfl

/-- A scan passes over an enclosed text and takes up what comes behind it. -/
theorem IsEnclosed.afterSeparator?_append (h : IsEnclosed cs) :
    afterSeparator? none 0 (cs ++ ds) = afterSeparator? none 0 ds := by
  obtain ⟨hname, -, hbody⟩ := h
  rw [List.append_assoc, afterSeparator?_word_append hname, List.cons_append,
    afterSeparator?_cons, if_neg (by simp [List.cons_prefix_cons]), List.append_assoc]
  have hopen : nextQuote none '(' = none := rfl
  have hdepth : nextDepth none 0 '(' = 1 := rfl
  rw [hopen, hdepth, hbody.afterSeparator?_append Nat.one_ne_zero, List.singleton_append,
    afterSeparator?_cons, if_neg (by simp)]
  rfl

theorem IsEnclosed.not_showsSeparator (h : IsEnclosed cs) : ¬ShowsSeparator cs := by
  have hpass := @IsEnclosed.afterSeparator?_append cs [] h
  rw [List.append_nil] at hpass
  exact afterSeparator?_eq_none_iff_not_showsSeparator.mp hpass

/-- A word with parentheses behind it has no blanks around it. -/
theorem isTrimmed_call (hword : IsWord name) (hne : name ≠ []) :
    IsTrimmed (name ++ '(' :: (cs ++ [')'])) := by
  obtain ⟨c, name, rfl⟩ := List.exists_cons_of_ne_nil hne
  have hc := isBlank_eq_false_of_isWordChar (hword c List.mem_cons_self)
  refine isTrimmed_of_ends hc (rfl : isBlank ')' = false) rfl ?_
  rw [← List.cons_append, ← List.append_assoc, List.getLast?_concat]

theorem IsEnclosed.isTrimmed (h : IsEnclosed cs) : IsTrimmed cs ∧ cs ≠ [] := by
  obtain ⟨hword, hne, -⟩ := h
  exact ⟨isTrimmed_call hword hne, by simp⟩

theorem IsEnclosed.passedOver (h : IsEnclosed cs) : PassedOver cs where
  ne_nil := h.isTrimmed.2
  isTrimmed := h.isTrimmed.1
  afterSeparator?_append _ := h.afterSeparator?_append

/-! ## Flat texts -/

theorem Flat.append (hc : Flat cs) (hd : Flat ds) : Flat (cs ++ ds) := by
  induction hc with
  | nil => exact hd
  | char hq hopen hclose _ ih => exact .char hq hopen hclose ih
  | quotation hm hmiddle _ ih => simpa using Flat.quotation hm hmiddle ih

/-- A text without quotation marks and parentheses is flat. -/
theorem flat_of_forall (h : ∀ c ∈ cs, isQuote c = false ∧ c ≠ '(' ∧ c ≠ ')') : Flat cs := by
  induction cs with
  | nil => exact .nil
  | cons c cs ih =>
    have hc := h c List.mem_cons_self
    exact .char hc.1 hc.2.1 hc.2.2 (ih fun d hd => h d (List.mem_cons_of_mem _ hd))

theorem flat_of_isWord (h : IsWord cs) : Flat cs :=
  flat_of_forall fun c hc =>
    ⟨h.isQuote_eq_false c hc, ne_of_isWordChar (h c hc) rfl, ne_of_isWordChar (h c hc) rfl⟩

/-- What stands between quotation marks is flat if the mark does not occur in it. -/
theorem flat_between (hm : isQuote mark) (h : mark ∉ middle) : Flat (mark :: middle ++ [mark]) :=
  .quotation hm h .nil

end BenchConsole.Answer
