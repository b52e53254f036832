import BenchConsole.Proofs.Answer
import BenchConsole.Proofs.Number.Range

/-!
# Answers with finite numbers

A numeral in the line of a response may be too long for a float; it would be read as infinite. In
a `Moderate` text no such numeral stands behind a blank, which is where a value starts. Texts that
are short, that have no point, or that have no blank are moderate, and so is what is put together
from moderate texts (`Moderate.append`). The answer to a line of moderate texts has a finite number
(`Moderate.isFinite_ofChars`).
-/

namespace BenchConsole.Answer

open Text Number

variable {c : Char} {cs as bs numeral rest before after value : List Char}

/-- A character that cannot stand in a numeral. -/
def endsNumeral (c : Char) : Bool :=
  !isNumeralChar c && c != '+'

/-- No numeral that stands behind a blank is too large for a float, and none goes on from a text
in front of this one. -/
structure Moderate (cs : List Char) : Prop where
  head : ∀ c ∈ cs.head?, endsNumeral c
  finite : ∀ before c numeral after, cs = before ++ c :: (numeral ++ after) → isBlank c →
    IsSignedNumeral numeral → (∀ d ∈ after.head?, isBlank d) →
    ∀ a ∈ ofNumeral? numeral, a.numeric.isFinite

/-! ## Numerals -/

theorem IsSignedNumeral.endsNumeral_eq_false (h : IsSignedNumeral numeral) :
    ∀ c ∈ numeral, endsNumeral c = false := by
  obtain ⟨hsign, -, hwhole, hfraction⟩ := h
  have hdigit {c : Char} (hc : c.isDigit) : endsNumeral c = false := by
    simp [endsNumeral, isNumeralChar_of_isDigit hc]
  intro c hc
  rcases List.mem_append.mp hc with hc | hc
  · simp only [List.mem_cons, List.not_mem_nil, or_false] at hsign
    rcases hsign with rfl | rfl | rfl
    · cases hc
    · obtain rfl := List.mem_singleton.mp hc
      rfl
    · obtain rfl := List.mem_singleton.mp hc
      rfl
  rcases List.mem_append.mp hc with hc | hc
  · exact hdigit (hwhole c hc)
  · cases hfraction with
    | nil => cases hc
    | point hdigits =>
      rcases List.mem_cons.mp hc with rfl | hc
      · rfl
      · exact hdigit (hdigits c hc)

theorem isBlank_of_isUnitSpace (h : isUnitSpace c) : isBlank c := by
  simp only [isUnitSpace, Bool.or_eq_true, beq_iff_eq] at h
  rcases h with (((rfl | rfl) | rfl) | rfl) | rfl <;> rfl

theorem isFinite_ofNumeral?_of_no_point {a : Answer} (h : '.' ∉ numeral)
    (ha : ofNumeral? numeral = some a) : a.numeric.isFinite := by
  rw [ofNumeral?, if_neg h] at ha
  obtain ⟨v, -, rfl⟩ := Option.map_eq_some_iff.mp ha
  exact Binary64.isFinite_ofInt64 v

/-- A sign of a numeral is a minus or counts for nothing. -/
theorem exists_readFloat?_signed {sign whole : List Char} (hsign : sign ∈ [[], ['-'], ['+']])
    (hne : whole ≠ []) (hwhole : ∀ c ∈ whole, c.isDigit) (rest : List Char) :
    ∃ negative, readFloat? (sign ++ (whole ++ rest)) =
      readFloat? (signed negative (whole ++ rest)) := by
  obtain ⟨c, whole, rfl⟩ := List.exists_cons_of_ne_nil hne
  simp only [List.mem_cons, List.not_mem_nil, or_false] at hsign
  rcases hsign with rfl | rfl | rfl
  · exact ⟨false, rfl⟩
  · exact ⟨true, rfl⟩
  · exact ⟨false, readFloat?_plus (hwhole c List.mem_cons_self)⟩

theorem point_not_mem_whole {sign whole : List Char} (hsign : sign ∈ [[], ['-'], ['+']])
    (hwhole : ∀ c ∈ whole, c.isDigit) : '.' ∉ sign ++ (whole ++ []) := by
  have hnot : '.' ∉ whole := fun hp => Bool.false_ne_true (hwhole '.' hp)
  simp only [List.mem_cons, List.not_mem_nil, or_false] at hsign
  rcases hsign with rfl | rfl | rfl <;> simp [hnot]

theorem isFinite_ofNumeral?_of_length_le {a : Answer} (h : IsSignedNumeral numeral)
    (hlen : numeral.length ≤ 240) (ha : ofNumeral? numeral = some a) : a.numeric.isFinite := by
  by_cases hpoint : '.' ∈ numeral
  · rw [ofNumeral?, if_pos hpoint] at ha
    obtain ⟨x, hx, rfl⟩ := Option.map_eq_some_iff.mp ha
    obtain ⟨hsign, hne, hwhole, hfraction⟩ := h
    obtain ⟨negative, hread⟩ := exists_readFloat?_signed hsign hne hwhole _
    rw [hread] at hx
    cases hfraction with
    | nil => exact absurd hpoint (point_not_mem_whole hsign hwhole)
    | point hdigits =>
      refine isFinite_of_readFloat?_pointed hne hwhole hdigits ?_ negative hx
      simp only [List.length_append, List.length_cons] at hlen ⊢
      omega
  · exact isFinite_ofNumeral?_of_no_point hpoint ha

/-! ## Moderate texts -/

theorem moderate_nil : Moderate [] where
  head c hc := by cases hc
  finite before c numeral after he := by simp at he

theorem moderate_of_no_blank (hc : endsNumeral c) (h : ∀ d ∈ c :: cs, isBlank d = false) :
    Moderate (c :: cs) where
  head d hd := Option.some.inj hd ▸ hc
  finite before d numeral after he hd := by
    rw [h d (by simp [he])] at hd
    cases hd

theorem moderate_of_no_point (hc : endsNumeral c) (h : '.' ∉ c :: cs) : Moderate (c :: cs) where
  head d hd := Option.some.inj hd ▸ hc
  finite before d numeral after he _ _ _ a ha :=
    isFinite_ofNumeral?_of_no_point (fun hp => h (by simp [he, hp])) ha

theorem moderate_of_length_le (hc : endsNumeral c) (h : (c :: cs).length ≤ 240) :
    Moderate (c :: cs) where
  head d hd := Option.some.inj hd ▸ hc
  finite before d numeral after he _ hn _ a ha := by
    refine isFinite_ofNumeral?_of_length_le hn ?_ ha
    have hlen := congrArg List.length he
    simp only [List.length_append, List.length_cons] at hlen h
    omega

/-- A value without blanks is moderate if it is no numeral of a number that is too large. -/
theorem moderate_space (h : ∀ d ∈ cs, isBlank d = false)
    (hf : ∀ a ∈ ofNumeral? cs, a.numeric.isFinite) : Moderate (' ' :: cs) where
  head d hd := Option.some.inj hd ▸ rfl
  finite before d numeral after he hd hn hafter a ha := by
    cases before with
    | nil =>
      obtain ⟨rfl, rfl⟩ := List.cons_eq_cons.mp he
      cases after with
      | nil => exact hf a (by simpa using ha)
      | cons e after =>
        have hblank := hafter e rfl
        rw [h e (by simp)] at hblank
        cases hblank
    | cons b before =>
      rw [h d (by simp [(List.cons_eq_cons.mp he).2])] at hd
      cases hd

/-- A numeral does not go on from one text to the next. -/
theorem Moderate.append (ha : Moderate as) (hb : Moderate bs) : Moderate (as ++ bs) where
  head c hc := by
    cases as with
    | nil => exact hb.head c hc
    | cons d as => exact ha.head c hc
  finite before c numeral after he hc hn hafter := by
    rcases List.append_eq_append_iff.mp he with ⟨front, rfl, hbs⟩ | ⟨front, has, hfront⟩
    · exact hb.finite front c numeral after hbs hc hn hafter
    cases front with
    | nil => exact hb.finite [] c numeral after hfront.symm hc hn hafter
    | cons d front =>
      obtain ⟨rfl, hrest⟩ := List.cons_eq_cons.mp hfront
      rcases List.append_eq_append_iff.mp hrest with ⟨back, rfl, rfl⟩ | ⟨back, rfl, hbs⟩
      · refine ha.finite before c numeral back has hc hn fun d hd => hafter d ?_
        cases back with
        | nil => cases hd
        | cons e back => exact hd
      · cases back with
        | nil =>
          rw [List.append_nil] at hn ⊢
          exact ha.finite before c front [] (by rw [has, List.append_nil]) hc hn (by simp)
        | cons e back =>
          have hend := hb.head e (by rw [hbs]; rfl)
          rw [hn.endsNumeral_eq_false e (by simp)] at hend
          cases hend

theorem moderate_flatMap {α : Type} {l : List α} {f : α → List Char}
    (h : ∀ x ∈ l, Moderate (f x)) : Moderate (l.flatMap f) := by
  induction l with
  | nil => exact moderate_nil
  | cons x l ih =>
    rw [List.flatMap_cons]
    exact (h x List.mem_cons_self).append (ih fun y hy => h y (List.mem_cons_of_mem _ hy))

/-! ## Answers -/

theorem isFinite_zero : Float.isFinite 0.0 := by
  decide

theorem isFinite_truthValue (b : Bool) : (if b then 1.0 else 0.0 : Float).isFinite := by
  revert b
  decide

/-- A value between blanks in a moderate text has a finite number. -/
theorem Moderate.isFinite_ofValue (h : Moderate cs)
    (he : cs = before ++ c :: (value ++ after)) (hc : isBlank c) (ha : IsBlankText after) :
    (ofValue value).numeric.isFinite := by
  unfold ofValue
  split
  · next b _ => exact isFinite_truthValue b
  cases hn : (numeralOf? value).bind ofNumeral? with
  | none => exact isFinite_zero
  | some a =>
    obtain ⟨numeral, hnumeral, hread⟩ := Option.bind_eq_some_iff.mp hn
    obtain ⟨rest, rfl, hsigned, hrest⟩ := numeralOf?_eq_some_iff.mp hnumeral
    refine h.finite before c numeral (rest ++ after) (by rw [he, List.append_assoc]) hc hsigned
      (fun d hd => ?_) a hread
    cases rest with
    | nil => exact ha d (List.mem_of_mem_head? hd)
    | cons e rest => exact isBlank_of_isUnitSpace (hrest d hd)

theorem exists_of_afterSeparator? {inside : Option Char} {depth : Nat}
    (h : afterSeparator? inside depth cs = some rest) :
    ∃ before, cs = before ++ Response.separator.toList ++ rest := by
  induction cs generalizing inside depth with
  | nil => cases h
  | cons c cs ih =>
    rw [afterSeparator?_cons] at h
    split at h
    · next hsep =>
      obtain ⟨after, hafter⟩ := hsep.2.2
      obtain rfl := Option.some.inj h
      refine ⟨[], ?_⟩
      rw [← hafter]
      obtain ⟨rfl, rfl⟩ := List.cons_eq_cons.mp hafter
      rfl
    · obtain ⟨before, rfl⟩ := ih h
      exact ⟨c :: before, rfl⟩

/-- Behind the mark of a success, a moderate text is answered by a finite number. -/
theorem Moderate.isFinite_ofChars (h : Moderate rest) :
    (ofChars (Response.successMark.toList ++ rest)).numeric.isFinite := by
  rw [ofChars_successMark_append]
  cases hv : value? (trim rest) with
  | none => exact isFinite_zero
  | some value =>
    obtain ⟨tail, htail, rfl⟩ := Option.map_eq_some_iff.mp hv
    obtain ⟨before, hbefore⟩ := exists_of_afterSeparator? htail
    obtain ⟨front, back, -, hback, hrest⟩ := exists_trim rest
    obtain ⟨blanks, after, hblanks, hafter, hvalue⟩ := exists_trim tail
    -- The last of the blanks in front of the value, one of which belongs to the separator.
    obtain ⟨init, c, hinit⟩ := List.eq_nil_or_concat' (' ' :: blanks) |>.resolve_left (by simp)
    have hc : isBlank c := by
      have hmem : c ∈ ' ' :: blanks := by simp [hinit]
      rcases List.mem_cons.mp hmem with rfl | hmem
      · rfl
      · exact hblanks c hmem
    have hjoin (ds : List Char) : ' ' :: (blanks ++ ds) = init ++ c :: ds := by
      rw [← List.cons_append, hinit, List.append_assoc, List.singleton_append]
    have hline : rest = (front ++ before ++ [' ', '='] ++ init) ++
        c :: (trim tail ++ (after ++ back)) := by
      generalize trim tail = value at hvalue ⊢
      rw [hrest, hbefore, separator_toList, hvalue]
      simp [hjoin]
    refine h.isFinite_ofValue hline hc fun d hd => ?_
    rcases List.mem_append.mp hd with hd | hd
    · exact hafter d hd
    · exact hback d hd

end BenchConsole.Answer
