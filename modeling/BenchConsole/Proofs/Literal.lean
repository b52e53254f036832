import BenchConsole.Literal
import BenchConsole.Proofs.Number.Numerals
import BenchConsole.Proofs.Text.Quotations
import BenchConsole.Proofs.Text.Words

/-!
# Literals read back

`Literal.IsReadable` are the values that reading gives (`isReadable_ofChars`): anything but the
absent one, with finite floats and bounded texts. Each of them is read back from its own text
(`ofChars_chars`), whatever characters it holds, so that reading and writing are inverse on them
(`parse_inverts_render`).

In the middle of a command more is needed. The text of a literal stays in one piece if it is
`Whole`, which it is unless a value holds both quotation marks (`whole_chars`).
-/

namespace BenchConsole

open Text Number

variable {c mark : Char} {cs inner : List Char}

namespace Text

theorem IsWord.whole (h : IsWord cs) : Whole cs :=
  whole_of_forall fun c hc => ⟨h.isQuote_eq_false c hc, ne_of_isWordChar (h c hc) rfl⟩

theorem isWordChar_eq_false_of_isQuote (h : isQuote c) : isWordChar c = false := by
  rcases isQuote_iff.mp h with rfl | rfl <;> rfl

theorem isBlank_eq_false_of_isNumeralChar (h : isNumeralChar c) : isBlank c = false := by
  have hc := isNumeralChar_iff.mp h
  simp only [isBlank, Bool.or_eq_false_iff, Bool.and_eq_false_iff, decide_eq_false_iff_not,
    beq_eq_false_iff_ne]
  omega

theorem ne_of_isNumeralChar {d : Char} (hc : isNumeralChar c) (hd : isNumeralChar d = false) :
    c ≠ d := by
  rintro rfl
  simp [hc] at hd

theorem isQuote_eq_false_of_isNumeralChar (h : isNumeralChar c) : isQuote c = false := by
  simp only [isQuote, Bool.or_eq_false_iff, beq_eq_false_iff_ne]
  exact ⟨ne_of_isNumeralChar h rfl, ne_of_isNumeralChar h rfl⟩

theorem isWordChar_eq_false_of_isNumeralChar (h : isNumeralChar c) : isWordChar c = false := by
  have hc := isNumeralChar_iff.mp h
  rw [← Bool.not_eq_true, isWordChar_iff]
  omega

end Text

namespace Literal

/-! ## Readable values -/

/-- The values that reading can give. -/
def IsReadable : Literal → Prop
  | absent => False
  | int _ => True
  | float v => v.isFinite
  | string s => s.toList.length ≤ maxTextLength
  | bool _ => True

/-- A value that does not hold both quotation marks. -/
def OneMark : Literal → Prop
  | string s => ¬('"' ∈ s.toList ∧ '\'' ∈ s.toList)
  | _ => True

instance : DecidablePred IsReadable
  | absent => inferInstanceAs (Decidable False)
  | int _ => inferInstanceAs (Decidable True)
  | float v => inferInstanceAs (Decidable (v.isFinite = true))
  | string s => inferInstanceAs (Decidable (s.toList.length ≤ maxTextLength))
  | bool _ => inferInstanceAs (Decidable True)

instance : DecidablePred OneMark
  | absent => inferInstanceAs (Decidable True)
  | int _ => inferInstanceAs (Decidable True)
  | float _ => inferInstanceAs (Decidable True)
  | string s => inferInstanceAs (Decidable ¬('"' ∈ s.toList ∧ '\'' ∈ s.toList))
  | bool _ => inferInstanceAs (Decidable True)

theorem isReadable_string_bounded (cs : List Char) :
    (string (String.ofList (bounded cs))).IsReadable := by
  simpa [IsReadable] using length_bounded_le cs

theorem isFinite_of_readFinite? {v : Float} (h : readFinite? cs = some v) : v.isFinite := by
  unfold readFinite? at h
  split at h
  · exact (Option.filter_eq_some_iff.mp h).2
  · cases h

/-- Whatever is read is readable. -/
theorem isReadable_ofTrimmed (cs : List Char) : (ofTrimmed cs).IsReadable := by
  unfold ofTrimmed
  split
  · trivial
  split
  · trivial
  split
  · exact isReadable_string_bounded _
  split
  · next h => exact isFinite_of_readFinite? h
  split
  · trivial
  · exact isReadable_string_bounded _

theorem isReadable_ofChars (cs : List Char) : (ofChars cs).IsReadable :=
  isReadable_ofTrimmed _

@[simp] theorem ofChars_trim (cs : List Char) : ofChars (trim cs) = ofChars cs := by
  simp [ofChars]

/-! ## Texts that are read -/

theorem interior?_eq_some_iff :
    interior? cs = some inner ↔ ∃ mark, isQuote mark ∧ cs = mark :: (inner ++ [mark]) := by
  cases cs with
  | nil => simp [interior?]
  | cons mark cs =>
    constructor
    · intro h
      simp only [interior?] at h
      split at h
      · next hm =>
        rw [Bool.and_eq_true, beq_iff_eq] at hm
        obtain ⟨init, rfl⟩ := List.getLast?_eq_some_iff.mp hm.2
        obtain rfl : init = inner := by simpa using h
        exact ⟨mark, hm.1, rfl⟩
      · cases h
    · rintro ⟨m, hm, he⟩
      obtain ⟨rfl, rfl⟩ := List.cons_eq_cons.mp he
      simp [interior?, hm]

theorem sublist_bareWord (cs : List Char) : (bareWord cs).Sublist cs := by
  have hend : (dropEndWhile isQuote (cs.dropWhile isQuote)).Sublist (cs.dropWhile isQuote) :=
    (List.rdropWhile_prefix _ _).sublist
  exact (List.rdropWhile_prefix _ _).sublist.trans (hend.trans (List.dropWhile_sublist _))

/-- The characters of a text that is read stand in this order in the text read from. -/
theorem sublist_of_ofTrimmed {s : String} (h : ofTrimmed cs = string s) :
    s.toList.Sublist cs := by
  unfold ofTrimmed at h
  split at h
  · cases h
  split at h
  · cases h
  split at h
  · next hinner =>
    obtain ⟨mark, -, rfl⟩ := interior?_eq_some_iff.mp hinner
    obtain rfl := Literal.string.inj h
    rw [String.toList_ofList]
    exact (List.take_sublist _ _).trans ((List.sublist_append_left _ _).trans
      (List.sublist_cons_self _ _))
  split at h
  · cases h
  split at h
  · cases h
  · obtain rfl := Literal.string.inj h
    rw [String.toList_ofList]
    exact (List.take_sublist _ _).trans (sublist_bareWord cs)

/-! ## Quoted texts -/

theorem isQuote_quoteMark (cs : List Char) : isQuote (quoteMark cs) := by
  unfold quoteMark
  split <;> rfl

/-- What stands between two equal quotation marks reads as a text. -/
theorem ofTrimmed_between (hm : isQuote mark) (cs : List Char) :
    ofTrimmed (mark :: (cs ++ [mark])) = string (String.ofList (bounded cs)) := by
  have hword {word : List Char} (h : IsWord word) :
      sameWord (mark :: (cs ++ [mark])) word = false :=
    sameWord_eq_false_of_mem h List.mem_cons_self (isWordChar_eq_false_of_isQuote hm)
  have hinterior : interior? (mark :: (cs ++ [mark])) = some cs :=
    interior?_eq_some_iff.mpr ⟨mark, hm, rfl⟩
  rw [ofTrimmed, hword (by decide), hword (by decide), hinterior]
  rfl

theorem ofTrimmed_quoted (cs : List Char) :
    ofTrimmed (quoted cs) = string (String.ofList (bounded cs)) :=
  ofTrimmed_between (isQuote_quoteMark cs) cs

/-! ## Numerals -/

theorem interior?_eq_none (h : ∀ c ∈ cs, isQuote c = false) : interior? cs = none := by
  cases cs with
  | nil => rfl
  | cons c cs => simp [interior?, h c List.mem_cons_self]

theorem ofTrimmed_numeral (h : ∀ c ∈ cs, isNumeralChar c) (hne : cs ≠ []) :
    ofTrimmed cs =
      match readFinite? cs with
      | some v => float v
      | none =>
        match readInt64? cs with
        | some v => int v
        | none => string (String.ofList (bounded (bareWord cs))) := by
  have hword {word : List Char} (hw : IsWord word) : sameWord cs word = false := by
    obtain ⟨c, cs, rfl⟩ := List.exists_cons_of_ne_nil hne
    exact sameWord_eq_false_of_mem hw List.mem_cons_self
      (isWordChar_eq_false_of_isNumeralChar (h c List.mem_cons_self))
  have hinterior := interior?_eq_none fun c hc => isQuote_eq_false_of_isNumeralChar (h c hc)
  rw [ofTrimmed, hword (by decide), hword (by decide), hinterior]
  rfl

theorem ofTrimmed_intText (v : Int64) : ofTrimmed (intText v.toInt) = int v := by
  have hpoint : '.' ∉ intText v.toInt := not_mem_intText rfl (by decide)
  rw [ofTrimmed_numeral (isNumeralChar_intText _) (intText_ne_nil _), readFinite?, if_neg hpoint,
    readInt64?_intText]

theorem ofTrimmed_pointedText {x : Float} (hx : x.isFinite) :
    ofTrimmed (pointedText x) = float x := by
  have hpoint := point_mem_pointedText hx
  have hread : readFinite? (pointedText x) = some x := by
    rw [readFinite?, if_pos hpoint, readFloat?_pointedText hx]
    exact Option.filter_eq_some_iff.mpr ⟨rfl, hx⟩
  rw [ofTrimmed_numeral (isNumeralChar_pointedText hx) (List.ne_nil_of_mem hpoint), hread]

/-! ## Words -/

theorem readInt64?_word (h : IsWord cs) : readInt64? cs = none := by
  cases cs with
  | nil => rfl
  | cons c cs =>
    have hc := h c List.mem_cons_self
    have hsign : splitSign (c :: cs) = (false, c :: cs) := by
      simp [splitSign, ne_of_isWordChar hc (rfl : isWordChar '-' = false),
        ne_of_isWordChar hc (rfl : isWordChar '+' = false)]
    have hdigit : c.isDigit = false := by
      rw [← Bool.not_eq_true]
      intro hd
      simp [isWordChar_eq_false_of_isNumeralChar (isNumeralChar_of_isDigit hd)] at hc
    simp [readInt64?, readInt?, hsign, readNat?, hdigit]

theorem bareWord_word (h : IsWord cs) : bareWord cs = cs := by
  have hfront : cs.dropWhile isQuote = cs := by
    cases cs with
    | nil => rfl
    | cons c cs => simp [h.isQuote_eq_false c List.mem_cons_self]
  have hback : dropEndWhile isQuote cs = cs :=
    List.rdropWhile_eq_self_iff.mpr fun hne =>
      Bool.eq_false_iff.mp (h.isQuote_eq_false _ (List.getLast_mem hne))
  have hblank : trimEnd cs = cs :=
    List.rdropWhile_eq_self_iff.mpr fun hne =>
      Bool.eq_false_iff.mp (isBlank_eq_false_of_isWordChar (h _ (List.getLast_mem hne)))
  rw [bareWord, hfront, hback, hblank]

/-- A word that is no truth value reads as a text. -/
theorem ofTrimmed_word (h : IsWord cs) (hlen : cs.length ≤ maxTextLength)
    (ht : sameWord cs "true".toList = false) (hf : sameWord cs "false".toList = false) :
    ofTrimmed cs = string (String.ofList cs) := by
  have hpoint : '.' ∉ cs := h.not_mem rfl
  rw [ofTrimmed, ht, hf, interior?_eq_none h.isQuote_eq_false, readFinite?, if_neg hpoint,
    readInt64?_word h, bareWord_word h, bounded_eq_self_iff.mpr hlen]
  rfl

/-! ## Reading back -/

variable {v : Literal}

theorem isWord_boolText (b : Bool) : IsWord (boolText b) := by
  cases b <;> decide

theorem isTrimmed_chars (h : v.IsReadable) : IsTrimmed v.chars := by
  cases v with
  | absent => cases h
  | int v =>
    exact isTrimmed_of_forall fun c hc =>
      isBlank_eq_false_of_isNumeralChar (isNumeralChar_intText _ c hc)
  | float v =>
    exact isTrimmed_of_forall fun c hc =>
      isBlank_eq_false_of_isNumeralChar (isNumeralChar_pointedText h c hc)
  | string s => exact isTrimmed_between (isQuote_quoteMark _) _
  | bool b => exact (isWord_boolText b).isTrimmed

/-- A readable value is read back from its text. -/
theorem ofChars_chars (h : v.IsReadable) : ofChars v.chars = v := by
  rw [ofChars, (isTrimmed_chars h).trim_eq]
  cases v with
  | absent => cases h
  | int v => exact ofTrimmed_intText v
  | float v => exact ofTrimmed_pointedText h
  | string s => rw [chars, ofTrimmed_quoted, bounded_eq_self_iff.mpr h, String.ofList_toList]
  | bool b => cases b <;> rfl

theorem chars_ne_nil (h : v.IsReadable) : v.chars ≠ [] := by
  cases v with
  | absent => cases h
  | int v => exact intText_ne_nil _
  | float v => exact List.ne_nil_of_mem (point_mem_pointedText h)
  | string s => exact List.cons_ne_nil _ _
  | bool b => cases b <;> decide

/-- The readable values are those that come back from their own text, and those that reading can
give. So nothing changes when a text is replaced by the text of what is read from it. -/
theorem parse_inverts_render :
    (∀ v : Literal, v.IsReadable ↔ parse v.render = v) ∧
      (∀ v : Literal, v.IsReadable ↔ ∃ text, parse text = v) ∧
      ∀ text, parse (parse text).render = parse text := by
  have hback {v : Literal} (h : v.IsReadable) : parse v.render = v := by
    rw [parse, render, String.toList_ofList, ofChars_chars h]
  have hread (text : String) : (parse text).IsReadable := isReadable_ofChars text.toList
  refine ⟨fun v => ⟨hback, fun h => ?_⟩, fun v => ⟨fun h => ⟨_, hback h⟩, ?_⟩,
    fun text => hback (hread text)⟩
  · rw [← h]
    exact hread _
  · rintro ⟨text, rfl⟩
    exact hread text

/-! ## Commas -/

/-- Reading a literal adds no commas to its text. -/
theorem count_comma_ofChars (cs : List Char) : (ofChars cs).chars.count ',' ≤ cs.count ',' := by
  have hread := isReadable_ofChars cs
  have hnone {ds : List Char} (h : ',' ∉ ds) : ds.count ',' ≤ cs.count ',' := by
    rw [List.count_eq_zero_of_not_mem h]
    exact Nat.zero_le _
  cases hv : ofChars cs with
  | absent => simp [hv, IsReadable] at hread
  | int v => exact hnone (not_mem_intText rfl (by decide))
  | float v =>
    rw [hv] at hread
    exact hnone fun h => ne_of_isNumeralChar (isNumeralChar_pointedText hread _ h) rfl rfl
  | string s =>
    have hsub := (sublist_of_ofTrimmed hv).trans (trim_sublist cs)
    have hmark := ne_comma_of_isQuote (isQuote_quoteMark s.toList)
    have hcount : (quoted s.toList).count ',' = s.toList.count ',' := by
      simp [quoted, hmark]
    rw [chars, hcount]
    exact hsub.count_le ','
  | bool b => exact hnone ((isWord_boolText b).not_mem rfl)

/-! ## Whole texts -/

theorem quoteMark_not_mem (h : ¬('"' ∈ cs ∧ '\'' ∈ cs)) : quoteMark cs ∉ cs := by
  unfold quoteMark
  split
  · next hd => exact fun hs => h ⟨hd, hs⟩
  · next hd => exact hd

theorem whole_of_isNumeralChar (h : ∀ c ∈ cs, isNumeralChar c) : Whole cs :=
  whole_of_forall fun c hc =>
    ⟨isQuote_eq_false_of_isNumeralChar (h c hc), ne_of_isNumeralChar (h c hc) rfl⟩

/-- The text of a readable value is whole, but a text in it must not hold both marks. -/
theorem whole_chars (h : v.IsReadable) (hm : v.OneMark) : Whole v.chars := by
  cases v with
  | absent => cases h
  | int v => exact whole_of_isNumeralChar (isNumeralChar_intText _)
  | float v => exact whole_of_isNumeralChar (isNumeralChar_pointedText h)
  | string s => exact whole_between (isQuote_quoteMark _) (quoteMark_not_mem hm)
  | bool b => exact (isWord_boolText b).whole

end Literal

end BenchConsole
