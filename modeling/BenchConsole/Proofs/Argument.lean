import BenchConsole.Argument
import BenchConsole.Proofs.Literal

/-!
# Arguments read back

Reading an argument either splits off a name or takes the whole text for the value
(`ofChars_cases`). `Argument.IsReadable` are the arguments that reading gives, and each of them is
read back from its text if its name has no blanks around it (`ofChars_chars`): a name that was cut
may end in a blank, which is taken off when it is read again.

Reading may change a text, but it never adds a comma to it (`count_comma_ofChars`).
-/

namespace BenchConsole

open Text Number

namespace Argument

variable {a : Argument} {c : Char} {cs name value : List Char}

/-! ## Names -/

theorem endsName_iff : endsName c ↔ c = '=' ∨ isQuote c ∨ c = '(' ∨ c = ')' := by
  simp [endsName, or_assoc]

theorem isQuote_eq_false_of_endsName (h : endsName c = false) : isQuote c = false := by
  rw [← Bool.not_eq_true] at h ⊢
  exact fun hq => h (endsName_iff.mpr (.inr (.inl hq)))

/-- A name is set off by the first character that can end one, if that is an equals sign. -/
theorem ofChars_named (he : trim cs = name ++ '=' :: value)
    (hname : ∀ c ∈ name, endsName c = false) (hne : trim name ≠ []) :
    ofChars cs = named (trim name) (Literal.ofChars value) := by
  have hspan : (trim cs).span (fun c => !endsName c) = (name, '=' :: value) := by
    rw [span_eq_iff]
    refine ⟨he, fun c hc => by simp [hname c hc], ?_⟩
    intro c hc
    obtain rfl : '=' = c := by simpa using hc
    rfl
  simp only [ofChars, hspan]
  rw [if_neg (by simpa using hne)]

theorem ofChars_positional
    (h : ∀ name value, trim cs = name ++ '=' :: value → (∀ c ∈ name, endsName c = false) →
      trim name = []) :
    ofChars cs = positional (Literal.ofChars cs) := by
  simp only [ofChars]
  split
  · next name value hspan =>
    obtain ⟨he, hname, -⟩ := span_eq_iff.mp hspan
    rw [if_pos, Literal.ofChars_trim]
    rw [h name value he fun c hc => by simpa using hname c hc]
    rfl
  · rw [Literal.ofChars_trim]

/-- Reading splits off a name, or it takes the whole text for the value. -/
theorem ofChars_cases (cs : List Char) :
    (∃ name value, trim cs = name ++ '=' :: value ∧ (∀ c ∈ name, endsName c = false) ∧
      trim name ≠ [] ∧ ofChars cs = named (trim name) (Literal.ofChars value)) ∨
    ofChars cs = positional (Literal.ofChars cs) := by
  by_cases h : ∃ name value, trim cs = name ++ '=' :: value ∧ (∀ c ∈ name, endsName c = false) ∧
      trim name ≠ []
  · obtain ⟨name, value, he, hname, hne⟩ := h
    exact .inl ⟨name, value, he, hname, hne, ofChars_named he hname hne⟩
  · refine .inr (ofChars_positional fun name value he hname => ?_)
    by_contra hne
    exact h ⟨name, value, he, hname, hne⟩

@[simp] theorem ofChars_trim (cs : List Char) : ofChars (trim cs) = ofChars cs := by
  simp [ofChars]

/-- A word that is no truth value reads as a text. -/
theorem ofChars_word (h : IsWord cs) (hlen : cs.length ≤ maxTextLength)
    (ht : sameWord cs "true".toList = false) (hf : sameWord cs "false".toList = false) :
    ofChars cs = positional (.string (String.ofList cs)) := by
  rw [ofChars_positional, Literal.ofChars, h.isTrimmed.trim_eq, Literal.ofTrimmed_word h hlen ht hf]
  intro name value he
  rw [h.isTrimmed.trim_eq] at he
  exact absurd (he ▸ List.mem_append_right name List.mem_cons_self) (h.not_mem rfl)

/-- Nothing that starts with a quotation mark has a name. -/
theorem isQuote_cons_ne_named (hm : isQuote c) (hname : ∀ d ∈ name, endsName d = false) :
    c :: cs ≠ name ++ '=' :: value := by
  intro he
  cases name with
  | nil =>
    rw [(List.cons.inj he).1] at hm
    cases hm
  | cons d name =>
    have hd := isQuote_eq_false_of_endsName (hname d List.mem_cons_self)
    rw [← (List.cons.inj he).1, hm] at hd
    cases hd

/-- What stands between two equal quotation marks reads as a text. -/
theorem ofChars_between (hm : isQuote c) (cs : List Char) :
    ofChars (c :: (cs ++ [c])) = positional (.string (String.ofList (bounded cs))) := by
  have ht := isTrimmed_between hm cs
  rw [ofChars_positional, Literal.ofChars, ht.trim_eq, Literal.ofTrimmed_between hm]
  intro name value he hname
  rw [ht.trim_eq] at he
  exact absurd he (isQuote_cons_ne_named hm hname)

theorem map_ofChars_trim (pieces : List (List Char)) :
    (pieces.map trim).map ofChars = pieces.map ofChars := by
  rw [List.map_map]
  exact List.map_congr_left fun piece _ => ofChars_trim piece

/-! ## Readable arguments -/

/-- The arguments that reading can give. -/
structure IsReadable (a : Argument) : Prop where
  name_ne_nil : ∀ name ∈ a.name, name.toList ≠ []
  name_head : ∀ name ∈ a.name, ∀ c ∈ name.toList.head?, isBlank c = false
  name_length : ∀ name ∈ a.name, name.toList.length ≤ maxTextLength
  name_plain : ∀ name ∈ a.name, ∀ c ∈ name.toList, endsName c = false
  value : a.value.IsReadable

theorem isReadable_positional {v : Literal} (h : v.IsReadable) : (positional v).IsReadable where
  name_ne_nil _ hn := by cases hn
  name_head _ hn := by cases hn
  name_length _ hn := by cases hn
  name_plain _ hn := by cases hn
  value := h

theorem isReadable_named {v : Literal} (hne : trim name ≠ [])
    (hname : ∀ c ∈ name, endsName c = false) (h : v.IsReadable) :
    (named (trim name) v).IsReadable := by
  obtain ⟨c, cs, hcs⟩ := List.exists_cons_of_ne_nil hne
  have hbounded : bounded (trim name) = c :: cs.take 30 := by rw [hcs]; rfl
  refine ⟨?_, ?_, ?_, ?_, h⟩
  all_goals
    rintro _ ⟨⟩
    rw [String.toList_ofList]
  · rw [hbounded]
    exact List.cons_ne_nil _ _
  · rw [hbounded]
    intro d hd
    exact (isTrimmed_trim name).head d (by rw [hcs]; exact hd)
  · exact length_bounded_le _
  · exact fun d hd => hname d (mem_of_mem_trim (List.mem_of_mem_take hd))

/-- Whatever is read is readable. -/
theorem isReadable_ofChars (cs : List Char) : (ofChars cs).IsReadable := by
  rcases ofChars_cases cs with ⟨name, value, -, hname, hne, he⟩ | he
  · rw [he]
    exact isReadable_named hne hname (Literal.isReadable_ofChars value)
  · rw [he]
    exact isReadable_positional (Literal.isReadable_ofChars cs)

/-! ## Reading back -/

variable {text : String} {v : Literal}

/-- The text of a value does not look like a name and a value. -/
theorem chars_ne_named (h : v.IsReadable) (hname : ∀ c ∈ name, endsName c = false) :
    v.chars ≠ name ++ '=' :: value := by
  intro he
  have hmem : '=' ∈ v.chars := by simp [he]
  cases v with
  | absent => cases h
  | int v => exact not_mem_intText rfl (by decide) hmem
  | float v => exact ne_of_isNumeralChar (isNumeralChar_pointedText h _ hmem) rfl rfl
  | bool b => exact (Literal.isWord_boolText b).not_mem rfl hmem
  | string s => exact isQuote_cons_ne_named (Literal.isQuote_quoteMark s.toList) hname he

theorem ofChars_chars_positional (h : v.IsReadable) :
    ofChars (positional v).chars = positional v := by
  rw [ofChars_positional]
  · exact congrArg _ (Literal.ofChars_chars h)
  · intro name value he hname
    rw [positional, chars, (Literal.isTrimmed_chars h).trim_eq] at he
    exact absurd he (chars_ne_named h hname)

theorem isTrimmed_chars_named (h : IsReadable ⟨some text, v⟩) :
    IsTrimmed (chars ⟨some text, v⟩) where
  head c hc := by
    obtain ⟨d, ds, hds⟩ := List.exists_cons_of_ne_nil (h.name_ne_nil text rfl)
    refine h.name_head text rfl c ?_
    simpa [chars, hds] using hc
  last c hc := by
    refine (Literal.isTrimmed_chars h.value).last c ?_
    obtain ⟨d, ds, hds⟩ := List.exists_cons_of_ne_nil (Literal.chars_ne_nil h.value)
    simpa [chars, hds] using hc

theorem isTrimmed_chars (h : a.IsReadable) : IsTrimmed a.chars ∧ a.chars ≠ [] := by
  obtain ⟨name, v⟩ := a
  cases name with
  | none => exact ⟨Literal.isTrimmed_chars h.value, Literal.chars_ne_nil h.value⟩
  | some text => exact ⟨isTrimmed_chars_named h, by simp [chars]⟩

/-- Reading the text of an argument takes the blanks off its name. -/
theorem ofChars_chars_named (h : IsReadable ⟨some text, v⟩) :
    ofChars (chars ⟨some text, v⟩) = named (trim text.toList) v := by
  have hne : trim text.toList ≠ [] := by
    intro he
    obtain ⟨c, cs, hcs⟩ := List.exists_cons_of_ne_nil (h.name_ne_nil text rfl)
    have hhead := h.name_head text rfl c (by rw [hcs]; rfl)
    rw [trim_eq_nil_iff.mp he c (hcs ▸ List.mem_cons_self)] at hhead
    cases hhead
  rw [ofChars_named (isTrimmed_chars_named h).trim_eq (h.name_plain text rfl) hne,
    Literal.ofChars_chars h.value]

/-- A readable argument is read back from its text if and only if no blanks stand around its
name. -/
theorem ofChars_chars_iff (h : a.IsReadable) :
    ofChars a.chars = a ↔ ∀ name ∈ a.name, IsTrimmed name.toList := by
  obtain ⟨name, v⟩ := a
  cases name with
  | none =>
    refine ⟨fun _ => ?_, fun _ => ofChars_chars_positional h.value⟩
    rintro _ ⟨⟩
  | some text =>
    have hlength := h.name_length text rfl
    rw [ofChars_chars_named h, named]
    constructor
    · rintro he _ ⟨⟩
      have hcut := congrArg String.toList (Option.some.inj (Argument.mk.inj he).1)
      rw [String.toList_ofList] at hcut
      have hfit : (trim text.toList).length ≤ maxTextLength :=
        (trim_sublist _).length_le.trans hlength
      rw [bounded_eq_self_iff.mpr hfit] at hcut
      exact trim_eq_self_iff.mp hcut
    · intro hname
      rw [(hname text rfl).trim_eq, bounded_eq_self_iff.mpr hlength, String.ofList_toList]

/-! ## Commas -/

@[simp] theorem ofChars_space (cs : List Char) : ofChars (' ' :: cs) = ofChars cs := by
  rw [← ofChars_trim, trim_space, ofChars_trim]

/-- Reading an argument adds no commas to its text. -/
theorem count_comma_ofChars (cs : List Char) : (ofChars cs).chars.count ',' ≤ cs.count ',' := by
  rcases ofChars_cases cs with ⟨name, value, htrim, -, -, he⟩ | he
  · have hname : (bounded (trim name)).count ',' ≤ name.count ',' :=
      ((List.take_sublist _ _).trans (trim_sublist name)).count_le _
    have hvalue := Literal.count_comma_ofChars value
    have hcs := (trim_sublist cs).count_le ','
    rw [htrim, List.count_append] at hcs
    rw [he, named, chars]
    simp only [String.toList_ofList, List.count_append, List.count_cons] at hcs ⊢
    omega
  · rw [he]
    exact Literal.count_comma_ofChars cs

end Argument

end BenchConsole
