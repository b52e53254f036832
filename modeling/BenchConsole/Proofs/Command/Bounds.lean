import BenchConsole.Proofs.Command.RoundTrip

/-!
# Bounds of commands

Whatever text a command is read from, its parts keep within their bounds
(`withinBounds_of_parse`). The bounds on a single argument hold of everything that reading gives
(`Argument.isReadable_ofChars`), but for one: the text that a name is read from may hold commas. A
piece of a command has none before its first quotation mark, where a name ends at the latest
(`Argument.isPlain_name_ofChars`).
-/

namespace BenchConsole

open Text

variable {cs : List Char}

/-! ## Pieces -/

namespace Text

theorem KeepApart.lastPiece {pieces : List (List Char)} (h : KeepApart pieces) :
    ∀ piece ∈ pieces, LastPiece piece := by
  induction pieces with
  | nil => nofun
  | cons piece pieces ih =>
    cases pieces with
    | nil => exact List.forall_mem_singleton.mpr h
    | cons next pieces => exact List.forall_mem_cons.mpr ⟨.whole h.1, ih h.2⟩

/-- Where no quotation begins, a comma would cut the text. -/
theorem comma_not_mem_of_uncut (h : Uncut none cs) (hplain : ∀ c ∈ cs, isQuote c = false) :
    ',' ∉ cs := by
  induction cs with
  | nil => exact List.not_mem_nil
  | cons c cs ih =>
    obtain ⟨hc, hcs⟩ := List.forall_mem_cons.mp hplain
    rw [uncut_cons, nextQuote_of_not_isQuote hc] at h
    rw [List.mem_cons, not_or]
    exact ⟨fun he => h.1 ⟨rfl, he.symm⟩, ih h.2 hcs⟩

end Text

/-! ## Arguments -/

namespace Argument

/-- An argument whose name and value keep within their bounds. -/
structure WithinBounds (a : Argument) : Prop where
  name_ne_nil : ∀ name ∈ a.name, name.toList ≠ []
  name_length : ∀ name ∈ a.name, name.toList.length ≤ maxTextLength
  name_plain : ∀ name ∈ a.name, IsPlain name.toList
  value : a.value.IsReadable

theorem isPlain_name_ofChars (h : LastPiece (trim cs)) :
    ∀ name ∈ (ofChars cs).name, IsPlain name.toList := by
  rcases ofChars_cases cs with ⟨name, value, hcs, hname, -, he⟩ | he
  · rw [he]
    rintro _ ⟨⟩ c hc
    rw [String.toList_ofList] at hc
    have hmem : c ∈ name := mem_of_mem_trim (List.mem_of_mem_take hc)
    have hquote : ∀ d ∈ name, isQuote d = false :=
      fun d hd => isQuote_eq_false_of_endsName (hname d hd)
    rw [hcs, lastPiece_iff, uncut_append] at h
    have hcomma : ',' ∉ name := comma_not_mem_of_uncut h.1 hquote
    exact ⟨hname c hmem, fun hc => hcomma (hc ▸ hmem)⟩
  · rw [he]
    nofun

theorem withinBounds_ofChars (h : LastPiece (trim cs)) : (ofChars cs).WithinBounds where
  name_ne_nil := (isReadable_ofChars cs).name_ne_nil
  name_length := (isReadable_ofChars cs).name_length
  name_plain := isPlain_name_ofChars h
  value := (isReadable_ofChars cs).value

end Argument

/-! ## Commands -/

theorem Grammar.Settled.exists_keyword {c : Command} (h : Settled c) :
    ∃ keyword, (keyword, c.action) ∈ c.category.keywords := by
  cases hform : c.form with
  | keyword =>
    obtain ⟨word, -, keyword, hmem, -⟩ := h.keyword hform
    exact ⟨keyword, hmem⟩
  | verb =>
    obtain ⟨-, keyword, hmem, -⟩ := h.verb hform
    exact ⟨keyword, hmem⟩

namespace Command

/-- A command that calls a function of the table for an action of its category, with no more
arguments than there may be, all of them within their bounds. -/
structure WithinBounds (c : Command) : Prop where
  entry : ∃ entry ∈ FunctionTable.entries, sameName entry.function c.function ∧
    entry.category = c.category ∧ entry.form = c.form
  keyword : ∃ keyword, (keyword, c.action) ∈ c.category.keywords
  length : c.arguments.length ≤ maxArguments c.form
  arguments : ∀ a ∈ c.arguments, a.WithinBounds

/-- Every command that is read keeps within its bounds. -/
theorem withinBounds_of_parse {text : String} {c : Command} (h : Command.parse text = .ok c) :
    c.WithinBounds := by
  rw [parse_eq_ok_iff, Grammar.verdict_ok_iff] at h
  obtain ⟨hsettled, name, body, pieces, -, -, hpieces, hadm, hfrom⟩ := h
  refine ⟨hsettled.entry, hsettled.exists_keyword, ?_, ?_⟩
  · rw [← length_pieces_le_iff, hfrom.length_eq]
    exact hadm.1
  · intro a ha
    obtain ⟨piece, hpiece, rfl⟩ := hfrom.exists_piece a ha
    have hlast : LastPiece (trim piece) := (hpieces.keepApart.lastPiece piece hpiece).trim
    exact Argument.withinBounds_ofChars hlast

/-- As many arguments as there may be, with a name that is cut and a text of the characters that a
name may not hold. -/
theorem withinBounds_of_parse_crowdedCall :
    let text :=
      "OLED ('Print',' =,\"( ',a_name_that_is_longer_than_any_one = -3,=x,y z=True,\"(w=,\",2.5,v)"
    let c : Command := ⟨"OLED", .oled, .print, "'Print'", .keyword,
      [⟨none, .string " =,\"( "⟩, ⟨some "a_name_that_is_longer_than_any_", .int (-3)⟩,
        ⟨none, .string "=x"⟩, ⟨some "y z", .bool true⟩, ⟨none, .string "(w=,"⟩,
        ⟨none, .float 2.5⟩, ⟨none, .string "v"⟩]⟩
    Command.parse text = .ok c ∧ c.WithinBounds := by
  intro text c
  have h : Command.parse text = .ok c := by decide +kernel
  exact ⟨h, withinBounds_of_parse h⟩

end Command

end BenchConsole
