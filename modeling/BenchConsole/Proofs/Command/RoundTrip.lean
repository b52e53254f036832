import BenchConsole.Proofs.Command.Grammar
import BenchConsole.Proofs.Text.Rejoining

/-!
# Canonical texts read back

When is a command read back from its canonical text? `parse_render_iff` takes the question to the
pieces between the parentheses: the pieces that are found in the joined text have to read as the
keyword and the arguments.

* A command put together from well-formed parts is read back (`parse_render`).
* A command that was read is read back if and only if it is `Legible`: no name of an argument ends
  in a blank, and the texts of the arguments keep apart (`parse_render_iff_legible`). Both can fail,
  for names are cut to their bound and a value may hold both quotation marks.
-/

namespace BenchConsole

open Text

/-- A text without commas, in which nothing ends the search for a name. -/
def Argument.IsPlain (cs : List Char) : Prop := ∀ c ∈ cs, endsName c = false ∧ c ≠ ','

instance : DecidablePred Argument.IsPlain :=
  fun cs => List.decidableBAll (fun c => Argument.endsName c = false ∧ c ≠ ',') cs

/-- An argument that stays one argument wherever it is written. -/
structure Argument.WellFormed (a : Argument) : Prop where
  name_ne_nil : ∀ name ∈ a.name, name.toList ≠ []
  name_trimmed : ∀ name ∈ a.name, IsTrimmed name.toList
  name_length : ∀ name ∈ a.name, name.toList.length ≤ maxTextLength
  name_plain : ∀ name ∈ a.name, IsPlain name.toList
  value : a.value.IsReadable
  oneMark : a.value.OneMark

instance (a : Argument) : Decidable a.WellFormed :=
  decidable_of_iff
    ((∀ name ∈ a.name, name.toList ≠ [] ∧ IsTrimmed name.toList ∧
      name.toList.length ≤ maxTextLength ∧ Argument.IsPlain name.toList) ∧
      a.value.IsReadable ∧ a.value.OneMark)
    ⟨fun ⟨hname, hvalue, hmark⟩ => ⟨fun n hn => (hname n hn).1, fun n hn => (hname n hn).2.1,
      fun n hn => (hname n hn).2.2.1, fun n hn => (hname n hn).2.2.2, hvalue, hmark⟩,
    fun h => ⟨fun n hn => ⟨h.name_ne_nil n hn, h.name_trimmed n hn, h.name_length n hn,
      h.name_plain n hn⟩, h.value, h.oneMark⟩⟩

namespace Command

/-- The most arguments of a command; a keyword takes the place of one. -/
def maxArguments : Form → Nat
  | .keyword => 7
  | .verb => 8

/-- A command put together from parts that fit. -/
structure WellFormed (c : Command) : Prop where
  entry : ∃ entry ∈ FunctionTable.entries, sameName entry.function c.function ∧
    entry.category = c.category ∧ entry.form = c.form
  keyword : c.form = .keyword →
    ∃ keyword, (keyword, c.action) ∈ c.category.keywords ∧ sameName keyword c.actionText
  verb : c.form = .verb → FunctionTable.verbOf? c.function = some c.actionText ∧
    FunctionTable.impliedAction c.function c.category = some c.action
  length : c.arguments.length ≤ maxArguments c.form
  arguments : ∀ a ∈ c.arguments, a.WellFormed

/-- A command whose canonical text shows where its arguments begin and end. -/
structure Legible (c : Command) : Prop where
  names : ∀ a ∈ c.arguments, ∀ name ∈ a.name, IsTrimmed name.toList
  apart : KeepApart (c.arguments.map Argument.chars)

end Command

namespace Grammar

variable {c : Command} {pieces : List (List Char)}

/-! ## The canonical text -/

theorem Settled.isTableName (h : Settled c) : IsTableName c.function := by
  obtain ⟨entry, he, hs, -, -⟩ := h.entry
  exact FunctionTable.isTableName_of_sameName he hs

theorem Settled.isCall (h : Settled c) :
    IsCall (trim c.chars) c.function.toList (joinPieces c.pieces) := by
  have hcall := @isCall_of_isWord _ (joinPieces c.pieces) h.isTableName.word h.isTableName.ne_nil
  simpa [Command.chars] using hcall

/-- A command is read back if the pieces found in its canonical text are read as its own. -/
theorem Settled.parse_render_iff (h : Settled c) : Command.parse c.render = .ok c ↔
    ∃ pieces, HasPieces (joinPieces c.pieces) pieces ∧ Admissible pieces ∧ FromPieces c pieces := by
  rw [Command.parse_eq_ok_iff, Command.render, String.toList_ofList, verdict_ok_iff]
  have hname : String.ofList (trim c.function.toList) = c.function := by
    rw [h.isTableName.word.isTrimmed.trim_eq, String.ofList_toList]
  constructor
  · rintro ⟨-, name, body, pieces, hcall, -, hpieces⟩
    obtain ⟨-, rfl⟩ := hcall.unique h.isCall
    exact ⟨pieces, hpieces⟩
  · rintro ⟨pieces, hpieces⟩
    exact ⟨h, _, _, pieces, h.isCall, hname, hpieces⟩

/-! ## Reading pieces that keep apart -/

/-- Trimmed pieces that keep apart are the pieces of their joined text. -/
theorem hasPieces_joinPieces (hkeep : KeepApart pieces)
    (htrim : ∀ piece ∈ pieces, IsTrimmed piece ∧ piece ≠ []) :
    HasPieces (joinPieces pieces) pieces := by
  cases pieces with
  | nil => exact .blank (by decide)
  | cons piece rest =>
    have hblank : ¬IsBlankText (joinPieces (piece :: rest)) := by
      obtain ⟨ht, hne⟩ := htrim piece List.mem_cons_self
      obtain ⟨d, ds, rfl⟩ := List.exists_cons_of_ne_nil hne
      intro hb
      have hd := hb d (by cases rest <;> simp [joinPieces])
      rw [ht.head d rfl] at hd
      cases hd
    have hcut := HasPieces.cut hblank (cut_cutAtCommas _)
    rw [map_trim_cutAtCommas_joinPieces hkeep (List.cons_ne_nil _ _)] at hcut
    have hself : (piece :: rest).map trim = piece :: rest := by
      conv => rhs; rw [← List.map_id (piece :: rest)]
      exact List.map_congr_left fun p hp => (htrim p hp).1.trim_eq
    rwa [hself] at hcut

theorem fromPieces_pieces (hread : ∀ a ∈ c.arguments, Argument.ofChars a.chars = a) :
    FromPieces c c.pieces := by
  have hmap : (c.arguments.map Argument.chars).map Argument.ofChars = c.arguments := by
    rw [List.map_map]
    conv => rhs; rw [← List.map_id c.arguments]
    exact List.map_congr_left hread
  obtain ⟨function, category, action, actionText, form, arguments⟩ := c
  cases form with
  | keyword => exact ⟨_, rfl, hmap⟩
  | verb => exact hmap

theorem mem_pieces {piece : List Char} (h : piece ∈ c.pieces) :
    c.form = .keyword ∧ piece = c.actionText.toList ∨ ∃ a ∈ c.arguments, a.chars = piece := by
  obtain ⟨function, category, action, actionText, form, arguments⟩ := c
  cases form with
  | keyword =>
    rcases List.mem_cons.mp h with he | h
    · exact .inl ⟨rfl, he⟩
    · exact .inr (List.mem_map.mp h)
  | verb => exact .inr (List.mem_map.mp h)

/-- A command is read back if its pieces keep apart and its parts are read back. -/
theorem Settled.parse_render_of_keepApart (h : Settled c)
    (hlength : c.pieces.length ≤ Command.maxPieces)
    (hkeyword : c.form = .keyword → IsTrimmed c.actionText.toList)
    (hreadable : ∀ a ∈ c.arguments, a.IsReadable)
    (hnames : ∀ a ∈ c.arguments, ∀ name ∈ a.name, IsTrimmed name.toList)
    (hkeep : KeepApart c.pieces) : Command.parse c.render = .ok c := by
  have htrim : ∀ piece ∈ c.pieces, IsTrimmed piece ∧ piece ≠ [] := by
    intro piece hp
    rcases mem_pieces hp with ⟨hform, rfl⟩ | ⟨a, ha, rfl⟩
    · refine ⟨hkeyword hform, fun hnil => ?_⟩
      exact not_selects_nil (hnil ▸ h.keyword hform)
    · exact Argument.isTrimmed_chars (hreadable a ha)
  refine h.parse_render_iff.mpr ⟨c.pieces, hasPieces_joinPieces hkeep htrim, ⟨hlength, ?_⟩, ?_⟩
  · exact fun hnil => (htrim [] hnil).2 rfl
  · exact fromPieces_pieces fun a ha =>
      (Argument.ofChars_chars_iff (hreadable a ha)).mpr (hnames a ha)

end Grammar

namespace Argument

variable {a : Argument}

theorem WellFormed.isReadable (h : a.WellFormed) : a.IsReadable where
  name_ne_nil := h.name_ne_nil
  name_head name hn := (h.name_trimmed name hn).head
  name_length := h.name_length
  name_plain name hn c hc := (h.name_plain name hn c hc).1
  value := h.value

theorem WellFormed.whole_chars (h : a.WellFormed) : Whole a.chars := by
  obtain ⟨name, v⟩ := a
  have hvalue := Literal.whole_chars h.value h.oneMark
  cases name with
  | none => exact hvalue
  | some text =>
    have hname : Whole text.toList := whole_of_forall fun c hc => by
      obtain ⟨hends, hcomma⟩ := h.name_plain text rfl c hc
      exact ⟨isQuote_eq_false_of_endsName hends, hcomma⟩
    exact hname.append (.char rfl (by decide) hvalue)

end Argument

namespace Command

variable {c : Command}

/-! ## Well-formed commands -/

theorem WellFormed.isWord_actionText (h : c.WellFormed) (hform : c.form = .keyword) :
    IsWord c.actionText.toList := by
  obtain ⟨keyword, hmem, hsame⟩ := h.keyword hform
  exact (Category.isTableName_of_sameName hmem hsame).word

theorem WellFormed.settled (h : c.WellFormed) : Grammar.Settled c where
  entry := h.entry
  keyword hform := by
    obtain ⟨keyword, hmem, hsame⟩ := h.keyword hform
    exact Grammar.selects_of_sameName hmem hsame
  verb hform := by
    obtain ⟨hverb, himplied⟩ := h.verb hform
    rw [FunctionTable.impliedAction, hverb, Option.bind_some, Category.lookup_eq_some_iff]
      at himplied
    exact ⟨FunctionTable.verbOf?_eq_some_iff.mp hverb, himplied⟩

theorem length_pieces_le_iff (c : Command) :
    c.pieces.length ≤ maxPieces ↔ c.arguments.length ≤ maxArguments c.form := by
  obtain ⟨function, category, action, actionText, form, arguments⟩ := c
  cases form with
  | keyword =>
    simp only [pieces, maxPieces, maxArguments, List.length_cons, List.length_map]
    omega
  | verb => simp only [pieces, maxPieces, maxArguments, List.length_map]

theorem WellFormed.length_pieces_le (h : c.WellFormed) : c.pieces.length ≤ maxPieces :=
  c.length_pieces_le_iff.mpr h.length

/-- A well-formed command is read back from its canonical text. -/
theorem parse_render (h : c.WellFormed) : Command.parse c.render = .ok c := by
  refine h.settled.parse_render_of_keepApart h.length_pieces_le
    (fun hform => (h.isWord_actionText hform).isTrimmed)
    (fun a ha => (h.arguments a ha).isReadable) (fun a ha => (h.arguments a ha).name_trimmed)
    (keepApart_of_whole fun piece hp => ?_)
  rcases Grammar.mem_pieces hp with ⟨hform, rfl⟩ | ⟨a, ha, rfl⟩
  · exact (h.isWord_actionText hform).whole
  · exact (h.arguments a ha).whole_chars

/-- All kinds of arguments that need no rounding, a comma and a mark inside a text among them. -/
theorem parse_render_print :
    let c : Command := ⟨"Oled", .oled, .print, "PRINT", .keyword,
      [⟨none, .string "it's 3, not (4)"⟩, ⟨some "line no", .int (-2)⟩, ⟨some "x", .bool true⟩]⟩
    c.WellFormed ∧ Command.parse c.render = .ok c := by
  intro c
  have h : c.WellFormed :=
    { entry := ⟨⟨"oled", .oled, .keyword⟩, by decide +kernel, by decide +kernel, rfl, rfl⟩
      keyword := fun _ => ⟨"print", by decide, by decide +kernel⟩
      verb := fun h => by cases h
      length := by decide
      arguments := by decide +kernel }
  exact ⟨h, parse_render h⟩

end Command

/-! ## Legible commands -/

namespace Grammar

variable {c : Command} {body : List Char} {pieces : List (List Char)}

theorem HasPieces.keepApart (h : HasPieces body pieces) : KeepApart pieces := by
  cases h with
  | blank => trivial
  | cut _ hcut => exact hcut.keepApart_map_trim

theorem HasPieces.isTrimmed (h : HasPieces body pieces) : ∀ piece ∈ pieces, IsTrimmed piece := by
  cases h with
  | blank => simp
  | cut _ hcut =>
    intro piece hp
    obtain ⟨part, -, rfl⟩ := List.mem_map.mp hp
    exact isTrimmed_trim part

theorem HasPieces.map_ofChars (h : HasPieces body pieces) (hne : pieces ≠ []) :
    (cutAtCommas body).map Argument.ofChars = pieces.map Argument.ofChars := by
  cases h with
  | blank => exact absurd rfl hne
  | cut _ hcut =>
    rw [cut_iff.mp hcut, Argument.map_ofChars_trim]

/-- Every argument is read from one of the pieces. -/
theorem FromPieces.exists_piece (h : FromPieces c pieces) :
    ∀ a ∈ c.arguments, ∃ piece ∈ pieces, Argument.ofChars piece = a := by
  intro a ha
  obtain ⟨function, category, action, actionText, form, arguments⟩ := c
  cases form with
  | keyword =>
    obtain ⟨rest, rfl, he⟩ := h
    obtain ⟨piece, hpiece, hread⟩ := List.mem_map.mp (he ▸ ha)
    exact ⟨piece, List.mem_cons_of_mem _ hpiece, hread⟩
  | verb => exact List.mem_map.mp (h ▸ ha)

theorem FromPieces.isReadable (h : FromPieces c pieces) : ∀ a ∈ c.arguments, a.IsReadable := by
  intro a ha
  obtain ⟨piece, -, rfl⟩ := h.exists_piece a ha
  exact Argument.isReadable_ofChars piece

theorem FromPieces.length_eq (h : FromPieces c pieces) : c.pieces.length = pieces.length := by
  obtain ⟨function, category, action, actionText, form, arguments⟩ := c
  cases form with
  | keyword =>
    obtain ⟨rest, rfl, he⟩ := h
    obtain rfl : _ = arguments := he
    simp [Command.pieces]
  | verb =>
    obtain rfl := h
    simp [Command.pieces]

theorem FromPieces.isTrimmed_actionText (h : FromPieces c pieces) (hpieces : HasPieces body pieces)
    (hform : c.form = .keyword) : IsTrimmed c.actionText.toList := by
  obtain ⟨function, category, action, actionText, form, arguments⟩ := c
  obtain rfl : form = .keyword := hform
  obtain ⟨rest, rfl, -⟩ := h
  exact hpieces.isTrimmed _ List.mem_cons_self

/-- The keyword keeps apart from whatever arguments keep apart themselves. -/
theorem FromPieces.keepApart (h : FromPieces c pieces) (hpieces : HasPieces body pieces)
    (hapart : KeepApart (c.arguments.map Argument.chars)) : KeepApart c.pieces := by
  have hkeep := hpieces.keepApart
  obtain ⟨function, category, action, actionText, form, arguments⟩ := c
  cases form with
  | keyword =>
    obtain ⟨rest, rfl, he⟩ := h
    obtain rfl : _ = arguments := he
    cases rest with
    | nil => exact hkeep
    | cons piece rest => exact ⟨hkeep.1, hapart⟩
  | verb => exact hapart

/-- If a command comes back, its arguments do so without the keyword too. -/
theorem FromPieces.map_ofChars (h : FromPieces c pieces) (hpieces : HasPieces body pieces)
    {others : List (List Char)} (hothers : HasPieces (joinPieces c.pieces) others)
    (hfrom : FromPieces c others) (hne : c.arguments ≠ []) :
    (cutAtCommas (joinPieces (c.arguments.map Argument.chars))).map Argument.ofChars =
      c.arguments := by
  have hkeep := hpieces.keepApart
  obtain ⟨function, category, action, actionText, form, arguments⟩ := c
  cases form with
  | keyword =>
    obtain ⟨rest, rfl, he⟩ := h
    obtain rfl : _ = arguments := he
    obtain ⟨rest', rfl, he'⟩ := hfrom
    have hmap := hothers.map_ofChars (List.cons_ne_nil _ _)
    cases rest with
    | nil => exact absurd rfl hne
    | cons piece rest =>
      obtain ⟨huncut, hq⟩ := hkeep.1.uncut
      rw [Command.pieces, List.map_cons, List.map_cons, joinPieces_cons_cons, cutAtCommas,
        cutAtCommasFrom_append_comma huncut hq, ← cutAtCommas, List.map_cons, List.map_cons,
        map_cutAtCommas_space Argument.ofChars_space] at hmap
      exact (List.cons.inj hmap).2.trans he'
  | verb =>
    have hothers_ne : others ≠ [] := by
      rintro rfl
      exact hne hfrom.symm
    exact (hothers.map_ofChars hothers_ne).trans hfrom

end Grammar

namespace Command

variable {c : Command}

theorem legible_of_arguments_eq_nil (h : c.arguments = []) : c.Legible where
  names a ha := by simp [h] at ha
  apart := by
    rw [h]
    trivial

/-- A command that was read is read back from its canonical text if and only if it is legible. -/
theorem parse_render_iff_legible {text : String} (h : Command.parse text = .ok c) :
    Command.parse c.render = .ok c ↔ c.Legible := by
  rw [parse_eq_ok_iff, Grammar.verdict_ok_iff] at h
  obtain ⟨hsettled, name, body, pieces, -, -, hpieces, hadm, hfrom⟩ := h
  have hreadable := hfrom.isReadable
  constructor
  · rw [hsettled.parse_render_iff]
    rintro ⟨others, hothers, -, hfrom'⟩
    by_cases hne : c.arguments = []
    · exact legible_of_arguments_eq_nil hne
    have hread := hfrom.map_ofChars hpieces hothers hfrom' hne
    have hapart :=
      keepApart_of_map_read_eq Argument.count_comma_ofChars Argument.ofChars_space hread
    have hcut := map_trim_cutAtCommas_joinPieces hapart (by simpa using hne)
    have hself : c.arguments.map (Argument.ofChars ∘ Argument.chars) = c.arguments.map id := by
      rw [← List.map_map, ← Argument.map_ofChars_trim, ← hcut, Argument.map_ofChars_trim, hread,
        List.map_id]
    exact ⟨fun a ha => (Argument.ofChars_chars_iff (hreadable a ha)).mp
      (List.map_inj_left.mp hself a ha), hapart⟩
  · rintro ⟨hnames, hapart⟩
    exact hsettled.parse_render_of_keepApart (hfrom.length_eq ▸ hadm.1)
      (hfrom.isTrimmed_actionText hpieces) hreadable hnames (hfrom.keepApart hpieces hapart)

/-- The command of the text `oled(print, "',"")`: its value is `',"`. -/
def printMarks : Command :=
  ⟨"oled", .oled, .print, "print", .keyword, [⟨none, .string "',\""⟩]⟩

theorem parse_render_iff_legible_printMarks :
    Command.parse "oled(print, \"',\"\")" = .ok printMarks ∧
      (Command.parse printMarks.render = .ok printMarks ↔ printMarks.Legible) := by
  have h : Command.parse "oled(print, \"',\"\")" = .ok printMarks := by rfl
  exact ⟨h, parse_render_iff_legible h⟩

/-- Its canonical text is `oled(print, '',"')`, which has two arguments. -/
theorem not_forall_parse_render :
    ¬∀ text c, Command.parse text = .ok c → Command.parse c.render = .ok c := by
  intro h
  have hread : Command.parse "oled(print, \"',\"\")" = .ok printMarks := by rfl
  have hagain : Command.parse printMarks.render =
      .ok ⟨"oled", .oled, .print, "print", .keyword, [⟨none, .string ""⟩, ⟨none, .string ""⟩]⟩ := by
    rfl
  have hsame := hagain.symm.trans (h _ _ hread)
  simp [printMarks] at hsame

end Command

end BenchConsole
