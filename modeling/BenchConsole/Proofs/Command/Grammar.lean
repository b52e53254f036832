import BenchConsole.Command.Reader
import BenchConsole.Proofs.Argument
import BenchConsole.Proofs.FunctionTable

/-!
# The grammar of commands

`Verdict text result` says what becomes of a command text without blanks around it, in the terms
of a user of the console: one rule for each kind of rejection and one for each form of function
that is accepted. Its premises are about the text itself: `IsCall` about the parentheses,
`HasPieces` about the commas, `Selects` about the keyword.

Every text has exactly one verdict, and it is the reader's (`verdict_iff`).
-/

namespace BenchConsole

open Text

namespace Grammar

/-- A text that is a name and a body between parentheses. -/
structure IsCall (text name body : List Char) : Prop where
  eq : text = name ++ '(' :: (body ++ [')'])
  no_open : '(' ∉ name
  not_blank : ¬IsBlankText name

/-- The pieces of a body are its parts between the commas outside quotations, without the blanks
around them. A blank body has none. -/
inductive HasPieces : List Char → List (List Char) → Prop
  | blank : IsBlankText body → HasPieces body []
  | cut : ¬IsBlankText body → Cut body parts → HasPieces body (parts.map trim)

/-- A piece selects an action of a category: it has no name and is a text, which agrees up to case
with a keyword for the action. -/
def Selects (category : Category) (piece : List Char) (action : Action) : Prop :=
  ∃ word, Argument.ofChars piece = .positional (.string word) ∧
    ∃ keyword, (keyword, action) ∈ category.keywords ∧ sameName keyword word

/-- There may be pieces, but neither too many nor blank ones. -/
def Admissible (pieces : List (List Char)) : Prop :=
  pieces.length ≤ Command.maxPieces ∧ [] ∉ pieces

/-- What becomes of a command text. -/
inductive Verdict : List Char → Except FailureKind Command → Prop
  | notCall :
    (∀ name body, ¬IsCall text name body) →
    Verdict text (.error .invalidCommand)
  | unknownFunction :
    IsCall text name body →
    (∀ entry ∈ FunctionTable.entries, ¬sameName entry.function (String.ofList (trim name))) →
    Verdict text (.error .invalidFunction)
  | badPieces :
    IsCall text name body →
    entry ∈ FunctionTable.entries → sameName entry.function (String.ofList (trim name)) →
    HasPieces body pieces → ¬Admissible pieces →
    Verdict text (.error .invalidParameterType)
  | badAction :
    IsCall text name body →
    entry ∈ FunctionTable.entries → sameName entry.function (String.ofList (trim name)) →
    HasPieces body pieces → Admissible pieces →
    entry.form = .keyword →
    (∀ piece ∈ pieces.head?, ∀ action, ¬Selects entry.category piece action) →
    Verdict text (.error .invalidSubaction)
  | keyword :
    IsCall text name body →
    entry ∈ FunctionTable.entries → sameName entry.function (String.ofList (trim name)) →
    HasPieces body (piece :: pieces) → Admissible (piece :: pieces) →
    entry.form = .keyword → Selects entry.category piece action →
    Verdict text (.ok
      { function := String.ofList (trim name)
        category := entry.category
        action
        actionText := String.ofList piece
        form := .keyword
        arguments := pieces.map Argument.ofChars })
  | verb :
    IsCall text name body →
    entry ∈ FunctionTable.entries → sameName entry.function (String.ofList (trim name)) →
    HasPieces body pieces → Admissible pieces →
    entry.form = .verb → FunctionTable.IsLeadingVerb verb (String.ofList (trim name)) →
    (keyword, action) ∈ entry.category.keywords → sameName keyword verb →
    Verdict text (.ok
      { function := String.ofList (trim name)
        category := entry.category
        action
        actionText := verb
        form := .verb
        arguments := pieces.map Argument.ofChars })

variable {text name body piece cs before after : List Char} {pieces : List (List Char)}
  {category : Category} {action : Action} {result : Except FailureKind Command}
  {entry : FunctionEntry}

/-! ## Parentheses -/

theorem splitLast?_eq_some_iff {mark : Char} :
    Command.splitLast? mark cs = some (before, after) ↔
      cs = before ++ mark :: after ∧ mark ∉ after := by
  constructor
  · intro h
    unfold Command.splitLast? at h
    split at h
    · cases h
    · next seen c rest hspan =>
      obtain ⟨rfl, he, hm⟩ := span_ne_eq_cons_iff.mp hspan
      obtain ⟨rfl, rfl⟩ := Prod.mk.inj (Option.some.inj h)
      refine ⟨?_, by simpa using hm⟩
      rw [← List.reverse_reverse cs, he]
      simp
  · rintro ⟨rfl, hm⟩
    have hspan : (before ++ mark :: after).reverse.span (· != mark) =
        (after.reverse, mark :: before.reverse) :=
      span_ne_eq_cons_iff.mpr ⟨rfl, by simp, by simpa using hm⟩
    simp only [Command.splitLast?, hspan, List.reverse_reverse]

/-- In a text without blanks around it nothing stands behind the parenthesis that has only blanks
behind it. -/
theorem eq_nil_of_blank (ht : IsTrimmed (before ++ ')' :: after)) (ha : IsBlankText after) :
    after = [] := by
  rcases List.eq_nil_or_concat' after with rfl | ⟨init, c, rfl⟩
  · rfl
  · have hconcat : before ++ ')' :: (init ++ [c]) = (before ++ ')' :: init) ++ [c] := by simp
    have hlast := ht.last c (by rw [hconcat, List.getLast?_concat, Option.mem_some_iff])
    rw [ha c (by simp)] at hlast
    cases hlast

theorem IsCall.span (h : IsCall text name body) :
    text.span (· != '(') = (name, '(' :: (body ++ [')'])) :=
  span_ne_eq_cons_iff.mpr ⟨rfl, h.eq, h.no_open⟩

/-- A text without blanks around it is split if and only if it is a call. -/
theorem splitCall_eq_ok_iff {function : List Char} (ht : IsTrimmed text) :
    Command.splitCall text = .ok (function, body) ↔
      ∃ name, IsCall text name body ∧ function = bounded (trim name) := by
  constructor
  · intro h
    unfold Command.splitCall at h
    split at h
    · cases h
    next name c rest hspan =>
    obtain ⟨rfl, rfl, hno⟩ := span_ne_eq_cons_iff.mp hspan
    split at h
    · cases h
    next after hsplit =>
    obtain ⟨rfl, -⟩ := splitLast?_eq_some_iff.mp hsplit
    split at h
    · cases h
    next hafter =>
    split at h
    · cases h
    next hname =>
    obtain ⟨rfl, rfl⟩ := Prod.mk.inj (Except.ok.inj h)
    rw [List.isEmpty_iff, trim_eq_nil_iff] at hname
    rw [Bool.not_eq_true, Bool.not_eq_false', List.isEmpty_iff, trim_eq_nil_iff] at hafter
    rw [← List.cons_append, ← List.append_assoc] at ht
    obtain rfl := eq_nil_of_blank ht hafter
    exact ⟨name, ⟨rfl, hno, hname⟩, rfl⟩
  · rintro ⟨name, hcall, rfl⟩
    have hsplit : Command.splitLast? ')' (body ++ [')']) = some (body, []) :=
      splitLast?_eq_some_iff.mpr ⟨rfl, List.not_mem_nil⟩
    have hblank : (trim name).isEmpty = false := by
      rw [List.isEmpty_eq_false_iff, Ne, trim_eq_nil_iff]
      exact hcall.not_blank
    simp only [Command.splitCall, hcall.span, hsplit, hblank, trim_nil]
    rfl

theorem kind_of_splitCall {failure : Failure} (h : Command.splitCall text = .error failure) :
    failure.kind = .invalidCommand := by
  unfold Command.splitCall at h
  repeat' split at h
  all_goals cases h
  all_goals rfl

/-- A text is a call in one way only. -/
theorem IsCall.unique {other rest : List Char} (h : IsCall text name body)
    (ho : IsCall text other rest) : name = other ∧ body = rest := by
  have hspan := Prod.mk.inj (h.span.symm.trans ho.span)
  exact ⟨hspan.1, List.append_cancel_right (List.cons.inj hspan.2).2⟩

/-- A word in front of parentheses makes a call, whatever stands between them. -/
theorem isCall_of_isWord (hword : IsWord name) (hne : name ≠ []) :
    IsCall (trim (name ++ '(' :: (body ++ [')']))) name body := by
  obtain ⟨c, cs, hcs⟩ := List.exists_cons_of_ne_nil hne
  have hc : isBlank c = false :=
    isBlank_eq_false_of_isWordChar (hword c (hcs ▸ List.mem_cons_self))
  have hlast : (name ++ '(' :: (body ++ [')'])).getLast? = some ')' := by
    rw [← List.cons_append, ← List.append_assoc, List.getLast?_concat]
  have htrim := isTrimmed_of_ends hc (rfl : isBlank ')' = false) (by simp [hcs]) hlast
  refine ⟨htrim.trim_eq, hword.not_mem rfl, ?_⟩
  rwa [← trim_eq_nil_iff, hword.isTrimmed.trim_eq]

/-! ## Pieces -/

theorem hasPieces_iff : HasPieces body pieces ↔ Command.bodyPieces body = pieces := by
  have hblank : Command.bodyPieces body =
      if IsBlankText body then [] else (cutAtCommas body).map trim := by
    simp only [Command.bodyPieces, List.isEmpty_iff, trim_eq_nil_iff]
  rw [hblank]
  constructor
  · intro h
    cases h with
    | blank hb => exact if_pos hb
    | cut hb hcut => rw [if_neg hb, cut_iff.mp hcut]
  · intro h
    split at h
    · next hb => exact h ▸ .blank hb
    · next hb => exact h ▸ .cut hb (cut_cutAtCommas body)

theorem hasPieces_bodyPieces (body : List Char) : HasPieces body (Command.bodyPieces body) :=
  hasPieces_iff.mpr rfl

theorem checkedPieces_eq_ok_iff {function : String} :
    Command.checkedPieces function body = .ok pieces ↔
      HasPieces body pieces ∧ Admissible pieces := by
  rw [hasPieces_iff]
  simp only [Command.checkedPieces]
  constructor
  · intro h
    split at h
    · cases h
    next hlen =>
    split at h
    · cases h
    next hfind =>
    obtain rfl := Except.ok.inj h
    refine ⟨rfl, Nat.not_lt.mp hlen, fun hm => ?_⟩
    simpa using List.findIdx?_eq_none_iff.mp hfind [] hm
  · rintro ⟨rfl, hlen, hnil⟩
    have hfind : (Command.bodyPieces body).findIdx? List.isEmpty = none := by
      rw [List.findIdx?_eq_none_iff]
      intro piece hp
      rw [List.isEmpty_eq_false_iff]
      exact fun he => hnil (he ▸ hp)
    rw [if_neg (Nat.not_lt.mpr hlen), hfind]

theorem kind_of_checkedPieces {function : String} {failure : Failure}
    (h : Command.checkedPieces function body = .error failure) :
    failure.kind = .invalidParameterType := by
  simp only [Command.checkedPieces] at h
  repeat' split at h
  all_goals cases h
  all_goals rfl

/-! ## Actions -/

theorem keywordWord?_eq_some_iff {word : String} :
    Command.keywordWord? piece = some word ↔
      Argument.ofChars piece = .positional (.string word) := by
  unfold Command.keywordWord?
  split
  · next w he => simp [he, Argument.positional]
  · next hne =>
    constructor
    · intro h
      cases h
    · exact fun h => absurd h (hne word)

theorem selects_iff :
    Selects category piece action ↔
      (Command.keywordWord? piece).bind category.lookup = some action := by
  simp only [Selects, Option.bind_eq_some_iff, keywordWord?_eq_some_iff,
    Category.lookup_eq_some_iff]

theorem impliedAction_eq_some_iff {function : String} :
    FunctionTable.impliedAction function category = some action ↔
      ∃ verb, FunctionTable.IsLeadingVerb verb function ∧
        ∃ keyword, (keyword, action) ∈ category.keywords ∧ sameName keyword verb := by
  simp only [FunctionTable.impliedAction, Option.bind_eq_some_iff,
    FunctionTable.verbOf?_eq_some_iff, Category.lookup_eq_some_iff]

/-! ## Commands -/

variable {function : String}

theorem ofPieces_keyword (hform : entry.form = .keyword)
    (hs : Selects entry.category piece action) :
    Command.ofPieces function entry (piece :: pieces) = .ok
      { function
        category := entry.category
        action
        actionText := String.ofList piece
        form := .keyword
        arguments := pieces.map Argument.ofChars } := by
  simp only [Command.ofPieces, hform, List.headD_cons, selects_iff.mp hs, List.tail_cons]

theorem ofPieces_verb {verb : String} (hform : entry.form = .verb)
    (hverb : FunctionTable.IsLeadingVerb verb function)
    (haction : ∃ keyword, (keyword, action) ∈ entry.category.keywords ∧ sameName keyword verb) :
    Command.ofPieces function entry pieces = .ok
      { function
        category := entry.category
        action
        actionText := verb
        form := .verb
        arguments := pieces.map Argument.ofChars } := by
  have himplied := impliedAction_eq_some_iff.mpr ⟨verb, hverb, haction⟩
  simp only [Command.ofPieces, hform, himplied, FunctionTable.verbOf?_eq_some_iff.mpr hverb,
    Option.getD_some]

/-- A keyword in any case of its letters selects its action. -/
theorem selects_of_sameName {keyword word : String} (hmem : (keyword, action) ∈ category.keywords)
    (hsame : sameName keyword word) : Selects category word.toList action := by
  have hname := Category.isTableName_of_sameName hmem hsame
  have hbool := Category.keyword_ne_boolText category _ hmem
  have hdiffers {text : String} (ht : sameName keyword text = false) :
      sameWord word.toList text.toList = false := by
    rw [← Bool.not_eq_true] at ht ⊢
    exact fun h => ht (sameWord_trans hsame h)
  have hword := Argument.ofChars_word hname.word hname.short.le (hdiffers hbool.1)
    (hdiffers hbool.2)
  rw [String.ofList_toList] at hword
  exact ⟨word, hword, keyword, hmem, hsame⟩

/-- No blank piece selects an action, so that a missing keyword needs no rule of its own. -/
theorem not_selects_nil : ¬Selects category [] action := by
  rintro ⟨word, hword, keyword, hmem, hsame⟩
  obtain rfl : "" = word := Literal.string.inj (Argument.mk.inj hword).2
  have hlen := length_eq_of_sameWord hsame
  exact (Category.isTableName_keyword category _ hmem).ne_nil (List.eq_nil_of_length_eq_zero hlen)

theorem exists_ofPieces_error (function : String) (hform : entry.form = .keyword)
    (hs : ∀ piece ∈ pieces.head?, ∀ action, ¬Selects entry.category piece action) :
    ∃ action, Command.ofPieces function entry pieces =
      .error (.invalidSubaction function action) := by
  have hnone : (Command.keywordWord? (pieces.headD [])).bind entry.category.lookup = none := by
    rw [Option.eq_none_iff_forall_ne_some]
    intro action ha
    have hselects := selects_iff.mpr ha
    cases pieces with
    | nil => exact not_selects_nil hselects
    | cons piece pieces => exact hs piece rfl action hselects
  simp only [Command.ofPieces, hform, hnone]
  exact ⟨_, rfl⟩

theorem exists_action_of_verb (he : entry ∈ FunctionTable.entries) (hform : entry.form = .verb)
    (hs : sameName entry.function function) :
    ∃ verb, FunctionTable.IsLeadingVerb verb function ∧
      ∃ action keyword, (keyword, action) ∈ entry.category.keywords ∧ sameName keyword verb := by
  obtain ⟨action, ha⟩ := Option.isSome_iff_exists.mp
    (FunctionTable.exists_impliedAction entry he hform)
  rw [FunctionTable.impliedAction_congr hs, impliedAction_eq_some_iff] at ha
  obtain ⟨verb, hverb, keyword⟩ := ha
  exact ⟨verb, hverb, action, keyword⟩

theorem ofChars_of_isCall (hcall : IsCall (trim cs) name body) (he : entry ∈ FunctionTable.entries)
    (hs : sameName entry.function (String.ofList (trim name))) :
    Command.ofChars cs =
      Command.checkedPieces (String.ofList (trim name)) body >>=
        Command.ofPieces (String.ofList (trim name)) entry := by
  have hsplit := (splitCall_eq_ok_iff (isTrimmed_trim cs)).mpr ⟨name, hcall, rfl⟩
  rw [FunctionTable.bounded_of_sameName he hs] at hsplit
  have hresolve := FunctionTable.resolve_eq_some_iff.mpr ⟨he, hs⟩
  simp only [Command.ofChars, hsplit, bind, Except.bind, hresolve]

/-- A verdict on a text is what the reader answers. -/
theorem Verdict.ofChars_eq (h : Verdict (trim cs) result) :
    (Command.ofChars cs).mapError Failure.kind = result := by
  cases h with
  | notCall hno =>
    cases hsplit : Command.splitCall (trim cs) with
    | ok call =>
      obtain ⟨name, hcall, -⟩ := (splitCall_eq_ok_iff (isTrimmed_trim cs)).mp hsplit
      exact absurd hcall (hno _ _)
    | error failure =>
      simp only [Command.ofChars, hsplit, bind, Except.bind, Except.mapError,
        kind_of_splitCall hsplit]
  | @unknownFunction name _ hcall hno =>
    have hsplit := (splitCall_eq_ok_iff (isTrimmed_trim cs)).mpr ⟨name, hcall, rfl⟩
    have hresolve : FunctionTable.resolve (String.ofList (bounded (trim name))) = none := by
      rw [FunctionTable.resolve_eq_none_iff]
      exact fun entry he hs => hno entry he ((FunctionTable.sameName_bounded_iff he).mp hs)
    simp only [Command.ofChars, hsplit, bind, Except.bind, hresolve]
    rfl
  | @badPieces name body _ pieces hcall he hs hpieces hbad =>
    rw [ofChars_of_isCall hcall he hs]
    cases hchecked : Command.checkedPieces (String.ofList (trim name)) body with
    | ok others =>
      obtain ⟨hothers, hadm⟩ := checkedPieces_eq_ok_iff.mp hchecked
      rw [← hasPieces_iff.mp hothers, hasPieces_iff.mp hpieces] at hadm
      exact absurd hadm hbad
    | error failure =>
      simp only [bind, Except.bind, Except.mapError, kind_of_checkedPieces hchecked]
  | @badAction name _ _ _ hcall he hs hpieces hadm hform hno =>
    obtain ⟨action, ha⟩ := exists_ofPieces_error (String.ofList (trim name)) hform hno
    rw [ofChars_of_isCall hcall he hs, checkedPieces_eq_ok_iff.mpr ⟨hpieces, hadm⟩]
    simp only [bind, Except.bind, ha]
    rfl
  | keyword hcall he hs hpieces hadm hform hselects =>
    rw [ofChars_of_isCall hcall he hs, checkedPieces_eq_ok_iff.mpr ⟨hpieces, hadm⟩]
    simp only [bind, Except.bind, ofPieces_keyword hform hselects]
    rfl
  | verb hcall he hs hpieces hadm hform hverb hmem hsame =>
    rw [ofChars_of_isCall hcall he hs, checkedPieces_eq_ok_iff.mpr ⟨hpieces, hadm⟩]
    simp only [bind, Except.bind, ofPieces_verb hform hverb ⟨_, hmem, hsame⟩]
    rfl

/-- Every text has a verdict. -/
theorem exists_verdict (text : List Char) : ∃ result, Verdict text result := by
  by_cases hcall : ∃ name body, IsCall text name body
  case neg => exact ⟨_, .notCall fun name body h => hcall ⟨name, body, h⟩⟩
  obtain ⟨name, body, hcall⟩ := hcall
  by_cases hentry : ∃ entry ∈ FunctionTable.entries,
    sameName entry.function (String.ofList (trim name))
  case neg => exact ⟨_, .unknownFunction hcall fun entry he hs => hentry ⟨entry, he, hs⟩⟩
  obtain ⟨entry, he, hs⟩ := hentry
  obtain ⟨pieces, hpieces⟩ : ∃ pieces, HasPieces body pieces := ⟨_, hasPieces_bodyPieces body⟩
  by_cases hadm : Admissible pieces
  case neg => exact ⟨_, .badPieces hcall he hs hpieces hadm⟩
  cases hform : entry.form with
  | keyword =>
    by_cases hselects : ∃ piece ∈ pieces.head?, ∃ action, Selects entry.category piece action
    · obtain ⟨piece, hpiece, action, hselects⟩ := hselects
      obtain ⟨rest, rfl⟩ := List.head?_eq_some_iff.mp hpiece
      exact ⟨_, .keyword hcall he hs hpieces hadm hform hselects⟩
    · refine ⟨_, .badAction hcall he hs hpieces hadm hform fun piece hp action h => ?_⟩
      exact hselects ⟨piece, hp, action, h⟩
  | verb =>
    obtain ⟨verb, hverb, action, keyword, hmem, hsame⟩ := exists_action_of_verb he hform hs
    exact ⟨_, .verb hcall he hs hpieces hadm hform hverb hmem hsame⟩

theorem verdict_ofChars (cs : List Char) :
    Verdict (trim cs) ((Command.ofChars cs).mapError Failure.kind) := by
  obtain ⟨result, h⟩ := exists_verdict (trim cs)
  rwa [h.ofChars_eq]

/-! ## Accepted commands -/

/-- What an accepted command is apart from its arguments: a call of a function of the table, with
an action that its keyword selects or its verb implies. -/
structure Settled (c : Command) : Prop where
  entry : ∃ entry ∈ FunctionTable.entries, sameName entry.function c.function ∧
    entry.category = c.category ∧ entry.form = c.form
  keyword : c.form = .keyword → Selects c.category c.actionText.toList c.action
  verb : c.form = .verb → FunctionTable.IsLeadingVerb c.actionText c.function ∧
    ∃ keyword, (keyword, c.action) ∈ c.category.keywords ∧ sameName keyword c.actionText

/-- The keyword and the arguments of a command are read from these pieces. -/
def FromPieces (c : Command) (pieces : List (List Char)) : Prop :=
  match c.form with
  | .keyword =>
    ∃ rest, pieces = c.actionText.toList :: rest ∧ rest.map Argument.ofChars = c.arguments
  | .verb => pieces.map Argument.ofChars = c.arguments

/-- The two rules for accepted texts in one. -/
theorem verdict_ok_iff {c : Command} : Verdict text (.ok c) ↔
    Settled c ∧ ∃ name body pieces, IsCall text name body ∧ String.ofList (trim name) = c.function ∧
      HasPieces body pieces ∧ Admissible pieces ∧ FromPieces c pieces := by
  constructor
  · intro h
    cases h with
    | keyword hcall he hs hpieces hadm hform hselects =>
      refine ⟨⟨⟨_, he, hs, rfl, hform⟩, fun _ => ?_, fun h => by cases h⟩,
        _, _, _, hcall, rfl, hpieces, hadm, _, ?_, rfl⟩
      · rwa [String.toList_ofList]
      · rw [String.toList_ofList]
    | verb hcall he hs hpieces hadm hform hverb hmem hsame =>
      exact ⟨⟨⟨_, he, hs, rfl, hform⟩, fun h => (by cases h), fun _ => ⟨hverb, _, hmem, hsame⟩⟩,
        _, _, _, hcall, rfl, hpieces, hadm, rfl⟩
  · obtain ⟨function, category, action, actionText, form, arguments⟩ := c
    rintro ⟨⟨⟨entry, he, hs, rfl, hform⟩, hkeyword, hverb⟩, name, body, pieces, hcall, rfl, hpieces,
      hadm, hfrom⟩
    cases form with
    | keyword =>
      obtain ⟨rest, rfl, rfl⟩ := hfrom
      have hv := Verdict.keyword hcall he hs hpieces hadm hform (hkeyword rfl)
      rwa [String.ofList_toList] at hv
    | verb =>
      obtain ⟨hleading, keyword, hmem, hsame⟩ := hverb rfl
      obtain rfl := hfrom
      exact .verb hcall he hs hpieces hadm hform hleading hmem hsame

end Grammar

namespace Command

/-- The reader accepts the commands of the grammar and no others, and it answers every other text
with the kind of failure that the grammar gives it. -/
theorem verdict_iff {text : String} {result : Except FailureKind Command} :
    Grammar.Verdict (trim text.toList) result ↔
      (Command.parse text).mapError Failure.kind = result := by
  constructor
  · exact Grammar.Verdict.ofChars_eq
  · rintro rfl
    exact Grammar.verdict_ofChars text.toList

theorem parse_eq_ok_iff {text : String} {c : Command} :
    Command.parse text = .ok c ↔ Grammar.Verdict (trim text.toList) (.ok c) := by
  have hkind : Command.parse text = .ok c ↔
      (Command.ofChars text.toList).mapError Failure.kind = .ok c := by
    rw [Command.parse]
    cases Command.ofChars text.toList <;> simp [Except.mapError]
  rw [hkind]
  constructor
  · intro h
    exact h ▸ Grammar.verdict_ofChars text.toList
  · exact Grammar.Verdict.ofChars_eq

end Command

end BenchConsole
