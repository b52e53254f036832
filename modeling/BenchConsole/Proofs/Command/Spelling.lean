import BenchConsole.Proofs.Bench
import BenchConsole.Proofs.Command.Grammar

/-!
# Two spellings of a call

A call of a function that is named by a verb can also be written with the category's own name and
a keyword in front: `setDac(0, 2.5)` is `dac(set, 0, 2.5)`. `Respelled` relates the two texts. The
two are accepted alike and mean the same (`Respelled.meaning_eq`), and nothing behind the reader
sees more of an accepted command than its meaning (`run_eq_of_meaning_eq`), so whole runs agree in
either spelling.
-/

namespace BenchConsole

open Text

/-- What a command means: all of it but the way it was written. -/
def Command.meaning (c : Command) : Category × Action × List Argument :=
  (c.category, c.action, c.arguments)

/-- The names of one call: a function named by a verb, and the category's own name with a keyword
for the action that the verb implies. -/
structure IsRespelling (verbName name keyword : String) : Prop where
  exists_entry : ∃ entry ∈ FunctionTable.entries, entry.form = .verb ∧
    sameName entry.function verbName ∧ sameName entry.category.name name ∧
    ∃ known action, (known, action) ∈ entry.category.keywords ∧ sameName known keyword ∧
      FunctionTable.impliedAction entry.function entry.category = some action

/-- Two spellings of a call, with a body of at most seven pieces or an empty one. -/
inductive Respelled : String → String → Prop
  | body : IsRespelling verbName name keyword → ¬IsBlankText body.toList →
    (Command.bodyPieces body.toList).length ≤ 7 →
    Respelled (verbName ++ "(" ++ body ++ ")") (name ++ "(" ++ keyword ++ ", " ++ body ++ ")")
  | empty : IsRespelling verbName name keyword →
    Respelled (verbName ++ "()") (name ++ "(" ++ keyword ++ ")")

variable {text function name keyword verbName : String} {entry : FunctionEntry} {action : Action}
  {pieces : List (List Char)} {body piece : List Char} {c d : Command} {σ : Type}

/-! ## Reading -/

theorem toOption_parse_of_verdict {result : Except FailureKind Command}
    (h : Grammar.Verdict (trim text.toList) result) :
    (Command.parse text).toOption = result.toOption := by
  rw [← h.ofChars_eq, Command.parse]
  cases Command.ofChars text.toList <;> rfl

instance : Decidable (Grammar.Admissible pieces) :=
  inferInstanceAs (Decidable (pieces.length ≤ Command.maxPieces ∧ [] ∉ pieces))

section

variable (htext : text.toList = function.toList ++ '(' :: (body ++ [')']))
  (he : entry ∈ FunctionTable.entries) (hs : sameName entry.function function)
include htext he hs

theorem isCall_text : Grammar.IsCall (trim text.toList) function.toList body ∧
    sameName entry.function (String.ofList (trim function.toList)) := by
  have hname := FunctionTable.isTableName_of_sameName he hs
  rw [htext, hname.word.isTrimmed.trim_eq, String.ofList_toList]
  exact ⟨Grammar.isCall_of_isWord hname.word hname.ne_nil, hs⟩

/-- The meaning of a call of a function that is named by a verb. -/
theorem meaning_verb (hform : entry.form = .verb)
    (himplied : FunctionTable.impliedAction entry.function entry.category = some action)
    (hpieces : Grammar.HasPieces body pieces) :
    (Command.parse text).toOption.map Command.meaning =
      if Grammar.Admissible pieces then
        some (entry.category, action, pieces.map Argument.ofChars)
      else none := by
  obtain ⟨hcall, hsame⟩ := isCall_text htext he hs
  split
  · next hadm =>
    rw [FunctionTable.impliedAction_congr hsame, Grammar.impliedAction_eq_some_iff] at himplied
    obtain ⟨verb, hverb, keyword, hmem, hkeyword⟩ := himplied
    rw [toOption_parse_of_verdict (.verb hcall he hsame hpieces hadm hform hverb hmem hkeyword)]
    rfl
  · next hbad =>
    rw [toOption_parse_of_verdict (.badPieces hcall he hsame hpieces hbad)]
    rfl

/-- The meaning of a call with a keyword. -/
theorem meaning_keyword (hform : entry.form = .keyword)
    (hselects : Grammar.Selects entry.category piece action)
    (hpieces : Grammar.HasPieces body (piece :: pieces)) :
    (Command.parse text).toOption.map Command.meaning =
      if Grammar.Admissible (piece :: pieces) then
        some (entry.category, action, pieces.map Argument.ofChars)
      else none := by
  obtain ⟨hcall, hsame⟩ := isCall_text htext he hs
  split
  · next hadm =>
    rw [toOption_parse_of_verdict (.keyword hcall he hsame hpieces hadm hform hselects)]
    rfl
  · next hbad =>
    rw [toOption_parse_of_verdict (.badPieces hcall he hsame hpieces hbad)]
    rfl

end

/-! ## Bodies -/

/-- A keyword in front of a body is one more piece. -/
theorem hasPieces_keyword_body (h : IsWord piece) (hne : piece ≠ []) (hbody : ¬IsBlankText body)
    (hpieces : Grammar.HasPieces body pieces) :
    Grammar.HasPieces (piece ++ ',' :: ' ' :: body) (piece :: pieces) := by
  have hblank : ¬IsBlankText (piece ++ ',' :: ' ' :: body) := fun hb =>
    h.isTrimmed.not_isBlankText hne fun c hc => hb c (List.mem_append_left _ hc)
  cases hpieces with
  | blank hb => exact absurd hb hbody
  | cut _ hcut =>
    have hspace := map_cutAtCommas_space trim_space body
    have hmap := Grammar.HasPieces.cut hblank
      (.comma (h.whole) (cut_cutAtCommas (' ' :: body)))
    rwa [List.map_cons, h.isTrimmed.trim_eq, hspace, cut_iff.mp hcut] at hmap

theorem hasPieces_keyword (h : IsWord piece) (hne : piece ≠ []) :
    Grammar.HasPieces piece [piece] := by
  have hcut := Grammar.HasPieces.cut (h.isTrimmed.not_isBlankText hne)
    (.last (.whole (h.whole)))
  rwa [List.map_singleton, h.isTrimmed.trim_eq] at hcut

/-- A keyword makes no difference to whether pieces are admissible, as long as there is room. -/
theorem admissible_cons_iff (hne : piece ≠ []) (hlength : pieces.length ≤ 7) :
    Grammar.Admissible (piece :: pieces) ↔ Grammar.Admissible pieces := by
  simp only [Grammar.Admissible, List.length_cons, List.mem_cons, hne.symm, false_or,
    Command.maxPieces]
  refine and_congr_left fun _ => ?_
  omega

theorem IsRespelling.isTableName_keyword (h : IsRespelling verbName name keyword) :
    IsTableName keyword := by
  obtain ⟨entry, -, -, -, -, known, action, hmem, hsame, -⟩ := h.exists_entry
  exact Category.isTableName_of_sameName hmem hsame

/-- Two calls agree if one has the pieces of the other behind the keyword. -/
theorem IsRespelling.meaning_eq (h : IsRespelling verbName name keyword)
    {legacy hierarchical : String} {more : List Char}
    (hlegacy : legacy.toList = verbName.toList ++ '(' :: (body ++ [')']))
    (hhierarchical : hierarchical.toList = name.toList ++ '(' :: (more ++ [')']))
    (hpieces : Grammar.HasPieces body pieces)
    (hmore : Grammar.HasPieces more (keyword.toList :: pieces)) (hlength : pieces.length ≤ 7) :
    (Command.parse legacy).toOption.map Command.meaning =
      (Command.parse hierarchical).toOption.map Command.meaning := by
  have hne := h.isTableName_keyword.ne_nil
  obtain ⟨entry, he, hform, hverb, hname, known, action, hmem, hsame, himplied⟩ := h.exists_entry
  have hselects := Grammar.selects_of_sameName hmem hsame
  have hentry := FunctionTable.mem_entries_name entry.category
  rw [meaning_verb hlegacy he hverb hform himplied hpieces,
    meaning_keyword hhierarchical hentry hname rfl hselects hmore]
  simp only [admissible_cons_iff hne hlength]

/-- Two spellings of a call are accepted alike, and they mean the same. -/
theorem Respelled.meaning_eq {legacy hierarchical : String} (h : Respelled legacy hierarchical) :
    (Command.parse legacy).toOption.map Command.meaning =
      (Command.parse hierarchical).toOption.map Command.meaning := by
  cases h with
  | @body _ _ _ body hr hblank hlength =>
    have hkeyword := hr.isTableName_keyword
    have hpieces := Grammar.hasPieces_bodyPieces body.toList
    have hmore := hasPieces_keyword_body hkeyword.word hkeyword.ne_nil hblank hpieces
    exact hr.meaning_eq (by simp) (by simp) hpieces hmore hlength
  | empty hr =>
    have hkeyword := hr.isTableName_keyword
    have hpieces : Grammar.HasPieces [] [] := .blank (by decide)
    have hmore := hasPieces_keyword hkeyword.word hkeyword.ne_nil
    exact hr.meaning_eq (by simp) (by simp) hpieces hmore (Nat.zero_le 7)

/-! ## Running -/

theorem isSome_signature (category : Category) : ∀ entry ∈ category.keywords,
    (signature category entry.2).isSome := by
  cases category <;> decide +kernel

/-- The action of an accepted command has a signature. -/
theorem isSome_signature_of_parse (h : Command.parse text = .ok c) :
    (signature c.category c.action).isSome := by
  rw [Command.parse_eq_ok_iff, Grammar.verdict_ok_iff] at h
  have hsettled := h.1
  cases hform : c.form with
  | keyword =>
    obtain ⟨-, -, keyword, hmem, -⟩ := hsettled.keyword hform
    exact isSome_signature _ _ hmem
  | verb =>
    obtain ⟨-, keyword, hmem, -⟩ := hsettled.verb hform
    exact isSome_signature _ _ hmem

/-- Commands of the same meaning are prepared alike, if their action has a signature. -/
theorem prepare_eq_of_meaning_eq (h : c.meaning = d.meaning)
    (hs : (signature c.category c.action).isSome) : c.prepare = d.prepare := by
  obtain ⟨parameters, hp⟩ := Option.isSome_iff_exists.mp hs
  obtain ⟨function, category, action, actionText, form, arguments⟩ := c
  obtain ⟨function', category', action', actionText', form', arguments'⟩ := d
  obtain ⟨rfl, rfl, rfl⟩ : category = category' ∧ action = action' ∧ arguments = arguments' := by
    simpa [Command.meaning] using h
  simp only [Command.prepare, hp]
  rfl

theorem exists_prepare_eq {legacy hierarchical : String}
    (hm : (Command.parse legacy).toOption.map Command.meaning =
      (Command.parse hierarchical).toOption.map Command.meaning)
    (hok : Command.parse legacy = .ok c) :
    ∃ d, Command.parse hierarchical = .ok d ∧ c.prepare = d.prepare := by
  rw [hok] at hm
  cases hd : Command.parse hierarchical with
  | error failure => simp [hd, Except.toOption] at hm
  | ok d =>
    rw [hd] at hm
    exact ⟨d, rfl, prepare_eq_of_meaning_eq (Option.some.inj hm) (isSome_signature_of_parse hok)⟩

/-- Nothing behind the reader sees more of an accepted command than its meaning. -/
theorem run_eq_of_meaning_eq {legacy hierarchical : String} (h : Hardware σ) (x : Bench σ)
    (hm : (Command.parse legacy).toOption.map Command.meaning =
      (Command.parse hierarchical).toOption.map Command.meaning)
    (hok : Command.parse legacy = .ok c) :
    x.run h legacy = x.run h hierarchical := by
  obtain ⟨d, hd, hp⟩ := exists_prepare_eq hm hok
  simp only [Bench.run, Bench.executeParsed, Bench.execute, hok, hd, hp]

theorem runAll_eq_of_forall₂ (h : Hardware σ) (x : Bench σ) {legacy hierarchical : List String}
    (hr : List.Forall₂ Respelled legacy hierarchical)
    (hok : ∀ text ∈ legacy, ∃ c, Command.parse text = .ok c) :
    x.runAll h legacy = x.runAll h hierarchical := by
  induction hr generalizing x with
  | nil => rfl
  | @cons text other texts others hfirst _ ih =>
    obtain ⟨c, hc⟩ := hok text List.mem_cons_self
    have hrest := ih (x.run h other).2 fun text ht => hok text (List.mem_cons_of_mem _ ht)
    simp only [Bench.runAll, run_eq_of_meaning_eq h x hfirst.meaning_eq hc, hrest]

/-- The spelling of calls never changes what they do: two spellings of a call are accepted alike
and mean the same, and a run of accepted calls makes the same requests, gives the same responses
and leaves the same bench in either spelling, on any hardware. -/
theorem respelling_preserves_runs :
    (∀ legacy hierarchical, Respelled legacy hierarchical →
      (Command.parse legacy).toOption.map Command.meaning =
        (Command.parse hierarchical).toOption.map Command.meaning) ∧
    ∀ (σ : Type) (h : Hardware σ) (x : Bench σ) (legacy hierarchical : List String),
      List.Forall₂ Respelled legacy hierarchical →
      (∀ text ∈ legacy, ∃ c, Command.parse text = .ok c) →
      x.requests h legacy = x.requests h hierarchical ∧
        x.runAll h legacy = x.runAll h hierarchical := by
  refine ⟨fun _ _ h => h.meaning_eq, fun σ h x legacy hierarchical hr hok => ⟨?_, ?_⟩⟩
  · rw [Bench.requests, Bench.requests, runAll_eq_of_forall₂ _ _ hr hok]
  · exact runAll_eq_of_forall₂ h x hr hok

theorem respelling_preserves_runs_setDac :
    let legacy := ["SETDAC(1, 'a,b', save=no)", "getProbe()"]
    let hierarchical := ["Dac(SET, 1, 'a,b', save=no)", "probe(Read)"]
    List.Forall₂ Respelled legacy hierarchical ∧
      (∀ text ∈ legacy, ∃ c, Command.parse text = .ok c) ∧
      ∀ x : Bench Board,
        x.requests Board.simulated legacy = x.requests Board.simulated hierarchical ∧
          x.runAll Board.simulated legacy = x.runAll Board.simulated hierarchical := by
  intro legacy hierarchical
  have hset : IsRespelling "SETDAC" "Dac" "SET" :=
    ⟨⟨"setDac", .dac, .verb⟩, by decide +kernel, rfl, by decide +kernel, by decide +kernel,
      "set", .set, by decide, by decide +kernel, by decide +kernel⟩
  have hget : IsRespelling "getProbe" "probe" "Read" :=
    ⟨⟨"getProbe", .probe, .verb⟩, by decide +kernel, rfl, by decide +kernel, by decide +kernel,
      "read", .get, by decide, by decide +kernel, by decide +kernel⟩
  have hr : List.Forall₂ Respelled legacy hierarchical := by
    refine .cons ?_ (.cons (.empty hget) .nil)
    exact @Respelled.body _ _ _ "1, 'a,b', save=no" hset (by decide +kernel) (by decide +kernel)
  have hok : ∀ text ∈ legacy, ∃ c, Command.parse text = .ok c := by
    intro text ht
    rcases List.mem_cons.mp ht with rfl | ht
    · exact ⟨_, rfl⟩
    · obtain rfl := List.mem_singleton.mp ht
      exact ⟨_, rfl⟩
  exact ⟨hr, hok, fun x => respelling_preserves_runs.2 Board Board.simulated x _ _ hr hok⟩

end BenchConsole
