import BenchConsole.Proofs.Bench.Answers
import BenchConsole.Proofs.Bench.QuotedText
import BenchConsole.Proofs.Relay

/-!
# A stored text read back

A text is stored in the config table by a command that holds it between quotation marks, and read
back by a second command. If the first one succeeds, whatever characters the text holds, it has
stored the text as it is (`prepare_storeText`). The answer of the second one is the text without
the blanks around it, unless nothing is left of it then (`stored_text_answer`): of a blank value
nothing remains in the line of a response, and what is read back is the echo.
-/

namespace BenchConsole

open Text Board Answer

variable {mark : Char} {s echo : String} {c : Command} {request : Request} {body : List Char}
  {pieces : List (List Char)}

/-! ## The command that stores a text -/

/-- A body with no more than one piece is that piece. -/
theorem Grammar.HasPieces.eq_singleton (h : HasPieces body pieces) (hb : ¬IsBlankText body)
    (hlength : pieces.length ≤ 1) : pieces = [trim body] := by
  cases h with
  | blank hblank => exact absurd hblank hb
  | cut _ hcut =>
    rw [List.length_map] at hlength
    cases hcut with
    | last => rfl
    | comma _ hrest =>
      exfalso
      cases hrest <;> simp at hlength

/-- Whenever the command can be prepared, it stores the text as it is. -/
theorem prepare_storeText (hm : isQuote mark) (hlength : s.toList.length ≤ maxTextLength)
    (hc : Command.parse (storeText mark s) = .ok c) (hp : c.prepare = .ok (echo, request)) :
    request = .config (.set "display" "rotation" s) := by
  have hpieces := Grammar.hasPieces_bodyPieces (mark :: (s.toList ++ [mark]))
  have hmeaning : c.meaning = (.config, .set, .positional (.string "display") ::
      .positional (.string "rotation") ::
        (Command.bodyPieces (mark :: (s.toList ++ [mark]))).map Argument.ofChars) := by
    have hparsed := meaning_storeText hm hpieces
    rw [hc] at hparsed
    split at hparsed
    · exact Option.some.inj hparsed
    · cases hparsed
  -- A signature with three parameters leaves room for one piece only.
  have hone : (Command.bodyPieces (mark :: (s.toList ++ [mark]))).length ≤ 1 := by
    obtain ⟨parameters, b, hs, hb, -, -⟩ := Command.prepare_eq_ok_iff.mp hp
    have hle := (Binding.isBound_of_ofCommand hb).length_arguments_le
    obtain ⟨hcategory, haction, harguments⟩ : c.category = .config ∧ c.action = .set ∧
        c.arguments = _ := by simpa [Command.meaning] using hmeaning
    rw [hcategory, haction] at hs
    obtain rfl := Option.some.inj hs
    rw [harguments] at hle
    simp only [List.length_cons, List.length_map, List.length_nil] at hle
    omega
  have htrim := isTrimmed_between hm s.toList
  have hblank := htrim.not_isBlankText (List.cons_ne_nil _ _)
  rw [hpieces.eq_singleton hblank hone, htrim.trim_eq, List.map_singleton,
    Argument.ofChars_between hm, bounded_eq_self_iff.mpr hlength, String.ofList_toList] at hmeaning
  have hsame : c.prepare = (storeCommand s).prepare :=
    prepare_eq_of_meaning_eq hmeaning (isSome_signature_of_parse hc)
  have hprepare : (storeCommand s).prepare =
      .ok (_, .config (.set "display" "rotation" s)) := rfl
  rw [hsame, hprepare] at hp
  cases hp
  rfl

/-! ## Storing and reading back -/

variable {x : Bench Board} {e later : Relay Board}

/-- The command text that reads the text back. -/
def queryText : String := "config(get, display, rotation)"

/-- The echo of that command. -/
def queryEcho : String := "config(get, section=\"display\", key=\"rotation\")"

theorem get?_of_run_storeText (hm : isQuote mark) (hlength : s.toList.length ≤ maxTextLength)
    (hok : (x.run Board.simulated (storeText mark s)).1.isError = false) :
    (x.run Board.simulated (storeText mark s)).2.device.config.get? "display" "rotation" =
      some s := by
  cases hp : Bench.prepared (storeText mark s) with
  | error failure =>
    rw [Bench.run_of_failed x hp] at hok
    cases hok
  | ok prepared =>
    obtain ⟨echo, request⟩ := prepared
    obtain ⟨c, hc, hprepare⟩ := bind_eq_ok_iff.mp hp
    obtain rfl := prepare_storeText hm hlength hc hprepare
    rw [Bench.run_of_prepared x hp] at hok ⊢
    cases hget : x.device.config.get? "display" "rotation" with
    | none =>
      simp [Bench.perform, Board.simulated, Board.handle, ConfigStore.handle, hget, Board.replied,
        Except.map, Response.ofReply, Response.isError] at hok
    | some old =>
      simp [Bench.perform, Board.simulated, Board.handle, ConfigStore.handle, hget, Board.replied,
        Except.map, ConfigStore.get?_set]

theorem run_queryText (hget : x.device.config.get? "display" "rotation" = some s) :
    (x.run Board.simulated queryText).1 = .success queryEcho (some s) := by
  have hp : Bench.prepared queryText = .ok (queryEcho, .config (.get "display" "rotation")) := rfl
  rw [Bench.run_of_prepared x hp]
  simp [Bench.perform, Board.simulated, Board.handle, ConfigStore.handle, hget, Board.replied,
    Except.map, Response.ofReply, Response.valueText?]

theorem isEnclosed_queryEcho : IsEnclosed queryEcho.toList := by
  have hc : Command.parse queryText = .ok ⟨"config", .config, .get, "get", .keyword,
      [⟨none, .string "display"⟩, ⟨none, .string "rotation"⟩]⟩ := rfl
  exact Command.isEnclosed_of_prepare hc rfl (by decide)

/-- A stored text is read back as a text. What is read back is the text without the blanks around
it, if and only if there is more to it than blanks. -/
theorem stored_text_answer (hr : e.Reachable Board.simulated) (hm : isQuote mark)
    (hlength : s.toList.length ≤ maxTextLength) (hw : ¬IsTruthWord (trim s.toList))
    (hn : ¬StartsWithNumeral (trim s.toList))
    (hok : (e.execute Board.simulated (storeText mark s)).1.isError = false) :
    let stored := (e.execute Board.simulated (storeText mark s)).2
    stored.bench.device.config.get? "display" "rotation" = some s ∧
      ∀ later : Relay Board, later.Reachable Board.simulated →
        later.bench.device.config = stored.bench.device.config →
        let a := ofResponse (later.execute Board.simulated queryText).1
        a.tag = .string ∧ (a.text = trimmed s ↔ ¬IsBlankText s.toList) := by
  intro stored
  obtain ⟨hresponse, hbench⟩ := hr.execute_eq (storeText mark s)
  rw [hresponse] at hok
  have hstored : stored.bench.device.config.get? "display" "rotation" = some s := by
    change (e.execute Board.simulated (storeText mark s)).2.bench.device.config.get? _ _ = _
    rw [hbench]
    exact get?_of_run_storeText hm hlength hok
  refine ⟨hstored, fun later hlater hconfig => ?_⟩
  rw [← hconfig] at hstored
  have hquery : (later.execute Board.simulated queryText).1 = .success queryEcho (some s) := by
    rw [(hlater.execute_eq queryText).1, run_queryText hstored]
  rw [hquery]
  by_cases hb : IsBlankText s.toList
  · have htrim : trimmed s = "" := by rw [trimmed, trim_eq_nil_iff.mpr hb]
    rw [ofResponse_blank_value isEnclosed_queryEcho hb, htrim]
    exact ⟨rfl, iff_of_false (by decide) (not_not_intro hb)⟩
  · rw [ofResponse_value isEnclosed_queryEcho hb, ofValue_text hw hn]
    exact ⟨rfl, iff_of_true rfl hb⟩

/-- A relay with a board at power-on. -/
def newRelay : Relay Board :=
  .new (Board.new {}) {}

/-- A text with a quotation mark, a parenthesis, a comma and something like a separator in it. -/
def crowdedText : String := " it's) = (5, x "

theorem stored_text_answer_crowdedText :
    newRelay.Reachable Board.simulated ∧ isQuote '"' ∧
      crowdedText.toList.length ≤ maxTextLength ∧ ¬IsTruthWord (trim crowdedText.toList) ∧
      ¬StartsWithNumeral (trim crowdedText.toList) ∧
      (newRelay.execute Board.simulated (storeText '"' crowdedText)).1.isError = false ∧
      let later := (newRelay.execute Board.simulated (storeText '"' crowdedText)).2
      later.Reachable Board.simulated ∧
        let a := ofResponse (later.execute Board.simulated queryText).1
        a.tag = .string ∧ (a.text = trimmed crowdedText ↔ ¬IsBlankText crowdedText.toList) := by
  have hr : newRelay.Reachable Board.simulated := .new _ _
  have hlength : crowdedText.toList.length ≤ maxTextLength := by decide
  have hw : ¬IsTruthWord (trim crowdedText.toList) := by decide +kernel
  have hn : ¬StartsWithNumeral (trim crowdedText.toList) := by decide +kernel
  have hok : (newRelay.execute Board.simulated (storeText '"' crowdedText)).1.isError = false := by
    decide +kernel
  have hlater := Relay.Reachable.execute (storeText '"' crowdedText) hr
  have hanswer := (stored_text_answer hr rfl hlength hw hn hok).2 _ hlater rfl
  exact ⟨hr, rfl, hlength, hw, hn, hok, hlater, hanswer⟩

/-- The empty text is stored, but what is read back is an echo with half a separator. -/
theorem not_forall_stored_text_answer :
    ¬∀ (e : Relay Board) (mark : Char) (s : String), e.Reachable Board.simulated → isQuote mark →
      s.toList.length ≤ maxTextLength → ¬IsTruthWord (trim s.toList) →
      ¬StartsWithNumeral (trim s.toList) →
      (e.execute Board.simulated (storeText mark s)).1.isError = false →
      let stored := (e.execute Board.simulated (storeText mark s)).2
      (ofResponse (stored.execute Board.simulated queryText).1).text = trimmed s := by
  intro hall
  have hok : (newRelay.execute Board.simulated (storeText '"' "")).1.isError = false := by
    decide +kernel
  have htext := hall newRelay '"' "" (.new _ _) rfl (by decide) (by decide) (by decide) hok
  exact absurd htext (by decide +kernel)

end BenchConsole
