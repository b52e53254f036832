import BenchConsole.Proofs.Board.Soundness
import BenchConsole.Proofs.Command.Spelling

/-!
# Quoted texts on their way to the board

What stands between two quotation marks of one kind, and holds none of that kind, is one piece of
its command (`hasPieces_quotation`), whatever else it holds: parentheses, commas, equals signs, the
other mark, blanks and line ends. So it is one argument, and the hardware is asked about its first
characters, as many as a value may have (`prepared_printText`, `prepared_storeText`).

A board then shows or stores just these characters (`quoted_text_delivered`).
-/

namespace BenchConsole

open Text Board

variable {mark : Char} {s text : String} {d : Command} {cs : List Char}
  {pieces : List (List Char)}

/-! ## The config table -/

namespace Board.ConfigStore

theorem get?_set (store : ConfigStore) (sectionName key value : String) :
    (store.set sectionName key value).get? sectionName key =
      (store.get? sectionName key).map fun _ => value := by
  obtain ⟨entries⟩ := store
  have hfor (entry : ConfigEntry) :
      isFor sectionName key
        (if isFor sectionName key entry then { entry with value } else entry) =
      isFor sectionName key entry := by
    split <;> rfl
  have hcomp : (isFor sectionName key ∘ fun entry =>
      if isFor sectionName key entry then { entry with value } else entry) =
      isFor sectionName key := funext hfor
  simp only [set, get?, List.find?_map, hcomp, Option.map_map]
  cases hf : entries.find? (isFor sectionName key) with
  | none => rfl
  | some entry => simp [List.find?_some hf]

theorem isSome_get?_iff {store : ConfigStore} {sectionName key : String} :
    (store.get? sectionName key).isSome ↔ (sectionName, key) ∈ store.keys := by
  simp [get?, keys, isFor]

end Board.ConfigStore

/-! ## Pieces -/

/-- A quotation is one piece. -/
theorem hasPieces_quotation (hm : isQuote mark) (hs : mark ∉ cs) :
    Grammar.HasPieces (mark :: (cs ++ [mark])) [mark :: (cs ++ [mark])] := by
  have htrim := isTrimmed_between hm cs
  have hcut := Grammar.HasPieces.cut (htrim.not_isBlankText (List.cons_ne_nil _ _))
    (.last (.whole (whole_between hm hs)))
  rwa [List.map_singleton, htrim.trim_eq] at hcut

/-! ## Commands with a quoted text -/

/-- The command text that prints a text between quotation marks. -/
def printText (mark : Char) (s : String) : String :=
  "oled(print, " ++ String.ofList (mark :: (s.toList ++ [mark])) ++ ")"

/-- The command text that stores a text between quotation marks. -/
def storeText (mark : Char) (s : String) : String :=
  "config(set, display, rotation, " ++ String.ofList (mark :: (s.toList ++ [mark])) ++ ")"

/-- The command that prints a text. -/
def printCommand (s : String) : Command :=
  ⟨"oled", .oled, .print, "print", .keyword, [.positional (.string s)]⟩

/-- The command that stores a text. -/
def storeCommand (s : String) : Command :=
  ⟨"config", .config, .set, "set", .keyword,
    [.positional (.string "display"), .positional (.string "rotation"), .positional (.string s)]⟩

/-- The text that is to be printed may fall into several pieces, which then are one argument
each. -/
theorem meaning_printText (hm : isQuote mark)
    (hpieces : Grammar.HasPieces (mark :: (s.toList ++ [mark])) pieces) :
    (Command.parse (printText mark s)).toOption.map Command.meaning =
      if Grammar.Admissible ("print".toList :: pieces) then
        some (.oled, .print, pieces.map Argument.ofChars)
      else none := by
  have hprint := hasPieces_keyword_body (by decide : IsWord "print".toList) (by decide)
    ((isTrimmed_between hm _).not_isBlankText (List.cons_ne_nil _ _)) hpieces
  have htext : (printText mark s).toList = "oled".toList ++
      '(' :: ("print".toList ++ ',' :: ' ' :: (mark :: (s.toList ++ [mark])) ++ [')']) := by
    unfold printText
    simp only [String.toList_append, String.toList_ofList]
    rfl
  have hselects : Grammar.Selects .oled "print".toList .print :=
    Grammar.selects_of_sameName (by decide : ("print", Action.print) ∈ Category.oled.keywords)
      (by decide)
  exact meaning_keyword htext (FunctionTable.mem_entries_name .oled)
    (by decide : sameName "oled" "oled") rfl hselects hprint

/-- The text that is to be stored may fall into several pieces, which then are one argument each. -/
theorem meaning_storeText (hm : isQuote mark)
    (hpieces : Grammar.HasPieces (mark :: (s.toList ++ [mark])) pieces) :
    (Command.parse (storeText mark s)).toOption.map Command.meaning =
      if Grammar.Admissible ("set".toList :: "display".toList :: "rotation".toList :: pieces) then
        some (.config, .set, .positional (.string "display") ::
          .positional (.string "rotation") :: pieces.map Argument.ofChars)
      else none := by
  have hrotation := hasPieces_keyword_body (by decide : IsWord "rotation".toList) (by decide)
    ((isTrimmed_between hm _).not_isBlankText (List.cons_ne_nil _ _)) hpieces
  have hdisplay := hasPieces_keyword_body (by decide : IsWord "display".toList) (by decide)
    (fun hb => absurd (hb 'r' List.mem_cons_self) (by decide)) hrotation
  have hset := hasPieces_keyword_body (by decide : IsWord "set".toList) (by decide)
    (fun hb => absurd (hb 'd' List.mem_cons_self) (by decide)) hdisplay
  have htext : (storeText mark s).toList = "config".toList ++
      '(' :: ("set".toList ++ ',' :: ' ' :: ("display".toList ++ ',' :: ' ' ::
        ("rotation".toList ++ ',' :: ' ' :: (mark :: (s.toList ++ [mark])))) ++ [')']) := by
    unfold storeText
    simp only [String.toList_append, String.toList_ofList]
    rfl
  have hselects : Grammar.Selects .config "set".toList .set :=
    Grammar.selects_of_sameName (by decide : ("set", Action.set) ∈ Category.config.keywords)
      (by decide)
  exact meaning_keyword htext (FunctionTable.mem_entries_name .config)
    (by decide : sameName "config" "config") rfl hselects hset

theorem prepared_of_meaning
    (h : (Command.parse text).toOption.map Command.meaning = some d.meaning) :
    Bench.prepared text = d.prepare := by
  cases hc : Command.parse text with
  | error failure => simp [hc, Except.toOption] at h
  | ok c =>
    rw [hc] at h
    rw [Bench.prepared_of_parse hc]
    exact prepare_eq_of_meaning_eq (Option.some.inj h) (isSome_signature_of_parse hc)

/-- A quoted text is one argument, so the hardware is asked to print its first characters. -/
theorem prepared_printText (hm : isQuote mark) (hs : mark ∉ s.toList) :
    ∃ echo, Bench.prepared (printText mark s) =
      .ok (echo, .oled (.print (String.ofList (bounded s.toList)))) := by
  have hmeaning := meaning_printText hm (hasPieces_quotation hm hs)
  have hadmissible : Grammar.Admissible ["print".toList, mark :: (s.toList ++ [mark])] :=
    ⟨by simp [Command.maxPieces], by simp⟩
  rw [if_pos hadmissible, List.map_singleton, Argument.ofChars_between hm] at hmeaning
  exact ⟨_, prepared_of_meaning (d := printCommand (String.ofList (bounded s.toList))) hmeaning⟩

theorem prepared_storeText (hm : isQuote mark) (hs : mark ∉ s.toList) :
    ∃ echo, Bench.prepared (storeText mark s) =
      .ok (echo, .config (.set "display" "rotation" (String.ofList (bounded s.toList)))) := by
  have hmeaning := meaning_storeText hm (hasPieces_quotation hm hs)
  have hadmissible : Grammar.Admissible
      ["set".toList, "display".toList, "rotation".toList, mark :: (s.toList ++ [mark])] :=
    ⟨by simp [Command.maxPieces], by simp⟩
  rw [if_pos hadmissible, List.map_singleton, Argument.ofChars_between hm] at hmeaning
  exact ⟨_, prepared_of_meaning (d := storeCommand (String.ofList (bounded s.toList))) hmeaning⟩

/-! ## Delivery -/

variable {board : Board} {x : Bench Board}

/-- A connected display shows the first characters of the text, and nothing else changes. -/
theorem run_printText (holed : x.device.oled.connected) (hm : isQuote mark)
    (hs : mark ∉ s.toList) :
    (x.run simulated (printText mark s)).1.isError = false ∧
      (x.run simulated (printText mark s)).2.device =
        { x.device with
          oled := { connected := true, text := String.ofList (s.toList.take 31) } } := by
  obtain ⟨echo, hp⟩ := prepared_printText hm hs
  rw [Bench.run_of_prepared x hp]
  simp [Bench.perform, simulated, Board.handle, Oled.handle, holed, replied, Except.map,
    Response.ofReply, Response.isError, bounded, maxTextLength]

/-- A board with the key in its table stores the first characters of the text under it. -/
theorem run_storeText (hkey : ("display", "rotation") ∈ x.device.config.keys)
    (hm : isQuote mark) (hs : mark ∉ s.toList) :
    (x.run simulated (storeText mark s)).1.isError = false ∧
      (x.run simulated (storeText mark s)).2.device =
        { x.device with
          config := x.device.config.set "display" "rotation"
            (String.ofList (s.toList.take 31)) } := by
  obtain ⟨old, hget⟩ := Option.isSome_iff_exists.mp (ConfigStore.isSome_get?_iff.mpr hkey)
  obtain ⟨echo, hp⟩ := prepared_storeText hm hs
  rw [Bench.run_of_prepared x hp]
  simp [Bench.perform, simulated, Board.handle, ConfigStore.handle, hget, replied, Except.map,
    Response.ofReply, Response.isError, bounded, maxTextLength]

/-- A value that was set for a key of the table is the answer for it. -/
theorem Board.handle_get_of_set {sectionName key value : String}
    (hkey : (sectionName, key) ∈ board.config.keys)
    (hset : x.device = { board with config := board.config.set sectionName key value }) :
    x.device.handle (.config (.get sectionName key)) = .ok (.text value, x.device) := by
  obtain ⟨old, hget⟩ := Option.isSome_iff_exists.mp (ConfigStore.isSome_get?_iff.mpr hkey)
  simp [hset, Board.handle, ConfigStore.handle, ConfigStore.get?_set, hget, replied, Except.map]

/-- On whatever board a text without the mark that quotes it is printed or stored, its first 31
characters are what the display then shows, if it is connected, and what the board then answers
for the key. Nothing else on the board changes. -/
theorem quoted_text_delivered (hboard : board.SetUp) (requests : List Request) (stats : Stats)
    (hm : isQuote mark) (hs : mark ∉ s.toList) :
    let x : Bench Board := ⟨board.afterAll requests, stats⟩
    let first := String.ofList (s.toList.take 31)
    (x.device.oled.connected →
      (x.run simulated (printText mark s)).1.isError = false ∧
        (x.run simulated (printText mark s)).2.device =
          { x.device with oled := { connected := true, text := first } }) ∧
    (x.run simulated (storeText mark s)).1.isError = false ∧
      (x.run simulated (storeText mark s)).2.device =
        { x.device with config := x.device.config.set "display" "rotation" first } ∧
      (x.run simulated (storeText mark s)).2.device.handle (.config (.get "display" "rotation")) =
        .ok (.text first, (x.run simulated (storeText mark s)).2.device) := by
  intro x first
  have hkey : ("display", "rotation") ∈ x.device.config.keys := by
    rw [(hboard.isSound.afterAll requests).1.config]
    decide
  obtain ⟨hstored, hdevice⟩ := run_storeText hkey hm hs
  exact ⟨fun holed => run_printText holed hm hs, hstored, hdevice,
    Board.handle_get_of_set hkey hdevice⟩

/-- A text with all that could end an argument but the mark that quotes it, longer than a value
may be. -/
def unrulyText : String := " it's,\t(a=b)) = 5\r\n日本 é, and some more of it "

theorem quoted_text_delivered_unrulyText :
    let x : Bench Board := ⟨(Board.new {}).afterAll [.oled .connect], {}⟩
    let first := String.ofList (unrulyText.toList.take 31)
    (Board.new {}).SetUp ∧ isQuote '"' ∧ '"' ∉ unrulyText.toList ∧ x.device.oled.connected ∧
      first ≠ unrulyText ∧
      (x.run simulated (printText '"' unrulyText)).2.device.oled.text = first ∧
      ((x.run simulated (storeText '"' unrulyText)).2.device.handle
        (.config (.get "display" "rotation"))).toOption.map Prod.fst = some (.text first) := by
  intro x first
  have hboard : (Board.new {}).SetUp := .new _
  have hs : '"' ∉ unrulyText.toList := by decide
  have holed : x.device.oled.connected := rfl
  obtain ⟨hprinted, -, -, hstored⟩ := quoted_text_delivered hboard [.oled .connect] {} rfl hs
  refine ⟨hboard, rfl, hs, holed, by decide, ?_, ?_⟩
  · rw [(hprinted holed).2]
  · rw [hstored]
    rfl

end BenchConsole
