import BenchConsole.Proofs.Answer.Separator
import BenchConsole.Proofs.Binding
import BenchConsole.Proofs.Command.RoundTrip

/-!
# The echo of a bound command

The echo writes every value behind the name of its parameter. All names are words, and the text of
a value is flat unless it holds both quotation marks, so the echo of a command without such a value
is enclosed in its parentheses (`IsBound.isEnclosed_echo`), and so is that of a command that was
read (`Command.isEnclosed_of_prepare`).
-/

namespace BenchConsole

open Text Answer

variable {c : Command} {b : Binding} {parameters : List Parameter} {kind : ParameterKind}
  {v : Literal} {category : Category} {action : Action}

/-! ## Names -/

theorem Category.isWord_name (category : Category) :
    IsWord category.name.toList ∧ category.name.toList ≠ [] := by
  cases category <;> decide

theorem Action.isWord_name (action : Action) : IsWord action.name.toList := by
  cases action <;> decide

theorem isWord_parameter (h : signature category action = some parameters) :
    ∀ p ∈ parameters, IsWord p.name.toList :=
  forall_signature (fun _ _ parameters => ∀ p ∈ parameters, IsWord p.name.toList)
    (by decide +kernel) h

theorem isWord_levelWord (high : Bool) : IsWord (levelWord high).toList := by
  cases high <;> decide

theorem isWord_of_levelOfWord? {word : String} (h : (levelOfWord? word).isSome) :
    IsWord word.toList := by
  unfold levelOfWord? at h
  split at h
  · next hs => exact IsWord.of_sameWord (by decide) (sameWord_symm hs)
  split at h
  · next hs => exact IsWord.of_sameWord (by decide) (sameWord_symm hs)
  · cases h

/-! ## Values -/

theorem flat_of_isNumeralChar {cs : List Char} (h : ∀ c ∈ cs, Number.isNumeralChar c) :
    Flat cs :=
  flat_of_forall fun c hc => ⟨isQuote_eq_false_of_isNumeralChar (h c hc),
    ne_of_isNumeralChar (h c hc) rfl, ne_of_isNumeralChar (h c hc) rfl⟩

theorem Literal.flat_chars (h : v.IsReadable) (hm : v.OneMark) : Flat v.chars := by
  cases v with
  | absent => cases h
  | int v => exact flat_of_isNumeralChar (Number.isNumeralChar_intText _)
  | float v => exact flat_of_isNumeralChar (Number.isNumeralChar_pointedText h)
  | string s => exact flat_between (isQuote_quoteMark _) (quoteMark_not_mem hm)
  | bool b => exact flat_of_isWord (isWord_boolText b)

/-- A level is echoed as a word, any other value as it is written. -/
theorem flat_echoValue (ha : kind.accepts v) (h : v.IsReadable) (hm : v.OneMark) :
    Flat (Place.echoValue kind v).toList := by
  have hchars : Flat v.render.toList := by
    rw [Literal.render, String.toList_ofList]
    exact Literal.flat_chars h hm
  cases kind with
  | level =>
    cases v with
    | bool b => exact flat_of_isWord (isWord_levelWord b)
    | int v => exact flat_of_isWord (isWord_levelWord _)
    | string s =>
      rw [Place.echoValue, String.toList_ofList]
      exact flat_of_isWord (isWord_upper.mpr (isWord_of_levelOfWord? ha))
    | absent => exact hchars
    | float v => exact hchars
  | _ => exact hchars

/-! ## The echo -/

namespace Binding

theorem echo_toList (b : Binding) :
    b.echo.toList = b.category.name.toList ++ '(' :: (b.action.name.toList ++
      b.places.flatMap (fun place => place.echo.toList) ++ [')']) := by
  have hjoin : (String.join (b.places.map Place.echo)).toList =
      b.places.flatMap fun place => place.echo.toList := by
    rw [String.toList_join, List.flatMap_map]
  simp only [Binding.echo, String.toList_append, hjoin, List.append_assoc]
  rfl

theorem isTrimmed_echo (b : Binding) : IsTrimmed b.echo.toList := by
  obtain ⟨hword, hne⟩ := b.category.isWord_name
  rw [echo_toList]
  exact isTrimmed_call hword hne

/-- The echo of a command is enclosed if no value holds both quotation marks. -/
theorem IsBound.isEnclosed_echo (h : IsBound c parameters b)
    (hs : signature c.category c.action = some parameters)
    (hread : ∀ a ∈ c.arguments, a.value.IsReadable) (hm : ∀ a ∈ c.arguments, a.value.OneMark) :
    IsEnclosed b.echo.toList := by
  have hplace : ∀ place ∈ b.places, Flat place.echo.toList := by
    intro place hp
    have hname : IsWord place.parameter.name.toList :=
      isWord_parameter hs _ (h.parameters ▸ List.mem_map_of_mem hp)
    cases hv : place.value with
    | none =>
      rw [Place.echo, hv]
      exact .nil
    | some v =>
      obtain ⟨a, ha, rfl⟩ := h.exists_argument hp hv
      have hvalue := flat_echoValue (h.accepted place hp _ hv) (hread a ha) (hm a ha)
      have hequals : Flat ['='] := .char rfl (by decide) (by decide) .nil
      have hcomma : Flat [',', ' '] := by
        exact .char rfl (by decide) (by decide) (.char rfl (by decide) (by decide) .nil)
      simp only [Place.echo, hv, String.toList_append]
      exact (((hcomma.append (flat_of_isWord hname)).append hequals).append hvalue)
  have hplaces : Flat (b.places.flatMap fun place => place.echo.toList) := by
    generalize b.places = places at hplace
    induction places with
    | nil => exact .nil
    | cons place places ih =>
      rw [List.flatMap_cons]
      exact (hplace place List.mem_cons_self).append
        (ih fun p hp => hplace p (List.mem_cons_of_mem _ hp))
  rw [echo_toList]
  obtain ⟨hword, hne⟩ := b.category.isWord_name
  exact .mk hword hne ((flat_of_isWord b.action.isWord_name).append hplaces)

end Binding

namespace Command

variable {text echo : String} {request : Board.Request}

/-! ## Commands that were read -/

theorem isReadable_of_parse (h : Command.parse text = .ok c) : ∀ a ∈ c.arguments, a.IsReadable := by
  rw [parse_eq_ok_iff, Grammar.verdict_ok_iff] at h
  obtain ⟨-, name, body, pieces, -, -, -, -, hfrom⟩ := h
  exact hfrom.isReadable

theorem isTrimmed_of_prepare (hp : c.prepare = .ok (echo, request)) : IsTrimmed echo.toList := by
  obtain ⟨-, b, -, -, -, rfl⟩ := prepare_eq_ok_iff.mp hp
  exact b.isTrimmed_echo

theorem isEnclosed_of_prepare (hc : Command.parse text = .ok c)
    (hp : c.prepare = .ok (echo, request)) (hm : ∀ a ∈ c.arguments, a.value.OneMark) :
    IsEnclosed echo.toList := by
  obtain ⟨parameters, b, hs, hb, -, rfl⟩ := prepare_eq_ok_iff.mp hp
  have hread : ∀ a ∈ c.arguments, a.value.IsReadable := fun a ha =>
    (isReadable_of_parse hc a ha).value
  exact (Binding.isBound_of_ofCommand hb).isEnclosed_echo hs hread hm

end Command

end BenchConsole
