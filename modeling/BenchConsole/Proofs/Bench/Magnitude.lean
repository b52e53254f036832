import BenchConsole.Proofs.Bench
import BenchConsole.Proofs.Binding.Replay
import BenchConsole.Proofs.Board.Magnitude

/-!
# Runs with finite numbers

Every answer of a moderate board has a finite number. The echo of a command is moderate, even where
a value holds both quotation marks and shows a separator: what stands between quotation marks is
short, and any other value has no blank in front of it (`IsBound.moderate_echo`). The texts that
commands store are moderate as well, so that the board stays moderate (`run_moderate`,
`runAll_moderate`).
-/

namespace BenchConsole

open Text Board Answer

variable {c : Command} {b : Binding} {parameters : List Parameter} {kind : ParameterKind}
  {v : Literal} {echo : String} {request : Request}

/-! ## Echoes -/

theorem moderate_equals_word {cs : List Char} (h : IsWord cs) : Moderate ('=' :: cs) := by
  refine moderate_of_no_blank rfl fun d hd => ?_
  rcases List.mem_cons.mp hd with rfl | hd
  · rfl
  · exact isBlank_eq_false_of_isWordChar (h d hd)

theorem moderate_equals_numeral {cs : List Char} (h : ∀ d ∈ cs, Number.isNumeralChar d) :
    Moderate ('=' :: cs) := by
  refine moderate_of_no_blank rfl fun d hd => ?_
  rcases List.mem_cons.mp hd with rfl | hd
  · rfl
  · exact isBlank_eq_false_of_isNumeralChar (h d hd)

theorem moderate_equals_chars (h : v.IsReadable) : Moderate ('=' :: v.chars) := by
  cases v with
  | absent => cases h
  | int v => exact moderate_equals_numeral (Number.isNumeralChar_intText _)
  | float x => exact moderate_equals_numeral (Number.isNumeralChar_pointedText h)
  | string s =>
    have hlen : s.toList.length ≤ maxTextLength := h
    refine moderate_of_length_le rfl ?_
    simp only [maxTextLength] at hlen
    simp only [Literal.chars, Literal.quoted, List.length_cons, List.length_append,
      List.length_nil]
    omega
  | bool b => exact moderate_equals_word (Literal.isWord_boolText b)

theorem moderate_equals_echoValue (ha : kind.accepts v) (h : v.IsReadable) :
    Moderate ('=' :: (Place.echoValue kind v).toList) := by
  rcases echoValue_cases ha with ⟨high, -, -, hecho, -⟩ | ⟨-, hecho, -⟩
  · rw [hecho]
    exact moderate_equals_word (isWord_levelWord high)
  · rw [hecho, Literal.render, String.toList_ofList]
    exact moderate_equals_chars h

theorem Place.moderate_echo {place : Place} (hname : IsWord place.parameter.name.toList)
    (hvalue : ∀ v ∈ place.value, place.parameter.kind.accepts v ∧ v.IsReadable) :
    Moderate place.echo.toList := by
  rw [echo]
  cases hv : place.value with
  | none => exact moderate_nil
  | some v =>
    obtain ⟨ha, hread⟩ := hvalue v hv
    have hcomma : Moderate (',' :: ' ' :: place.parameter.name.toList) := by
      refine moderate_of_no_point rfl fun hp => ?_
      simp only [List.mem_cons] at hp
      rcases hp with hp | hp | hp
      · cases hp
      · cases hp
      · exact hname.not_mem rfl hp
    simpa using hcomma.append (moderate_equals_echoValue ha hread)

theorem Binding.IsBound.moderate_echo (h : IsBound c parameters b)
    (hs : signature c.category c.action = some parameters)
    (hread : ∀ a ∈ c.arguments, a.value.IsReadable) : Moderate (' ' :: b.echo.toList) := by
  have hplaces : Moderate (b.places.flatMap fun place => place.echo.toList) := by
    refine moderate_flatMap fun place hp => Place.moderate_echo ?_ fun v hv => ⟨?_, ?_⟩
    · exact isWord_parameter hs _ (h.parameters ▸ List.mem_map_of_mem hp)
    · exact h.accepted place hp v hv
    · obtain ⟨a, ha, rfl⟩ := h.exists_argument hp hv
      exact hread a ha
  have hopen : Moderate ('(' :: b.action.name.toList) := by
    refine moderate_of_no_point rfl fun hp => ?_
    rcases List.mem_cons.mp hp with hp | hp
    · cases hp
    · exact b.action.isWord_name.not_mem rfl hp
  have hclose : Moderate [')'] := moderate_of_no_point rfl (by decide)
  have hname := moderate_word b.category.isWord_name.1
  rw [echo_toList]
  simpa using hname.append ((hopen.append hplaces).append hclose)

/-! ## Requests -/

/-- What a bound command stores is the text of one of its values. -/
theorem Binding.text_of_configSet {sectionName key value : String}
    (h : b.request = .ok (.config (.set sectionName key value))) :
    ∃ name, b.text name = .ok value := by
  unfold request at h
  split at h
  all_goals
    simp only [bind_eq_ok_iff, pure, Except.pure, Except.ok.injEq, reduceCtorEq, and_false,
      exists_false, Request.config.injEq, ConfigStore.Request.set.injEq] at h
  obtain ⟨_, -, _, -, _, ht, -, -, rfl⟩ := h
  exact ⟨_, ht⟩

theorem Binding.exists_plain_of_text {name text : String} (h : b.text name = .ok text) :
    ∃ place ∈ b.places, ∃ v ∈ place.value, text = v.plain := by
  have hvalue : ∃ v, b.value? name = some v ∧ text = v.plain := by
    unfold Binding.text at h
    split at h
    · next s hs => exact ⟨.string s, hs, (Except.ok.inj h).symm⟩
    · next v hne hv =>
      refine ⟨v, hv, ?_⟩
      cases v with
      | string s => exact absurd rfl (hne s)
      | _ => exact (Except.ok.inj h).symm
    · cases h
  obtain ⟨v, hv, rfl⟩ := hvalue
  obtain ⟨place, hplace, hpv⟩ := Option.bind_eq_some_iff.mp hv
  exact ⟨place, List.mem_of_find?_eq_some hplace, v, hpv, rfl⟩

theorem Binding.IsBound.storesModerate (h : IsBound c parameters b)
    (hread : ∀ a ∈ c.arguments, a.value.IsReadable) (hr : b.request = .ok request) :
    request.StoresModerate := by
  rintro sectionName key value rfl
  obtain ⟨name, hname⟩ := text_of_configSet hr
  obtain ⟨place, hp, v, hv, rfl⟩ := exists_plain_of_text hname
  obtain ⟨a, ha, rfl⟩ := h.exists_argument hp hv
  exact Literal.moderate_plain (hread a ha)

namespace Bench

/-! ## Runs -/

/-- The answer to a reply behind a moderate echo has a finite number. -/
theorem isFinite_ofResponse_success {value : Option String} (he : Moderate (' ' :: echo.toList))
    (hv : ∀ text ∈ value, Moderate (' ' :: text.toList)) :
    (ofResponse (.success echo value)).numeric.isFinite := by
  cases value with
  | none =>
    have hline : (Response.success echo none).line.toList =
        Response.successMark.toList ++ ' ' :: echo.toList := by
      simp [Response.line]
    rw [ofResponse, ofLine, hline]
    exact he.isFinite_ofChars
  | some text =>
    have hequals : Moderate [' ', '='] := moderate_of_no_point rfl (by decide)
    have hrest := (he.append hequals).append (hv text rfl)
    rw [ofResponse, ofLine, value_line_toList]
    exact hrest.isFinite_ofChars

/-- An error has no number. -/
theorem isFinite_ofResponse_error (kind : FailureKind) (message : String) :
    (ofResponse (.error kind message)).numeric.isFinite := by
  rw [ofResponse_error]
  exact isFinite_zero

/-- A moderate board answers every command with a finite number and stays moderate. -/
theorem run_moderate {x : Bench Board} (hx : x.device.IsModerate) (text : String) :
    (ofResponse (x.run simulated text).1).numeric.isFinite ∧
      (x.run simulated text).2.device.IsModerate := by
  cases hc : Command.parse text with
  | error failure =>
    have hp : prepared text = .error failure := by
      rw [prepared, hc]
      rfl
    rw [run_of_failed x hp]
    exact ⟨isFinite_ofResponse_error _ _, hx⟩
  | ok c =>
    cases hp : c.prepare with
    | error failure =>
      rw [run_of_failed x ((prepared_of_parse hc).trans hp)]
      exact ⟨isFinite_ofResponse_error _ _, hx⟩
    | ok answer =>
      obtain ⟨echo, request⟩ := answer
      rw [run_of_prepared x ((prepared_of_parse hc).trans hp)]
      obtain ⟨parameters, b, hs, hb, hrequest, rfl⟩ := Command.prepare_eq_ok_iff.mp hp
      have hbound := Binding.isBound_of_ofCommand hb
      have hread : ∀ a ∈ c.arguments, a.value.IsReadable := fun a ha =>
        (Command.isReadable_of_parse hc a ha).value
      have hhandle := hx.handle (hbound.storesModerate hread hrequest)
      simp only [perform, simulated]
      cases hout : x.device.handle request with
      | error fault => exact ⟨isFinite_ofResponse_error _ _, hx⟩
      | ok outcome =>
        obtain ⟨reply, later⟩ := outcome
        have hecho := hbound.moderate_echo hs hread
        exact ⟨isFinite_ofResponse_success hecho (hhandle.replies reply later hout),
          hhandle.board reply later hout⟩

theorem runAll_moderate {x : Bench Board} (hx : x.device.IsModerate) (texts : List String) :
    (x.runAll simulated texts).2.device.IsModerate := by
  induction texts generalizing x with
  | nil => exact hx
  | cons text texts ih => exact ih (run_moderate hx text).2

end Bench

end BenchConsole
