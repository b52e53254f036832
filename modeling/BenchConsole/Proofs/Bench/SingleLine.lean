import BenchConsole.Proofs.Bench.Magnitude
import BenchConsole.Proofs.Command.SingleLine
import BenchConsole.Proofs.Relay.History

/-!
# Responses of single lines

A response quotes what it is about as it stands, line ends included. So it is a single line if the
command text is one and every text that was run before was one; what the config table holds is a
single line then as well (`run_singleLine`, `runAll_holdsLines`).

Of a command that reaches the hardware, the response is a single line if and only if every argument
is one, and the value it reads from the config table, if it reads one
(`singleLine_run_iff`). Both are put together for all relays that can be reached in
`response_singleLine`.
-/

namespace BenchConsole

open Text Board

variable {α β : Type} {c : Command} {b : Binding} {parameters : List Parameter}
  {kind : ParameterKind} {v : Literal} {echo text : String} {request : Request} {failure : Failure}
  {heading name : String} {places : List Place}

/-! ## Values -/

theorem Literal.singleLine_render_iff : SingleLine v.render ↔ SingleLine v.plain := by
  cases v with
  | string s =>
    have hmark : IsOneLine [quoteMark s.toList] := by
      unfold quoteMark
      split <;> decide
    rw [render, singleLine_ofList_iff]
    change IsOneLine ([quoteMark s.toList] ++ s.toList ++ [quoteMark s.toList]) ↔ _
    simp only [isOneLine_append_iff, hmark, true_and, and_true]
    rfl
  | _ => exact Iff.rfl

theorem singleLine_levelWord (high : Bool) : SingleLine (levelWord high) :=
  isOneLine_of_isWord (isWord_levelWord high)

theorem singleLine_echoValue_iff (ha : kind.accepts v) (h : v.IsReadable) :
    SingleLine (Place.echoValue kind v) ↔ SingleLine v.plain := by
  rcases echoValue_cases ha with ⟨high, rfl, -, hecho, -⟩ | ⟨-, hecho, -⟩
  · rw [hecho]
    refine iff_of_true (singleLine_levelWord high) (Literal.singleLine_plain h ?_)
    rintro s rfl
    exact isOneLine_of_isWord (isWord_of_levelOfWord? ha)
  · rw [hecho, Literal.singleLine_render_iff]

/-! ## Results -/

/-- A result has a property, or it is a failure that is told in one line. -/
def Lined (P : α → Prop) : Except Failure α → Prop
  | .ok a => P a
  | .error failure => SingleLine failure.message

namespace Lined

variable {P : α → Prop} {Q : β → Prop} {x : Except Failure α} {f : α → Except Failure β}

theorem ok {a : α} (h : P a) : Lined P (.ok a) :=
  h

theorem error (h : SingleLine failure.message) : Lined P (.error failure) :=
  h

theorem of (herror : ∀ failure, x = .error failure → SingleLine failure.message)
    (hok : ∀ a, x = .ok a → P a) : Lined P x := by
  cases x with
  | error failure => exact herror failure rfl
  | ok a => exact hok a rfl

theorem bind (hx : Lined P x) (hf : ∀ a, P a → Lined Q (f a)) : Lined Q (x >>= f) := by
  cases x with
  | error failure => exact hx
  | ok a => exact hf a hx

theorem map (hx : Lined P x) {g : α → β} (hg : ∀ a, P a → Q (g a)) : Lined Q (x.map g) := by
  cases x with
  | error failure => exact hx
  | ok a => exact hg a hx

end Lined

theorem singleLine_invalidParameterType {detail : String} (h : SingleLine detail) :
    SingleLine (Failure.invalidParameterType detail).message := by
  unfold Failure.message
  simp only [singleLine_append_iff, h]
  decide

theorem singleLine_missingParameter (hc : SingleLine heading) (hn : SingleLine name) :
    SingleLine (Failure.missingParameter heading name).message := by
  unfold Failure.message
  simp only [singleLine_append_iff, hc, hn]
  decide

/-! ## Bindings -/

theorem Category.singleLine_name (category : Category) : SingleLine category.name :=
  isOneLine_of_isWord category.isWord_name.1

theorem Action.singleLine_name (action : Action) : SingleLine action.name :=
  isOneLine_of_isWord action.isWord_name

theorem Command.singleLine_heading (c : Command) : SingleLine c.heading := by
  unfold heading
  simp only [singleLine_append_iff, c.category.singleLine_name, c.action.singleLine_name]
  decide

theorem Place.singleLine_fault? {place : Place} (hh : SingleLine heading)
    (hparameter : SingleLine place.parameter.name)
    (hvalue : ∀ v ∈ place.value, SingleLine v.plain) :
    ∀ failure ∈ place.fault? heading, SingleLine failure.message := by
  intro failure hfailure
  unfold fault? at hfailure
  split at hfailure
  · next v hv =>
    have hrender : SingleLine v.render := Literal.singleLine_render_iff.mpr (hvalue v hv)
    have hkind : SingleLine place.parameter.kind.description := by
      cases place.parameter.kind <;> decide
    have htype : SingleLine v.typeName := by
      unfold Literal.typeName
      split <;> decide
    split at hfailure
    · cases hfailure
    · cases hfailure
      refine singleLine_invalidParameterType ?_
      simp only [singleLine_append_iff, hh, hparameter, hrender, hkind, htype]
      decide
  · split at hfailure
    · cases hfailure
      exact singleLine_missingParameter hh hparameter
    · cases hfailure

namespace Binding

theorem lined_fillNamed (hh : SingleLine heading) (hn : SingleLine name)
    (hparameters : ∀ place ∈ places, SingleLine place.parameter.name) :
    Lined (fun later => later.map Place.parameter = places.map Place.parameter)
      (fillNamed heading places name v) := by
  refine .of (fun failure h => ?_) fun later h => (fillNamed_spec h).1
  unfold fillNamed at h
  split at h
  · cases h
    refine singleLine_invalidParameterType ?_
    simp only [singleLine_append_iff, hh, hn]
    decide
  split at h
  · cases h
  · next i hi parameter _ hplace =>
    cases h
    have hparameter : SingleLine parameter.name := hparameters _ (List.mem_of_getElem? hplace)
    refine singleLine_invalidParameterType ?_
    simp only [singleLine_append_iff, hh, hparameter]
    decide
  · cases h

theorem singleLine_of_foldlM_error {arguments : List Argument} (hh : SingleLine heading)
    (ha : ∀ a ∈ arguments, a.InOneLine)
    (hparameters : ∀ p ∈ places.map Place.parameter, SingleLine p.name)
    (h : arguments.foldlM (placeNamed heading) places = .error failure) :
    SingleLine failure.message := by
  induction arguments generalizing places with
  | nil => cases h
  | cons a arguments ih =>
    obtain ⟨hfirst, hrest⟩ := List.forall_mem_cons.mp ha
    have hplaced : Lined (fun later => later.map Place.parameter = places.map Place.parameter)
        (placeNamed heading places a) := by
      unfold placeNamed
      split
      · next name hname =>
        exact lined_fillNamed hh (hfirst.name name hname) fun place hp =>
          hparameters _ (List.mem_map_of_mem hp)
      · exact .ok rfl
    rw [List.foldlM_cons, bind_eq_error_iff] at h
    obtain h | ⟨later, hlater, h⟩ := h
    · rw [h] at hplaced
      exact hplaced
    · rw [hlater] at hplaced
      refine ih hrest ?_ h
      rwa [hplaced]

/-- A command of single lines that is not bound is told so in one line. -/
theorem singleLine_of_ofCommand_error (hc : c.InOneLine)
    (hs : signature c.category c.action = some parameters)
    (h : ofCommand c parameters = .error failure) : SingleLine failure.message := by
  have hheading := c.singleLine_heading
  have hparameters : ∀ p ∈ parameters, SingleLine p.name := fun p hp =>
    isOneLine_of_isWord (isWord_parameter hs p hp)
  rw [ofCommand, bind_eq_error_iff] at h
  obtain h | ⟨places, hfill, h⟩ := h
  · unfold fill at h
    split at h
    · cases h
      refine singleLine_invalidParameterType ?_
      simp only [singleLine_append_iff, hheading, singleLine_toString_nat]
      decide
    · next places hpositional =>
      refine singleLine_of_foldlM_error hheading hc.arguments ?_ h
      rwa [(fillPositional_spec hpositional).1]
  · obtain ⟨hplaces, hvalues⟩ := fill_spec hfill
    split at h
    · next fault hfault =>
      cases h
      obtain ⟨place, hplace, hfailure⟩ := List.exists_of_findSome?_eq_some hfault
      refine Place.singleLine_fault? hheading ?_ ?_ _ hfailure
      · exact hparameters _ (hplaces ▸ List.mem_map_of_mem hplace)
      · intro v hv
        have hmem := hvalues.subset (List.mem_filterMap.mpr ⟨place, hplace, hv⟩)
        obtain ⟨a, ha, rfl⟩ := List.mem_map.mp hmem
        exact (hc.arguments a ha).value
    · cases h

/-! ## Echoes -/

theorem singleLine_echo_iff_places (b : Binding) :
    SingleLine b.echo ↔ ∀ place ∈ b.places, SingleLine place.echo := by
  have hcategory : IsOneLine b.category.name.toList := b.category.singleLine_name
  have haction : IsOneLine b.action.name.toList := b.action.singleLine_name
  have hopen : IsOneLine ['('] := by decide
  have hclose : IsOneLine [')'] := by decide
  have hplaces : IsOneLine (b.places.flatMap fun place => place.echo.toList) ↔
      ∀ place ∈ b.places, SingleLine place.echo := List.forall_mem_flatMap
  rw [SingleLine, echo_toList, ← List.singleton_append]
  simp only [isOneLine_append_iff, hcategory, haction, hopen, hclose, hplaces, true_and, and_true]

/-- The values at the places are those of the arguments. -/
theorem IsBound.singleLine_values_iff (h : IsBound c parameters b) :
    (∀ place ∈ b.places, ∀ v ∈ place.value, SingleLine v.plain) ↔
      ∀ a ∈ c.arguments, SingleLine a.value.plain := by
  have hvalues : (∀ v ∈ b.places.filterMap Place.value, SingleLine v.plain) ↔
      ∀ v ∈ c.arguments.map Argument.value, SingleLine v.plain :=
    forall_congr' fun v => imp_congr_left h.values.mem_iff
  rw [List.forall_mem_map] at hvalues
  rw [← hvalues, List.forall_mem_filterMap]
  rfl

theorem IsBound.singleLine_echo_iff (h : IsBound c parameters b)
    (hs : signature c.category c.action = some parameters)
    (hread : ∀ a ∈ c.arguments, a.value.IsReadable) :
    SingleLine b.echo ↔ ∀ a ∈ c.arguments, SingleLine a.value.plain := by
  have hplace : ∀ place ∈ b.places,
      SingleLine place.echo ↔ ∀ v ∈ place.value, SingleLine v.plain := by
    intro place hp
    have hname : SingleLine place.parameter.name :=
      isOneLine_of_isWord (isWord_parameter hs _ (h.parameters ▸ List.mem_map_of_mem hp))
    rw [Place.echo]
    cases hv : place.value with
    | none =>
      have hempty : SingleLine "" := by decide
      exact iff_of_true hempty fun v hv => absurd hv (Option.not_mem_none v)
    | some v =>
      obtain ⟨a, ha, rfl⟩ := h.exists_argument hp hv
      have hmarks : SingleLine ", " ∧ SingleLine "=" := by decide
      simp only [singleLine_append_iff, hname, hmarks, true_and, Option.mem_some_iff,
        forall_eq', singleLine_echoValue_iff (h.accepted place hp _ hv) (hread a ha)]
  rw [b.singleLine_echo_iff_places, ← h.singleLine_values_iff]
  exact forall₂_congr hplace

end Binding

/-! ## Requests -/

theorem Text.isOneLine_lower {cs : List Char} (h : IsOneLine cs) : IsOneLine (lower cs) := by
  intro d hd
  obtain ⟨c, hc, rfl⟩ := List.mem_map.mp hd
  cases hword : isWordChar c with
  | true =>
    have hlower : ∀ d ∈ [c.toLower], isBlank d = false := fun d hd => by
      rw [List.mem_singleton.mp hd]
      exact isBlank_eq_false_of_isWordChar ((isWordChar_toLower c).trans hword)
    exact isOneLine_of_no_blank hlower _ (List.mem_singleton_self _)
  | false =>
    -- A character that is no letter is left as it is.
    have hsame : c.toLower = c := by
      unfold Char.toLower
      split
      · next hupper =>
        have hletter : isWordChar c := by
          simp only [isWordChar_iff, UInt32.le_iff_toNat_le] at hupper ⊢
          exact .inl hupper
        rw [hletter] at hword
        cases hword
      · rfl
    rw [hsame]
    exact h c hc

theorem lined_directionOfWord (h : SingleLine text) :
    Lined (fun _ => True) (directionOfWord text) := by
  have hlower := isOneLine_lower h
  unfold directionOfWord
  dsimp only
  split
  · exact trivial
  split
  · exact trivial
  · refine .error (singleLine_invalidParameterType ?_)
    simp only [singleLine_append_iff, singleLine_ofList_iff, hlower]
    decide

theorem lined_pullOfWord (h : SingleLine text) : Lined (fun _ => True) (pullOfWord text) := by
  have hlower := isOneLine_lower h
  unfold pullOfWord
  dsimp only
  split
  · exact trivial
  split
  · exact trivial
  split
  · exact trivial
  · refine .error (singleLine_invalidParameterType ?_)
    simp only [singleLine_append_iff, singleLine_ofList_iff, hlower]
    decide

namespace Binding

section

variable (hb : SingleLine b.echo) (hn : SingleLine name)
include hb hn

theorem singleLine_missing : SingleLine (b.missing name).message :=
  singleLine_missingParameter hb hn

theorem lined_int64 : Lined (fun _ => True) (b.int64 name) := by
  unfold int64
  split
  · exact trivial
  · exact singleLine_missing hb hn

theorem lined_unsigned (width : Nat) : Lined (fun _ => True) (b.unsigned width name) := by
  refine (lined_int64 hb hn).bind fun v _ => ?_
  split
  · exact trivial
  · refine .error (singleLine_invalidParameterType ?_)
    simp only [singleLine_append_iff, hn, singleLine_toString_int]
    decide

theorem lined_uint8 : Lined (fun _ => True) (b.uint8 name) :=
  (lined_unsigned hb hn 8).map fun _ _ => trivial

theorem lined_uint16 : Lined (fun _ => True) (b.uint16 name) :=
  (lined_unsigned hb hn 16).map fun _ _ => trivial

theorem lined_uint32 : Lined (fun _ => True) (b.uint32 name) :=
  (lined_unsigned hb hn 32).map fun _ _ => trivial

theorem lined_uint8OrZero : Lined (fun _ => True) (b.uint8OrZero name) := by
  unfold uint8OrZero
  split
  · exact lined_uint8 hb hn
  · exact trivial

theorem lined_number : Lined (fun _ => True) (b.number name) := by
  unfold number
  split
  · exact trivial
  · exact singleLine_missing hb hn

theorem lined_level : Lined (fun _ => True) (b.level name) := by
  unfold level
  repeat' split
  all_goals first | exact trivial | exact singleLine_missing hb hn

theorem lined_text (hv : ∀ place ∈ b.places, ∀ v ∈ place.value, SingleLine v.plain) :
    Lined SingleLine (b.text name) := by
  refine .of (fun failure h => ?_) fun text h => ?_
  · unfold Binding.text at h
    split at h
    · cases h
    · cases h
    · cases h
      exact singleLine_missing hb hn
  · obtain ⟨place, hp, v, hplace, rfl⟩ := exists_plain_of_text h
    exact hv place hp v hplace

end

theorem lined_of_texts_eq_nil (h : request.texts = []) :
    Lined (fun request => ∀ text ∈ request.texts, SingleLine text) (.ok request) :=
  .ok (h ▸ List.forall_mem_nil _)

/-- A bound command of single lines makes a request of single lines, or is refused in one line. -/
theorem lined_request (hb : SingleLine b.echo)
    (hv : ∀ place ∈ b.places, ∀ v ∈ place.value, SingleLine v.plain) :
    Lined (fun request => ∀ text ∈ request.texts, SingleLine text) b.request := by
  have hnone (category : Category) (action : Action) :
      SingleLine (Failure.invalidSubaction category.name action.name).message :=
    singleLine_invalidSubaction category.singleLine_name action.singleLine_name
  obtain ⟨category, action, places⟩ := b
  cases category with
  | gpio =>
    cases action with
    | set =>
      exact .bind (lined_uint8 hb (by decide)) fun _ _ =>
        .bind (lined_level hb (by decide)) fun _ _ => lined_of_texts_eq_nil rfl
    | get => exact .bind (lined_uint8 hb (by decide)) fun _ _ => lined_of_texts_eq_nil rfl
    | direction =>
      exact .bind (lined_text hb (by decide) hv) fun _ hw => .bind (lined_directionOfWord hw)
        fun _ _ => .bind (lined_uint8 hb (by decide)) fun _ _ => lined_of_texts_eq_nil rfl
    | pulls =>
      exact .bind (lined_text hb (by decide) hv) fun _ hw => .bind (lined_pullOfWord hw)
        fun _ _ => .bind (lined_uint8 hb (by decide)) fun _ _ => lined_of_texts_eq_nil rfl
    | _ => exact hnone _ _
  | nodes =>
    cases action with
    | connect | disconnect | check =>
      exact .bind (lined_uint16 hb (by decide)) fun _ _ =>
        .bind (lined_uint16 hb (by decide)) fun _ _ => lined_of_texts_eq_nil rfl
    | clear => exact lined_of_texts_eq_nil rfl
    | _ => exact hnone _ _
  | dac =>
    cases action with
    | set =>
      exact .bind (lined_uint8 hb (by decide)) fun _ _ =>
        .bind (lined_number hb (by decide)) fun _ _ => lined_of_texts_eq_nil rfl
    | get => exact .bind (lined_uint8 hb (by decide)) fun _ _ => lined_of_texts_eq_nil rfl
    | _ => exact hnone _ _
  | adc =>
    cases action with
    | get => exact .bind (lined_uint8 hb (by decide)) fun _ _ => lined_of_texts_eq_nil rfl
    | _ => exact hnone _ _
  | currentSense =>
    cases action with
    | current | shuntVoltage | busVoltage | power =>
      exact .bind (lined_uint8OrZero hb (by decide)) fun _ _ => lined_of_texts_eq_nil rfl
    | _ => exact hnone _ _
  | config =>
    cases action with
    | get =>
      refine .bind (lined_text hb (by decide) hv) fun _ hs =>
        .bind (lined_text hb (by decide) hv) fun _ hk => .ok ?_
      exact List.forall_mem_cons.mpr ⟨hs, List.forall_mem_singleton.mpr hk⟩
    | set =>
      refine .bind (lined_text hb (by decide) hv) fun _ hs =>
        .bind (lined_text hb (by decide) hv) fun _ hk =>
        .bind (lined_text hb (by decide) hv) fun _ ht => .ok ?_
      exact List.forall_mem_cons.mpr
        ⟨hs, List.forall_mem_cons.mpr ⟨hk, List.forall_mem_singleton.mpr ht⟩⟩
    | reset => exact lined_of_texts_eq_nil rfl
    | _ => exact hnone _ _
  | target =>
    cases action with
    | reset | flash => exact lined_of_texts_eq_nil rfl
    | _ => exact hnone _ _
  | uart =>
    cases action with
    | connect | disconnect | get => exact lined_of_texts_eq_nil rfl
    | set => exact .bind (lined_uint32 hb (by decide)) fun _ _ => lined_of_texts_eq_nil rfl
    | _ => exact hnone _ _
  | probe =>
    cases action with
    | get => exact lined_of_texts_eq_nil rfl
    | simulate => exact .bind (lined_uint16 hb (by decide)) fun _ _ => lined_of_texts_eq_nil rfl
    | _ => exact hnone _ _
  | wheel =>
    cases action with
    | get => exact lined_of_texts_eq_nil rfl
    | simulate => exact .bind (lined_int64 hb (by decide)) fun _ _ => lined_of_texts_eq_nil rfl
    | _ => exact hnone _ _
  | oled =>
    cases action with
    | print =>
      exact .bind (lined_text hb (by decide) hv) fun _ ht => .ok (List.forall_mem_singleton.mpr ht)
    | clear | connect | disconnect => exact lined_of_texts_eq_nil rfl
    | _ => exact hnone _ _
  | display =>
    cases action with
    | print | get => exact lined_of_texts_eq_nil rfl
    | set =>
      exact .bind (lined_text hb (by decide) hv) fun _ ht =>
        .ok (List.forall_mem_singleton.mpr (singleLine_ofList_iff.mpr (isOneLine_lower ht)))
    | _ => exact hnone _ _
  | slot =>
    cases action with
    | load | save | clear =>
      exact .bind (lined_uint8 hb (by decide)) fun _ _ => lined_of_texts_eq_nil rfl
    | get => exact lined_of_texts_eq_nil rfl
    | _ => exact hnone _ _
  | panel =>
    cases action with
    | set => exact .bind (lined_uint8 hb (by decide)) fun _ _ => lined_of_texts_eq_nil rfl
    | get => exact lined_of_texts_eq_nil rfl
    | _ => exact hnone _ _

end Binding

/-! ## Runs -/

theorem Board.reads_of_inOneLine {board : Board}
    (h : InOneLine ((board.handle request).mapError Stop.fault)) :
    ∀ value ∈ request.reads? board.config, SingleLine value := by
  intro value hvalue
  unfold Request.reads? at hvalue
  split at hvalue
  · next sectionName key =>
    have hreply : board.handle (.config (.get sectionName key)) = .ok (.text value, board) := by
      simp only [Board.handle, ConfigStore.handle, Option.mem_def.mp hvalue]
      rfl
    rw [hreply] at h
    exact h value rfl
  · cases hvalue

theorem Response.singleLine_error_iff {kind : FailureKind} {message : String} :
    SingleLine (Response.error kind message).line ↔ SingleLine message := by
  have hmark : SingleLine errorMark ∧ SingleLine " " := by decide
  unfold line
  simp only [singleLine_append_iff, hmark, true_and]

theorem Response.singleLine_success_iff {value : Option String} :
    SingleLine (Response.success echo value).line ↔
      SingleLine echo ∧ ∀ text ∈ value, SingleLine text := by
  have hmarks : SingleLine successMark ∧ SingleLine " " ∧ SingleLine separator := by decide
  unfold line
  cases value <;> simp [hmarks]

namespace Bench

variable {x : Bench Board}

theorem singleLine_perform_iff :
    SingleLine (x.perform simulated echo request).1.line ↔
      SingleLine echo ∧ InOneLine ((x.device.handle request).mapError Stop.fault) := by
  have hresponse : (x.perform simulated echo request).1 =
      .ofReply echo ((settle x.device (x.device.handle request)).1.mapError Stop.fault) := by
    change Response.ofReply echo (simulated.handle request x.device).1 = _
    rw [simulated_handle]
    rfl
  have hcolon : SingleLine ": " := by decide
  rw [hresponse]
  cases x.device.handle request with
  | ok answered => exact Response.singleLine_success_iff
  | error stop =>
    refine Response.singleLine_error_iff.trans ?_
    simp only [singleLine_append_iff, hcolon, and_true]
    rfl

/-- The response to a command that reaches the hardware is a single line if and only if every
argument is one, and the value that it reads from the config table, if it reads one. -/
theorem singleLine_run_iff (hc : Command.parse text = .ok c) (hp : c.prepare = .ok (echo, request))
    (x : Bench Board) : SingleLine (x.run simulated text).1.line ↔
      (∀ a ∈ c.arguments, SingleLine a.value.plain) ∧
        ∀ value ∈ request.reads? x.device.config, SingleLine value := by
  rw [run_of_prepared x ((prepared_of_parse hc).trans hp), singleLine_perform_iff]
  obtain ⟨parameters, b, hs, hb, hrequest, rfl⟩ := Command.prepare_eq_ok_iff.mp hp
  have hbound := Binding.isBound_of_ofCommand hb
  have hread : ∀ a ∈ c.arguments, a.value.IsReadable := fun a ha =>
    (Command.isReadable_of_parse hc a ha).value
  have hecho := hbound.singleLine_echo_iff hs hread
  rw [hecho]
  refine and_congr_right fun harguments => ⟨reads_of_inOneLine, fun hreads => ?_⟩
  have hlined := Binding.lined_request (hecho.mpr harguments)
    (hbound.singleLine_values_iff.mpr harguments)
  rw [hrequest] at hlined
  exact inOneLine_handle hlined hreads

/-- A single line makes an echo and a request of single lines, or it is refused in one line. -/
theorem lined_prepared (hl : SingleLine (trimmed text)) :
    Lined (fun answer => SingleLine answer.1 ∧ ∀ text ∈ answer.2.texts, SingleLine text)
      (prepared text) := by
  have htrim : IsOneLine (trim text.toList) := singleLine_ofList_iff.mp hl
  cases hc : Command.parse text with
  | error failure =>
    rw [prepared, hc]
    exact singleLine_of_parse_error hc htrim
  | ok c =>
    have hlines := Command.inOneLine_of_parse hc htrim
    obtain ⟨parameters, hs⟩ := Option.isSome_iff_exists.mp (isSome_signature_of_parse hc)
    have hbinding : Lined (fun b => Binding.ofCommand c parameters = .ok b)
        (Binding.ofCommand c parameters) :=
      .of (fun _ hb => Binding.singleLine_of_ofCommand_error hlines hs hb) fun _ hb => hb
    rw [prepared_of_parse hc, Command.prepare, hs]
    refine hbinding.bind fun b hb => ?_
    have hbound := Binding.isBound_of_ofCommand hb
    have hvalues : ∀ a ∈ c.arguments, SingleLine a.value.plain := fun a ha =>
      (hlines.arguments a ha).value
    have hecho : SingleLine b.echo := (hbound.singleLine_echo_iff hs fun a ha =>
      (Command.isReadable_of_parse hc a ha).value).mpr hvalues
    have hrequest := Binding.lined_request hecho (hbound.singleLine_values_iff.mpr hvalues)
    exact hrequest.bind fun request htexts => ⟨hecho, htexts⟩

/-- A single line is answered in one line, and keeps the config table so, if the table holds single
lines. -/
theorem run_singleLine (hx : x.device.config.HoldsLines) (hl : SingleLine (trimmed text)) :
    SingleLine (x.run simulated text).1.line ∧
      (x.run simulated text).2.device.config.HoldsLines := by
  have hlined := lined_prepared hl
  cases hp : prepared text with
  | error failure =>
    rw [hp] at hlined
    rw [run_of_failed x hp]
    exact ⟨Response.singleLine_error_iff.mpr hlined, hx⟩
  | ok answer =>
    obtain ⟨echo, request⟩ := answer
    rw [hp] at hlined
    obtain ⟨hecho, htexts⟩ := hlined
    rw [run_of_prepared x hp]
    exact ⟨singleLine_perform_iff.mpr ⟨hecho, inOneLine_handle htexts (hx.reads request)⟩,
      hx.handle htexts⟩

theorem runAll_holdsLines (hx : x.device.config.HoldsLines) {texts : List String}
    (hl : ∀ text ∈ texts, SingleLine (trimmed text)) :
    (x.runAll simulated texts).2.device.config.HoldsLines := by
  induction texts generalizing x with
  | nil => exact hx
  | cons text texts ih =>
    obtain ⟨hfirst, hrest⟩ := List.forall_mem_cons.mp hl
    rw [runAll_cons]
    exact ih (run_singleLine hx hfirst).2 hrest

/-- A text that is no call is quoted whole. -/
theorem singleLine_run_of_not_isCall (x : Bench Board)
    (h : ∀ name body, ¬Grammar.IsCall (trim text.toList) name body) :
    SingleLine (x.run simulated text).1.line ↔ SingleLine (trimmed text) := by
  cases hsplit : Command.splitCall (trim text.toList) with
  | ok call =>
    obtain ⟨name, hcall, -⟩ := (Grammar.splitCall_eq_ok_iff (isTrimmed_trim _)).mp hsplit
    exact absurd hcall (h _ _)
  | error failure =>
    have hp : prepared text = .error failure := by
      rw [prepared, Command.parse, Command.ofChars, hsplit]
      rfl
    rw [run_of_failed x hp, trimmed, singleLine_ofList_iff, ← singleLine_of_splitCall_error hsplit]
    exact Response.singleLine_error_iff

end Bench

/-! ## Relays -/

namespace Relay

/-- The response to a command text is a single line if the text is one, but for line ends around it,
and so was every text that was run before; the config table holds single lines then, too. A text
that is no call is quoted whole, so that each line end inside it is one of the response. The response
to a command that reaches the hardware is a single line if and only if all its arguments are, and
the value that it reads from the config table, if it reads one. -/
theorem response_singleLine {board : Board} (hb : board.SetUp) (protocol : Protocol)
    (history : List Operation) (text : String) :
    let start := Relay.new board protocol
    let e := start.after simulated history
    let ran := collect simulated (fun e op => (op.effects simulated e).ran) start history
    let response := (e.execute simulated text).1
    ((∀ earlier ∈ ran, SingleLine (trimmed earlier)) → e.bench.device.config.HoldsLines ∧
      (SingleLine (trimmed text) → SingleLine response.line)) ∧
    ((∀ name body, ¬Grammar.IsCall (trim text.toList) name body) →
      (SingleLine response.line ↔ SingleLine (trimmed text))) ∧
    ∀ c echo request, Command.parse text = .ok c → c.prepare = .ok (echo, request) →
      (SingleLine response.line ↔ (∀ a ∈ c.arguments, SingleLine a.value.plain) ∧
        ∀ value ∈ request.reads? e.bench.device.config, SingleLine value) := by
  intro start e ran response
  have hreachable : Reachable simulated e := (Reachable.new board protocol).after history
  have hresponse : response = (e.bench.run simulated text).1 := (hreachable.execute_eq text).1
  rw [hresponse]
  refine ⟨fun hran => ?_, Bench.singleLine_run_of_not_isCall _, fun c echo request hc hp =>
    Bench.singleLine_run_iff hc hp _⟩
  have htable : e.bench.device.config.HoldsLines := by
    rw [(Reachable.new board protocol).bench_after history]
    exact Bench.runAll_holdsLines hb.holdsLines hran
  exact ⟨htable, fun htext => (Bench.run_singleLine htable htext).1⟩

/-- A line end inside a text makes a response of two lines, one behind it does not. -/
theorem response_singleLine_innerLine :
    let e := (Relay.new (Board.new {}) {}).after simulated [.execute "oled(connect)"]
    ¬SingleLine (e.execute simulated "oled(print, \"a\nb\")").1.line ∧
      SingleLine (e.execute simulated "oled(print, \"ab\")\n").1.line ∧
      ¬SingleLine (e.execute simulated "a\nb").1.line := by
  intro e
  have hboard : (Board.new {}).SetUp := .new {}
  have hresponse (text : String) := response_singleLine hboard {} [.execute "oled(connect)"] text
  have hprint : Command.parse "oled(print, \"a\nb\")" =
      .ok ⟨"oled", .oled, .print, "print", .keyword, [⟨none, .string "a\nb"⟩]⟩ := by rfl
  refine ⟨fun h => ?_, ?_, fun h => ?_⟩
  · obtain ⟨harguments, -⟩ := ((hresponse _).2.2 _ _ _ hprint rfl).mp h
    exact absurd (harguments _ (List.mem_singleton_self _)) (by decide)
  · obtain ⟨-, hline⟩ := (hresponse "oled(print, \"ab\")\n").1 (by decide)
    exact hline (by decide)
  · have hopen : '(' ∉ trim "a\nb".toList := by decide
    have hcall : ∀ name body, ¬Grammar.IsCall (trim "a\nb".toList) name body := fun name body hc =>
      hopen (hc.eq ▸ List.mem_append_right name List.mem_cons_self)
    exact absurd (((hresponse "a\nb").2.1 hcall).mp h) (by decide)

/-- Responses quote line ends as they stand. -/
theorem not_forall_response_singleLine : ¬∀ board : Board, board.SetUp → ∀ (protocol : Protocol)
    (history : List Operation) (text : String),
    let e := (Relay.new board protocol).after simulated history
    SingleLine (e.execute simulated text).1.line := by
  intro h
  have hline := h (.new {}) (.new {}) {} [.execute "oled(connect)"] "oled(print, \"a\nb\")"
  revert hline
  decide

end Relay

end BenchConsole
