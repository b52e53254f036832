import BenchConsole.Proofs.Bench
import BenchConsole.Proofs.Binding.Echo
import BenchConsole.Proofs.Binding.Request

/-!
# Echoes read as commands

The echo of a bound command is itself a command text. It calls the category by its own name, with
the action's own name as the keyword and every value behind the name of its parameter. All values
are read back as they were, only a level comes back as its word (`ParameterKind.replayed`).

`IsReplayable` says what it takes: names from the tables, and values that stay in one piece. Then
the echo is read as `Binding.replay` (`IsReplayable.parse_echo`), which fills the same places
(`IsReplayable.ofCommand_replay`). Levels are read alike from both, so the request is the same one,
and so is the echo (`Command.echo_replays`).
-/

namespace BenchConsole

open Text

variable {c : Command} {b : Binding} {parameters : List Parameter} {place : Place}
  {places : List Place} {kind : ParameterKind} {v : Literal} {category : Category} {action : Action}
  {name heading : String} {high : Bool}

/-! ## Levels -/

/-- The logic level that a value stands for. -/
def Literal.level? : Literal → Option Bool
  | bool high => some high
  | int v => some (v != 0)
  | string s => levelOfWord? s
  | _ => none

theorem upper_lower (cs : List Char) : upper (lower cs) = upper cs := by
  simp [upper, lower]

theorem upper_of_levelOfWord? {word : String} (h : levelOfWord? word = some high) :
    String.ofList (upper word.toList) = levelWord high := by
  have hupper {known : String} (hs : sameName word known) :
      upper word.toList = upper known.toList := by
    rw [← upper_lower, sameWord_iff.mp hs, upper_lower]
  unfold levelOfWord? at h
  split at h
  · next hs =>
    cases h
    rw [hupper hs]
    rfl
  split at h
  · next hs =>
    cases h
    rw [hupper hs]
    rfl
  · cases h

theorem levelOfWord?_levelWord (high : Bool) : levelOfWord? (levelWord high) = some high := by
  cases high <;> rfl

theorem upper_levelWord (high : Bool) :
    String.ofList (upper (levelWord high).toList) = levelWord high :=
  upper_of_levelOfWord? (levelOfWord?_levelWord high)

/-- A level is echoed as the word for what it stands for. -/
theorem exists_level (ha : ParameterKind.level.accepts v) :
    ∃ high, v.level? = some high ∧ Place.echoValue .level v = levelWord high := by
  cases v with
  | bool high => exact ⟨high, rfl, rfl⟩
  | int v => exact ⟨_, rfl, rfl⟩
  | string s =>
    obtain ⟨high, hhigh⟩ := Option.isSome_iff_exists.mp ha
    exact ⟨high, hhigh, upper_of_levelOfWord? hhigh⟩
  | absent => cases ha
  | float v => cases ha

theorem Binding.level_eq (hv : b.value? name = some v) (hl : v.level? = some high) :
    b.level name = .ok high := by
  rw [level, hv]
  cases v with
  | bool high =>
    obtain rfl := Option.some.inj hl
    rfl
  | int v =>
    obtain rfl := Option.some.inj hl
    rfl
  | string s =>
    have hword : levelOfWord? s = some high := hl
    simp only [hword]
  | absent => cases hl
  | float v => cases hl

/-! ## Values -/

/-- The value that the echo of a value reads as. -/
def ParameterKind.replayed (kind : ParameterKind) (v : Literal) : Literal :=
  if kind = .level then .string (Place.echoValue .level v) else v

/-- A value is echoed as the word of a level or the way it is written. -/
theorem echoValue_cases (ha : kind.accepts v) :
    (∃ high, kind = .level ∧ v.level? = some high ∧ Place.echoValue kind v = levelWord high ∧
      kind.replayed v = .string (levelWord high)) ∨
    (kind ≠ .level ∧ Place.echoValue kind v = v.render ∧ kind.replayed v = v) := by
  by_cases hkind : kind = .level
  · subst hkind
    obtain ⟨high, hhigh, hecho⟩ := exists_level ha
    exact .inl ⟨high, rfl, hhigh, hecho, congrArg Literal.string hecho⟩
  · refine .inr ⟨hkind, ?_, if_neg hkind⟩
    cases kind with
    | level => exact absurd rfl hkind
    | _ => rfl

theorem accepts_replayed (ha : kind.accepts v) : kind.accepts (kind.replayed v) := by
  rcases echoValue_cases ha with ⟨high, rfl, -, -, hv⟩ | ⟨-, -, hv⟩
  · rw [hv]
    exact Option.isSome_of_eq_some (levelOfWord?_levelWord high)
  · rwa [hv]

theorem echoValue_replayed (ha : kind.accepts v) :
    Place.echoValue kind (kind.replayed v) = Place.echoValue kind v := by
  rcases echoValue_cases ha with ⟨high, rfl, -, hecho, hv⟩ | ⟨-, -, hv⟩
  · rw [hv, hecho]
    exact upper_levelWord high
  · rw [hv]

theorem ofChars_echoValue (ha : kind.accepts v) (h : v.IsReadable) :
    Literal.ofChars (Place.echoValue kind v).toList = kind.replayed v := by
  rcases echoValue_cases ha with ⟨high, -, -, hecho, hv⟩ | ⟨-, hecho, hv⟩
  · rw [hecho, hv]
    cases high <;> rfl
  · rw [hecho, hv, Literal.render, String.toList_ofList]
    exact Literal.ofChars_chars h

/-- The text of an echoed value stays in one piece. -/
theorem whole_echoValue (ha : kind.accepts v) (h : v.IsReadable) (hm : v.OneMark) :
    Whole (Place.echoValue kind v).toList := by
  rcases echoValue_cases ha with ⟨high, -, -, hecho, -⟩ | ⟨-, hecho, -⟩
  · rw [hecho]
    exact (isWord_levelWord high).whole
  · rw [hecho, Literal.render, String.toList_ofList]
    exact Literal.whole_chars h hm

theorem isTrimmed_echoValue (ha : kind.accepts v) (h : v.IsReadable) :
    IsTrimmed (Place.echoValue kind v).toList ∧ (Place.echoValue kind v).toList ≠ [] := by
  rcases echoValue_cases ha with ⟨high, -, -, hecho, -⟩ | ⟨-, hecho, -⟩
  · rw [hecho]
    refine ⟨(isWord_levelWord high).isTrimmed, ?_⟩
    cases high <;> decide
  · rw [hecho, Literal.render, String.toList_ofList]
    exact ⟨Literal.isTrimmed_chars h, Literal.chars_ne_nil h⟩

/-! ## Places -/

namespace Place

/-- A place with the value that its echo reads as. -/
def replayed (place : Place) : Place :=
  { place with value := place.value.map place.parameter.kind.replayed }

def emptied (place : Place) : Place :=
  { place with value := none }

/-- The argument that the echo of a place reads as. -/
def argument? (place : Place) : Option Argument :=
  place.value.map fun v => ⟨some place.parameter.name, place.parameter.kind.replayed v⟩

/-- The echo of a place, without what sets it off from the one before it. -/
def piece? (place : Place) : Option (List Char) :=
  place.value.map fun v =>
    place.parameter.name.toList ++ '=' :: (echoValue place.parameter.kind v).toList

/-- A place whose echo reads as an argument. -/
structure IsReplayable (place : Place) : Prop where
  name : IsTableName place.parameter.name
  accepted : ∀ v ∈ place.value, place.parameter.kind.accepts v
  readable : ∀ v ∈ place.value, v.IsReadable
  oneMark : ∀ v ∈ place.value, v.OneMark

theorem echo_replayed (h : place.IsReplayable) : place.replayed.echo = place.echo := by
  obtain ⟨parameter, value⟩ := place
  cases value with
  | none => rfl
  | some v =>
    have hecho := echoValue_replayed (h.accepted v rfl)
    simp only [echo, replayed, Option.map_some, hecho]

theorem fault?_replayed (h : place.IsReplayable)
    (hs : place.parameter.required → place.value ≠ none) :
    place.replayed.fault? heading = none := by
  rw [Binding.fault?_eq_none_iff]
  constructor
  · intro v hv
    obtain ⟨w, hw, rfl⟩ := Option.map_eq_some_iff.mp hv
    exact accepts_replayed (h.accepted w hw)
  · intro hr
    simpa [replayed] using hs hr

variable {piece : List Char}

theorem IsReplayable.whole_piece (h : place.IsReplayable) (hp : piece ∈ place.piece?) :
    Whole piece := by
  obtain ⟨v, hv, rfl⟩ := Option.map_eq_some_iff.mp hp
  have hvalue := whole_echoValue (h.accepted v hv) (h.readable v hv) (h.oneMark v hv)
  exact h.name.word.whole.append (.char rfl (by decide) hvalue)

theorem IsReplayable.isTrimmed_piece (h : place.IsReplayable) (hp : piece ∈ place.piece?) :
    IsTrimmed piece ∧ piece ≠ [] := by
  obtain ⟨v, hv, rfl⟩ := Option.map_eq_some_iff.mp hp
  obtain ⟨htrim, hne⟩ := isTrimmed_echoValue (h.accepted v hv) (h.readable v hv)
  refine ⟨⟨fun c hc => ?_, fun c hc => ?_⟩, by simp⟩
  · obtain ⟨d, ds, hds⟩ := List.exists_cons_of_ne_nil h.name.ne_nil
    refine h.name.word.isTrimmed.head c ?_
    simpa [hds] using hc
  · obtain ⟨d, ds, hds⟩ := List.exists_cons_of_ne_nil hne
    refine htrim.last c ?_
    simpa [hds] using hc

theorem IsReplayable.ofChars_piece (h : place.IsReplayable) (hp : piece ∈ place.piece?) :
    some (Argument.ofChars piece) = place.argument? := by
  have htrim := (h.isTrimmed_piece hp).1.trim_eq
  obtain ⟨v, hv, rfl⟩ := Option.map_eq_some_iff.mp hp
  have hname := h.name.word.isTrimmed.trim_eq
  have hplain : ∀ c ∈ place.parameter.name.toList, Argument.endsName c = false := by
    intro c hc
    rw [← Bool.not_eq_true, Argument.endsName_iff]
    rintro (rfl | hq | rfl | rfl)
    · exact h.name.word.not_mem rfl hc
    · simp [h.name.word.isQuote_eq_false c hc] at hq
    · exact h.name.word.not_mem rfl hc
    · exact h.name.word.not_mem rfl hc
  rw [Argument.ofChars_named htrim hplain (hname.symm ▸ h.name.ne_nil), hname,
    ofChars_echoValue (h.accepted v hv) (h.readable v hv), Argument.named,
    bounded_eq_self_iff.mpr h.name.short.le, String.ofList_toList, argument?, hv]
  rfl

end Place

/-! ## The echo as a text -/

/-- Pieces are joined by putting a comma and a space in front of each but the first. -/
theorem Text.joinPieces_cons (piece : List Char) (pieces : List (List Char)) :
    joinPieces (piece :: pieces) = piece ++ pieces.flatMap fun other => ',' :: ' ' :: other := by
  induction pieces generalizing piece with
  | nil => simp [joinPieces]
  | cons other pieces ih =>
    rw [joinPieces_cons_cons, ih]
    rfl

namespace Binding

/-- A binding whose echo reads as a command. -/
structure IsReplayable (b : Binding) : Prop where
  keyword : (b.action.name, b.action) ∈ b.category.keywords
  places : ∀ place ∈ b.places, place.IsReplayable
  distinct : (b.places.map fun place => lower place.parameter.name.toList).Nodup
  length : b.places.length < Command.maxPieces

/-- The command that the echo of a binding reads as. -/
def replay (b : Binding) : Command where
  function := b.category.name
  category := b.category
  action := b.action
  actionText := b.action.name
  form := .keyword
  arguments := b.places.filterMap Place.argument?

/-- A binding with the values that its echo reads as. -/
def replayed (b : Binding) : Binding :=
  { b with places := b.places.map Place.replayed }

/-- The pieces between the parentheses of the echo. -/
def pieces (b : Binding) : List (List Char) :=
  b.action.name.toList :: b.places.filterMap Place.piece?

theorem echo_eq_joinPieces (b : Binding) :
    b.echo.toList = b.category.name.toList ++ '(' :: (joinPieces b.pieces ++ [')']) := by
  have hplace (place : Place) : place.echo.toList =
      place.piece?.toList.flatMap fun piece => ',' :: ' ' :: piece := by
    rw [Place.echo, Place.piece?]
    cases place.value with
    | none => rfl
    | some v => simp
  have hplaces (places : List Place) : places.flatMap (fun place => place.echo.toList) =
      (places.filterMap Place.piece?).flatMap fun piece => ',' :: ' ' :: piece := by
    induction places with
    | nil => rfl
    | cons place places ih =>
      rw [List.flatMap_cons, ih, hplace, List.filterMap_cons]
      cases place.piece? <;> simp
  rw [echo_toList, pieces, joinPieces_cons, hplaces]

namespace IsReplayable

theorem hasPieces (h : b.IsReplayable) :
    Grammar.HasPieces (joinPieces b.pieces) b.pieces ∧ Grammar.Admissible b.pieces := by
  have hname := Category.isTableName_keyword _ _ h.keyword
  have hpiece : ∀ piece ∈ b.pieces, Whole piece ∧ IsTrimmed piece ∧ piece ≠ [] := by
    intro piece hp
    rcases List.mem_cons.mp hp with rfl | hp
    · exact ⟨hname.word.whole, hname.word.isTrimmed, hname.ne_nil⟩
    · obtain ⟨place, hplace, hp⟩ := List.mem_filterMap.mp hp
      exact ⟨(h.places place hplace).whole_piece hp, (h.places place hplace).isTrimmed_piece hp⟩
  refine ⟨Grammar.hasPieces_joinPieces (keepApart_of_whole fun piece hp => (hpiece piece hp).1)
    fun piece hp => (hpiece piece hp).2, ?_, fun hnil => (hpiece [] hnil).2.2 rfl⟩
  exact Nat.succ_le_of_lt ((List.length_filterMap_le _ _).trans_lt h.length)

theorem map_ofChars (h : b.IsReplayable) :
    (b.places.filterMap Place.piece?).map Argument.ofChars = b.replay.arguments := by
  have hplaces := h.places
  rw [replay, List.map_filterMap]
  refine List.filterMap_congr fun place hp => ?_
  cases hpiece : place.piece? with
  | none =>
    have hvalue : place.value = none := Option.map_eq_none_iff.mp hpiece
    rw [Place.argument?, hvalue]
    rfl
  | some piece => exact (hplaces place hp).ofChars_piece hpiece

/-- The echo is accepted, and what it reads as is known. -/
theorem parse_echo (h : b.IsReplayable) : Command.parse b.echo = .ok b.replay := by
  obtain ⟨hword, hne⟩ := b.category.isWord_name
  have hcall := @Grammar.isCall_of_isWord _ (joinPieces b.pieces) hword hne
  rw [← echo_eq_joinPieces] at hcall
  have hname : sameName b.category.name (String.ofList (trim b.category.name.toList)) := by
    rw [hword.isTrimmed.trim_eq, String.ofList_toList]
    exact sameWord_iff.mpr rfl
  have hselects : Grammar.Selects b.category b.action.name.toList b.action :=
    Grammar.selects_of_sameName h.keyword (sameWord_iff.mpr rfl)
  have hread := @Grammar.ofPieces_keyword _ (b.places.filterMap Place.piece?) _
    ⟨b.category.name, b.category, .keyword⟩ b.category.name rfl hselects
  rw [h.map_ofChars, String.ofList_toList] at hread
  rw [Command.parse, Grammar.ofChars_of_isCall hcall (FunctionTable.mem_entries_name _) hname,
    Grammar.checkedPieces_eq_ok_iff.mpr h.hasPieces, hword.isTrimmed.trim_eq, String.ofList_toList]
  simp only [bind, Except.bind, pieces, hread, replay]

end IsReplayable

/-! ## The places of the echo -/

theorem fillNamed_of_distinct {done rest : List Place} {parameter : Parameter}
    (hn : ∀ place ∈ done, sameName place.parameter.name parameter.name = false) (v : Literal) :
    fillNamed heading (done ++ ⟨parameter, none⟩ :: rest) parameter.name v =
      .ok (done ++ ⟨parameter, some v⟩ :: rest) := by
  have hself : sameName parameter.name parameter.name := sameWord_iff.mpr rfl
  have hfind : (done ++ ⟨parameter, none⟩ :: rest).findIdx?
      (fun place => sameName place.parameter.name parameter.name) = some done.length := by
    rw [List.findIdx?_append, List.findIdx?_eq_none_iff.mpr hn, List.findIdx?_cons, hself]
    simp
  simp [fillNamed, hfind]

/-- The arguments of an echo fill the empty places one after the other. -/
theorem foldlM_placeNamed_replayed {done : List Place}
    (hn : ((done ++ places).map fun place => lower place.parameter.name.toList).Nodup) :
    (places.filterMap Place.argument?).foldlM (placeNamed heading)
        (done ++ places.map Place.emptied) =
      .ok (done ++ places.map Place.replayed) := by
  induction places generalizing done with
  | nil => rfl
  | cons place places ih =>
    obtain ⟨parameter, value⟩ := place
    have hrest := @ih (done ++ [Place.replayed ⟨parameter, value⟩]) (by
      rwa [List.append_assoc, List.map_append] at *)
    rw [List.append_assoc, List.append_assoc] at hrest
    cases value with
    | none => exact hrest
    | some v =>
      have hfresh : ∀ place ∈ done, sameName place.parameter.name parameter.name = false := by
        intro place hp
        rw [← Bool.not_eq_true]
        intro hs
        rw [List.map_append, List.nodup_append] at hn
        exact hn.2.2 _ (List.mem_map_of_mem hp) _ List.mem_cons_self (sameWord_iff.mp hs)
      have hfirst : placeNamed heading (done ++ ⟨parameter, none⟩ :: places.map Place.emptied)
          ⟨some parameter.name, parameter.kind.replayed v⟩ =
            .ok (done ++ Place.replayed ⟨parameter, some v⟩ :: places.map Place.emptied) :=
        fillNamed_of_distinct hfresh _
      have harguments : (⟨parameter, some v⟩ :: places).filterMap Place.argument? =
          ⟨some parameter.name, parameter.kind.replayed v⟩ :: places.filterMap Place.argument? :=
        rfl
      rw [harguments, List.foldlM_cons]
      exact (congrArg (· >>= _) hfirst).trans hrest

namespace IsReplayable

/-- The echo binds the values that it reads as. -/
theorem ofCommand_replay (h : b.IsReplayable)
    (hs : ∀ place ∈ b.places, place.parameter.required → place.value ≠ none) :
    ofCommand b.replay (b.places.map Place.parameter) = .ok b.replayed := by
  rw [ofCommand_eq_ok_iff]
  refine ⟨b.places.map Place.replayed, ?_, ?_, rfl⟩
  · have hnamed : ∀ a ∈ b.replay.arguments, ¬(a.name.isNone : Bool) := by
      intro a ha
      obtain ⟨place, -, ha⟩ := List.mem_filterMap.mp ha
      obtain ⟨v, -, rfl⟩ := Option.map_eq_some_iff.mp ha
      exact Bool.false_ne_true
    have hnone : b.replay.positional = [] := by
      rw [Command.positional, List.filter_eq_nil_iff.mpr hnamed, List.map_nil]
    have hempty : fillPositional (b.places.map Place.parameter) [] =
        some (b.places.map Place.emptied) := by
      rw [fillPositional, List.map_map]
      rfl
    simp only [fill, hnone, hempty]
    exact @foldlM_placeNamed_replayed b.places b.replay.heading [] h.distinct
  · intro other ho
    obtain ⟨place, hp, rfl⟩ := List.mem_map.mp ho
    exact Place.fault?_replayed (h.places place hp) (hs place hp)

theorem echo_replayed (h : b.IsReplayable) : b.replayed.echo = b.echo := by
  have hplaces : b.replayed.places.map Place.echo = b.places.map Place.echo := by
    rw [replayed, List.map_map]
    exact List.map_congr_left fun place hp => Place.echo_replayed (h.places place hp)
  rw [echo, echo, hplaces]
  rfl

end IsReplayable

/-! ## The request of the echo -/

theorem replayed_eq_self (h : ∀ place ∈ b.places, place.parameter.kind ≠ .level) :
    b.replayed = b := by
  have hplaces : b.places.map Place.replayed = b.places := by
    conv => rhs; rw [← List.map_id b.places]
    refine List.map_congr_left fun place hp => ?_
    have hkind : place.parameter.kind.replayed = id := funext fun v => if_neg (h place hp)
    rw [Place.replayed, hkind, Option.map_id]
    rfl
  rw [replayed, hplaces]

/-- Only pins are set to a level. -/
theorem eq_gpio_set_of_level (hs : signature category action = some parameters) :
    (∃ p ∈ parameters, p.kind = .level) → category = .gpio ∧ action = .set ∧
      parameters = [⟨"pin", .int, true⟩, ⟨"value", .level, true⟩] :=
  forall_signature (fun category action parameters => (∃ p ∈ parameters, p.kind = .level) →
    category = .gpio ∧ action = .set ∧
      parameters = [⟨"pin", .int, true⟩, ⟨"value", .level, true⟩]) (by decide +kernel) hs

theorem IsBound.value?_replayed (hb : IsBound c parameters b)
    (hn : (parameters.map Parameter.name).Nodup) {p : Parameter} (hp : p ∈ parameters) :
    b.replayed.value? p.name = (b.value? p.name).map p.kind.replayed := by
  rw [← hb.parameters] at hn hp
  obtain ⟨place, hplace, rfl⟩ := List.mem_map.mp hp
  rw [List.map_map] at hn
  have hn' : (b.replayed.places.map fun place => place.parameter.name).Nodup := by
    rw [replayed, List.map_map]
    exact hn
  rw [value?_eq hn hplace]
  exact value?_eq hn' (List.mem_map_of_mem hplace)

theorem request_gpio_set (hc : b.category = .gpio) (ha : b.action = .set) :
    b.request = (do return .gpio (.set (← b.uint8 "pin") (← b.level "value"))) := by
  obtain ⟨category, action, places⟩ := b
  subst hc ha
  rfl

/-- A level is read from its word as from the value itself, so the request is the same. -/
theorem IsBound.request_replayed (hb : IsBound c parameters b)
    (hs : signature c.category c.action = some parameters) : b.replayed.request = b.request := by
  by_cases hlevel : ∃ p ∈ parameters, p.kind = .level
  · obtain ⟨hcategory, haction, rfl⟩ := eq_gpio_set_of_level hs hlevel
    have hn := nodup_parameters hs
    have hpin : b.replayed.value? "pin" = b.value? "pin" :=
      (hb.value?_replayed hn List.mem_cons_self).trans (Option.map_id_apply)
    have hvalue : b.replayed.value? "value" = (b.value? "value").map ParameterKind.level.replayed :=
      hb.value?_replayed hn (.tail _ (.head _))
    obtain ⟨haccepted, hsupplied⟩ := hb.received hn (.tail _ (.head _))
    obtain ⟨v, hv⟩ := Option.ne_none_iff_exists'.mp (hsupplied rfl)
    obtain ⟨high, hhigh, hecho⟩ := exists_level (haccepted v hv)
    have hword : b.replayed.value? "value" = some (.string (levelWord high)) := by
      rw [hvalue, hv, ← hecho]
      rfl
    have hsame : b.replayed.level "value" = b.level "value" :=
      (level_eq hword (levelOfWord?_levelWord high)).trans (level_eq hv hhigh).symm
    obtain ⟨i, hi⟩ := (hb.received hn List.mem_cons_self).exists_int
    have hint : b.replayed.int64 "pin" = b.int64 "pin" := by rw [int64, int64, hpin, hi]
    have hread : b.replayed.uint8 "pin" = b.uint8 "pin" := by
      rw [uint8, unsigned, hint]
      rfl
    have hset := hb.category.trans hcategory
    have hto := hb.action.trans haction
    rw [request_gpio_set hset hto, @request_gpio_set b.replayed hset hto, hread, hsame]
  · rw [replayed_eq_self fun place hp hkind =>
      hlevel ⟨_, hb.parameters ▸ List.mem_map_of_mem hp, hkind⟩]

theorem name_mem_keywords (hs : signature category action = some parameters) :
    (action.name, action) ∈ category.keywords :=
  forall_signature (fun category action _ => (action.name, action) ∈ category.keywords)
    (by decide +kernel) hs

/-- The echo of a binding reads as a command if no value holds both quotation marks. -/
theorem IsBound.isReplayable (hb : IsBound c parameters b)
    (hs : signature c.category c.action = some parameters)
    (hread : ∀ a ∈ c.arguments, a.value.IsReadable) (hm : ∀ a ∈ c.arguments, a.value.OneMark) :
    b.IsReplayable := by
  have htable := forall_signature (fun _ _ parameters => (∀ p ∈ parameters, IsTableName p.name) ∧
    parameters.length < Command.maxPieces) (by decide +kernel) hs
  obtain ⟨hnames, hlength⟩ := htable
  have hdistinct := nodup_lower_parameters hs
  rw [← hb.parameters] at hnames hdistinct hlength
  refine ⟨?_, fun place hp => ⟨?_, hb.accepted place hp, ?_, ?_⟩, ?_, ?_⟩
  · rw [hb.category, hb.action]
    exact name_mem_keywords hs
  · exact hnames _ (List.mem_map_of_mem hp)
  · intro v hv
    obtain ⟨a, ha, rfl⟩ := hb.exists_argument hp hv
    exact hread a ha
  · intro v hv
    obtain ⟨a, ha, rfl⟩ := hb.exists_argument hp hv
    exact hm a ha
  · rwa [List.map_map] at hdistinct
  · rwa [List.length_map] at hlength

end Binding

/-! ## Replaying -/

namespace Command

variable {text echo : String} {request : Board.Request} {σ : Type}

/-- The echo of a prepared command is a command text for the same request and with the same echo,
so running it is the same as running the text, on any hardware. -/
theorem echo_replays (h : Hardware σ) (x : Bench σ) (hc : Command.parse text = .ok c)
    (hm : ∀ a ∈ c.arguments, a.value.OneMark) (hp : c.prepare = .ok (echo, request)) :
    (∃ d, Command.parse echo = .ok d ∧ d.prepare = .ok (echo, request)) ∧
      x.requests h [text] = [request] ∧ x.requests h [echo] = [request] ∧
      x.run h echo = x.run h text := by
  obtain ⟨parameters, b, hs, hb, hrequest, rfl⟩ := prepare_eq_ok_iff.mp hp
  have hbound := Binding.isBound_of_ofCommand hb
  have hr := hbound.isReplayable hs (fun a ha => (isReadable_of_parse hc a ha).value) hm
  have hagain := hr.ofCommand_replay hbound.supplied
  rw [hbound.parameters] at hagain
  have hreplay : b.replay.prepare = .ok (b.echo, request) := by
    refine prepare_eq_ok_iff.mpr ⟨parameters, b.replayed, ?_, hagain, ?_, hr.echo_replayed⟩
    · rw [← hs, ← hbound.category, ← hbound.action]
      rfl
    · rw [hbound.request_replayed hs, hrequest]
  have htext : Bench.prepared text = .ok (b.echo, request) := (Bench.prepared_of_parse hc).trans hp
  have hecho : Bench.prepared b.echo = .ok (b.echo, request) :=
    (Bench.prepared_of_parse hr.parse_echo).trans hreplay
  have hrequests {text : String} (ht : Bench.prepared text = .ok (b.echo, request)) :
      x.requests h [text] = [request] := by
    rw [Bench.requests_eq, List.filterMap_cons, Bench.request?_eq, ht]
    rfl
  refine ⟨⟨b.replay, hr.parse_echo, hreplay⟩, hrequests htext, hrequests hecho, ?_⟩
  rw [Bench.run_of_prepared x htext, Bench.run_of_prepared x hecho]

/-- A level by its word and by name, before the pin it is for. -/
theorem echo_replays_setGpio :
    let c : Command := ⟨"setGpio", .gpio, .set, "set", .verb,
      [⟨some "Value", .string "high"⟩, ⟨none, .int 7⟩]⟩
    let x : Bench Board := ⟨Board.new {}, {}⟩
    Command.parse "setGpio(Value=high, 7)" = .ok c ∧ (∀ a ∈ c.arguments, a.value.OneMark) ∧
      c.prepare = .ok ("gpio(set, pin=7, value=HIGH)", .gpio (.set 7 true)) ∧
      x.requests Board.simulated ["gpio(set, pin=7, value=HIGH)"] = [.gpio (.set 7 true)] ∧
      x.run Board.simulated "gpio(set, pin=7, value=HIGH)" =
        x.run Board.simulated "setGpio(Value=high, 7)" := by
  intro c x
  have hc : Command.parse "setGpio(Value=high, 7)" = .ok c := by rfl
  have hm : ∀ a ∈ c.arguments, a.value.OneMark := by decide
  have hp : c.prepare = .ok ("gpio(set, pin=7, value=HIGH)", .gpio (.set 7 true)) := by rfl
  obtain ⟨-, -, hrequests, hrun⟩ := echo_replays Board.simulated x hc hm hp
  exact ⟨hc, hm, hp, hrequests, hrun⟩

end Command

end BenchConsole
