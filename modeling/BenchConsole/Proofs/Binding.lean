import BenchConsole.Bench
import Mathlib.Data.List.Basic
import Mathlib.Data.List.Nodup
import Mathlib.Data.List.Perm.Basic

/-!
# Arguments at their parameters

What a binding holds is said by `IsBound`: the parameters of the signature in their order, with
the values of all arguments, each at one place; every value is of its parameter's kind, and every
required parameter has one. Whatever `Binding.ofCommand` gives is such a binding
(`isBound_of_ofCommand`), so nothing behind it looks at how the places were filled.
-/

namespace BenchConsole

open Text

theorem bind_eq_ok_iff {ε α β : Type} {x : Except ε α} {f : α → Except ε β} {b : β} :
    (x >>= f) = .ok b ↔ ∃ a, x = .ok a ∧ f a = .ok b := by
  cases x with
  | error e => exact ⟨fun h => (by cases h), fun ⟨_, h, _⟩ => by cases h⟩
  | ok a => exact ⟨fun h => ⟨a, rfl, h⟩, fun ⟨_, h, hf⟩ => by cases h; exact hf⟩

theorem bind_eq_error_iff {ε α β : Type} {x : Except ε α} {f : α → Except ε β} {e : ε} :
    (x >>= f) = .error e ↔ x = .error e ∨ ∃ a, x = .ok a ∧ f a = .error e := by
  cases x with
  | error e' => simp [bind, Except.bind]
  | ok a => simp [bind, Except.bind]

variable {category : Category} {action : Action} {parameters : List Parameter}

theorem Category.mem_all (category : Category) : category ∈ Category.all := by
  cases category <;> decide

theorem Action.mem_all (action : Action) : action ∈ Action.all := by
  cases action <;> decide

/-- What holds of all signatures in the table holds of every signature. -/
theorem forall_signature (P : Category → Action → List Parameter → Prop)
    (hall : ∀ category ∈ Category.all, ∀ action ∈ Action.all,
      ∀ parameters ∈ signature category action, P category action parameters)
    (h : signature category action = some parameters) : P category action parameters :=
  hall category category.mem_all action action.mem_all parameters h

/-- The parameters of a signature differ in more than the case of their letters. -/
theorem nodup_lower_parameters (h : signature category action = some parameters) :
    (parameters.map fun p => lower p.name.toList).Nodup :=
  forall_signature (fun _ _ parameters => (parameters.map fun p => lower p.name.toList).Nodup)
    (by decide +kernel) h

theorem nodup_parameters (h : signature category action = some parameters) :
    (parameters.map Parameter.name).Nodup := by
  have hlower : ((parameters.map Parameter.name).map fun name => lower name.toList).Nodup := by
    rw [List.map_map]
    exact nodup_lower_parameters h
  exact List.Nodup.of_map _ hlower

namespace Binding

/-- What it takes for a binding to be one of a command. -/
structure IsBound (c : Command) (parameters : List Parameter) (b : Binding) : Prop where
  category : b.category = c.category
  action : b.action = c.action
  parameters : b.places.map Place.parameter = parameters
  values : (b.places.filterMap Place.value).Perm (c.arguments.map Argument.value)
  accepted : ∀ place ∈ b.places, ∀ v ∈ place.value, place.parameter.kind.accepts v
  supplied : ∀ place ∈ b.places, place.parameter.required → place.value ≠ none

variable {c : Command} {b : Binding} {values : List Literal} {heading name : String}
  {places places' : List Place} {v : Literal}

/-! ## Filling places -/

theorem fillPositional_spec (h : fillPositional parameters values = some places) :
    places.map Place.parameter = parameters ∧ places.filterMap Place.value = values := by
  induction parameters generalizing values places with
  | nil =>
    cases values with
    | nil =>
      obtain rfl := Option.some.inj h
      exact ⟨rfl, rfl⟩
    | cons v values => cases h
  | cons p parameters ih =>
    cases values with
    | nil =>
      obtain rfl := Option.some.inj h
      refine ⟨?_, ?_⟩
      · rw [List.map_map]
        exact List.map_id _
      · rw [List.filterMap_eq_nil_iff]
        intro place hplace
        obtain ⟨_, -, rfl⟩ := List.mem_map.mp hplace
        rfl
    | cons v values =>
      obtain ⟨rest, hrest, rfl⟩ := Option.map_eq_some_iff.mp h
      obtain ⟨rfl, rfl⟩ := ih hrest
      exact ⟨rfl, rfl⟩

/-- A value by name goes to an empty place and leaves all others as they are. -/
theorem fillNamed_spec (h : fillNamed heading places name v = .ok places') :
    places'.map Place.parameter = places.map Place.parameter ∧
      (places'.filterMap Place.value).Perm (v :: places.filterMap Place.value) := by
  unfold fillNamed at h
  split at h
  · cases h
  next i hfind =>
  obtain ⟨hi, -, -⟩ := List.findIdx?_eq_some_iff_getElem.mp hfind
  split at h
  · next parameter hget =>
    obtain rfl := Except.ok.inj h
    have hplaces : places = places.take i ++ ⟨parameter, none⟩ :: places.drop (i + 1) := by
      obtain ⟨_, hgetElem⟩ := List.getElem?_eq_some_iff.mp hget
      rw [← hgetElem, List.getElem_cons_drop, List.take_append_drop]
    have hset : places.set i ⟨parameter, some v⟩ =
        places.take i ++ ⟨parameter, some v⟩ :: places.drop (i + 1) := by
      rw [List.set_eq_take_append_cons_drop, if_pos hi]
    rw [hset]
    generalize places.take i = before at hplaces ⊢
    generalize places.drop (i + 1) = after at hplaces ⊢
    subst hplaces
    refine ⟨by simp, ?_⟩
    simp only [List.filterMap_append, List.filterMap_cons]
    exact List.perm_middle
  · cases h
  · next hget => exact absurd hi (Nat.not_lt.mpr (List.getElem?_eq_none_iff.mp hget))

/-- Going through the arguments places every value that is passed by name. -/
theorem foldlM_placeNamed_spec {arguments : List Argument}
    (h : arguments.foldlM (placeNamed heading) places = .ok places') :
    places'.map Place.parameter = places.map Place.parameter ∧
      (places'.filterMap Place.value).Perm
        ((arguments.filter fun a => !a.name.isNone).map Argument.value ++
          places.filterMap Place.value) := by
  induction arguments generalizing places with
  | nil =>
    obtain rfl := Except.ok.inj h
    exact ⟨rfl, .refl _⟩
  | cons a arguments ih =>
    rw [List.foldlM_cons, bind_eq_ok_iff] at h
    obtain ⟨next, hnext, hrest⟩ := h
    obtain ⟨hparameters, hvalues⟩ := ih hrest
    unfold placeNamed at hnext
    split at hnext
    · next name hname =>
      obtain ⟨hp, hv⟩ := fillNamed_spec hnext
      refine ⟨hparameters.trans hp, hvalues.trans ?_⟩
      rw [List.filter_cons_of_pos (by simp [hname]), List.map_cons, List.cons_append]
      exact (hv.append_left _).trans List.perm_middle
    · next hname =>
      obtain rfl := Except.ok.inj hnext
      rw [List.filter_cons_of_neg (by simp [hname])]
      exact ⟨hparameters, hvalues⟩

theorem fill_spec (h : fill c parameters = .ok places) :
    places.map Place.parameter = parameters ∧
      (places.filterMap Place.value).Perm (c.arguments.map Argument.value) := by
  unfold fill at h
  split at h
  · cases h
  next first hfirst =>
  obtain ⟨rfl, hpositional⟩ := fillPositional_spec hfirst
  obtain ⟨hparameters, hvalues⟩ := foldlM_placeNamed_spec h
  refine ⟨hparameters, hvalues.trans ?_⟩
  rw [hpositional, Command.positional, ← List.map_append]
  exact (List.perm_append_comm.trans (List.filter_append_perm _ _)).map _

/-! ## Bound commands -/

theorem ofCommand_eq_ok_iff : ofCommand c parameters = .ok b ↔
    ∃ places, fill c parameters = .ok places ∧
      (∀ place ∈ places, place.fault? c.heading = none) ∧ b = ⟨c.category, c.action, places⟩ := by
  rw [ofCommand, bind_eq_ok_iff]
  refine exists_congr fun places => and_congr_right fun _ => ?_
  cases hfault : places.findSome? (Place.fault? c.heading) with
  | none =>
    have hall := List.findSome?_eq_none_iff.mp hfault
    exact ⟨fun h => ⟨hall, (Except.ok.inj h).symm⟩, fun h => congrArg Except.ok h.2.symm⟩
  | some e =>
    obtain ⟨place, hplace, he⟩ := List.exists_of_findSome?_eq_some hfault
    refine iff_of_false (by simp) fun h => ?_
    rw [h.1 place hplace] at he
    cases he

/-- A place without a fault holds a value of its kind, or none if it needs none. -/
theorem fault?_eq_none_iff {place : Place} : place.fault? heading = none ↔
    (∀ v ∈ place.value, place.parameter.kind.accepts v) ∧
      (place.parameter.required → place.value ≠ none) := by
  obtain ⟨parameter, value⟩ := place
  cases value with
  | none => simp [Place.fault?]
  | some v => simp [Place.fault?]

theorem isBound_of_ofCommand (h : ofCommand c parameters = .ok b) : IsBound c parameters b := by
  obtain ⟨places, hfill, hfault, rfl⟩ := ofCommand_eq_ok_iff.mp h
  obtain ⟨hparameters, hvalues⟩ := fill_spec hfill
  exact ⟨rfl, rfl, hparameters, hvalues,
    fun place hp => (fault?_eq_none_iff.mp (hfault place hp)).1,
    fun place hp => (fault?_eq_none_iff.mp (hfault place hp)).2⟩

/-! ## Failures -/

section

variable {failure : Failure}

theorem kind_of_fillNamed (h : fillNamed heading places name v = .error failure) :
    failure.kind = .invalidParameterType := by
  unfold fillNamed at h
  split at h
  · cases h
    rfl
  split at h
  · cases h
  · cases h
    rfl
  · cases h

theorem kind_of_foldlM {arguments : List Argument}
    (h : arguments.foldlM (placeNamed heading) places = .error failure) :
    failure.kind = .invalidParameterType := by
  induction arguments generalizing places with
  | nil => cases h
  | cons a arguments ih =>
    rw [List.foldlM_cons, bind_eq_error_iff] at h
    obtain h | ⟨next, -, h⟩ := h
    · unfold placeNamed at h
      split at h
      · exact kind_of_fillNamed h
      · cases h
    · exact ih h

theorem kind_of_fill (h : fill c parameters = .error failure) :
    failure.kind = .invalidParameterType := by
  unfold fill at h
  split at h
  · cases h
    rfl
  · exact kind_of_foldlM h

/-- A command that is not bound has an argument that no parameter accepts or lacks one. -/
theorem kind_of_ofCommand (h : ofCommand c parameters = .error failure) :
    failure.kind = .invalidParameterType ∨ failure.kind = .missingParameter := by
  rw [ofCommand, bind_eq_error_iff] at h
  obtain h | ⟨places, -, h⟩ := h
  · exact .inl (kind_of_fill h)
  · split at h
    · next e hfault =>
      cases h
      obtain ⟨place, -, hplace⟩ := List.exists_of_findSome?_eq_some hfault
      unfold Place.fault? at hplace
      repeat' split at hplace
      all_goals cases hplace
      · exact .inl rfl
      · exact .inr rfl
    · cases h

end

namespace IsBound

variable {place : Place}

/-- No value is at a place that was not passed as an argument. -/
theorem exists_argument (h : IsBound c parameters b) (hp : place ∈ b.places)
    (hv : place.value = some v) : ∃ a ∈ c.arguments, a.value = v :=
  List.mem_map.mp (h.values.subset (List.mem_filterMap.mpr ⟨place, hp, hv⟩))

/-- No argument is without a place. -/
theorem length_arguments_le (h : IsBound c parameters b) :
    c.arguments.length ≤ parameters.length := by
  have hlength := h.values.length_eq
  rw [List.length_map] at hlength
  rw [← hlength, ← h.parameters, List.length_map]
  exact List.length_filterMap_le _ _

end IsBound

end Binding

/-- A command is prepared by its binding to the signature of its action. -/
theorem Command.prepare_eq_ok_iff {c : Command} {echo : String} {request : Board.Request} :
    c.prepare = .ok (echo, request) ↔
      ∃ parameters b, signature c.category c.action = some parameters ∧
        Binding.ofCommand c parameters = .ok b ∧ b.request = .ok request ∧ b.echo = echo := by
  unfold Command.prepare
  cases signature c.category c.action with
  | none => simp
  | some parameters =>
    simp only [bind_eq_ok_iff, Option.some.injEq, pure, Except.pure, Except.ok.injEq,
      Prod.mk.injEq]
    constructor
    · rintro ⟨b, hb, r, hr, rfl, rfl⟩
      exact ⟨parameters, b, rfl, hb, hr, rfl⟩
    · rintro ⟨_, b, rfl, hb, hr, rfl⟩
      exact ⟨b, hb, request, hr, rfl, rfl⟩

end BenchConsole
