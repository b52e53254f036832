import BenchConsole.Proofs.Binding
import Mathlib.Data.List.Nodup

/-!
# Where arguments are placed

Each argument of a command is for the parameter of some number: by position for the next one in the
order of the parameters, by name for the one that has the name (`Command.deliveries`). `Delivered`
says that such deliveries can be made, each to a parameter of its own that is still without an
argument, and who has which argument then. Both loops that fill the places make deliveries
(`fill_eq_ok_iff`), so a fill is known from the deliveries alone and not from the order they are
made in.

`ofCommand_exact` says when a command is bound, where its arguments are then, and which kind of
failure is reported otherwise.
-/

namespace BenchConsole

open Text

/-- Those of some arguments that are passed by position, each with the number of its parameter, if
there is one. -/
def deliveriesByPosition (parameters : List Parameter) (arguments : List Argument) :
    List (Option Nat × Argument) :=
  (arguments.filter fun a => a.name.isNone).mapIdx fun i a =>
    (if i < parameters.length then some i else none, a)

/-- Those of some arguments that are passed by name, each with the number of the parameter that has
the name. -/
def deliveriesByName (parameters : List Parameter) (arguments : List Argument) :
    List (Option Nat × Argument) :=
  arguments.filterMap fun a => a.name.map fun name =>
    (parameters.findIdx? fun p => sameName p.name name, a)

/-- All arguments of a command, each with the number of the parameter that it is for. -/
def Command.deliveries (c : Command) (parameters : List Parameter) : List (Option Nat × Argument) :=
  deliveriesByPosition parameters c.arguments ++ deliveriesByName parameters c.arguments

variable {c : Command} {parameters : List Parameter} {p : Parameter} {heading name : String}
  {places : List Place} {failure : Failure} {i j : Nat} {a : Argument}
  {received all : Nat → Option Argument} {arguments : List Argument} {target : Option Nat}
  {deliveries rest : List (Option Nat × Argument)}

/-! ## Deliveries -/

/-- Deliveries to parameters, some of which have received an argument before: each goes to another
parameter, to one that is still without. -/
structure Delivered (received : Nat → Option Argument) (deliveries : List (Option Nat × Argument))
    (all : Nat → Option Argument) : Prop where
  free : ∀ x ∈ deliveries, ∃ i, x.1 = some i ∧ received i = none
  distinct : (deliveries.map Prod.fst).Nodup
  arguments : ∀ i a, all i = some a ↔ received i = some a ∨ (some i, a) ∈ deliveries

namespace Delivered

theorem update_eq_some_iff (hi : received i = none) (a a' : Argument) (j : Nat) :
    Function.update received i (some a) j = some a' ↔ received j = some a' ∨ (j = i ∧ a' = a) := by
  by_cases hj : j = i
  · subst hj
    simp [hi, eq_comm]
  · simp [hj]

theorem update_eq_none_iff :
    Function.update received i (some a) j = none ↔ j ≠ i ∧ received j = none := by
  by_cases hj : j = i
  · subst hj
    simp
  · simp [hj]

theorem nil_iff : Delivered received [] all ↔ all = received := by
  constructor
  · intro h
    exact funext fun i => Option.ext fun a => by simpa using h.arguments i a
  · rintro rfl
    exact ⟨nofun, .nil, by simp⟩

theorem cons_iff : Delivered received ((target, a) :: rest) all ↔
    ∃ i, target = some i ∧ received i = none ∧
      Delivered (Function.update received i (some a)) rest all := by
  constructor
  · rintro ⟨hfree, hdistinct, harguments⟩
    obtain ⟨⟨i, rfl, hi⟩, hrest⟩ := List.forall_mem_cons.mp hfree
    obtain ⟨hnew, hdistinct⟩ := List.nodup_cons.mp hdistinct
    refine ⟨i, rfl, hi, ⟨fun x hx => ?_, hdistinct, fun j a' => ?_⟩⟩
    · obtain ⟨j, hj, hnone⟩ := hrest x hx
      refine ⟨j, hj, update_eq_none_iff.mpr ⟨?_, hnone⟩⟩
      rintro rfl
      exact hnew (List.mem_map.mpr ⟨x, hx, hj⟩)
    · rw [harguments, update_eq_some_iff hi, List.mem_cons, Prod.mk.injEq, Option.some.injEq,
        or_assoc]
  · rintro ⟨i, rfl, hi, hfree, hdistinct, harguments⟩
    simp only [update_eq_none_iff] at hfree
    refine ⟨List.forall_mem_cons.mpr ⟨⟨i, rfl, hi⟩, fun x hx => ?_⟩,
      List.nodup_cons.mpr ⟨fun hmem => ?_, hdistinct⟩, fun j a' => ?_⟩
    · obtain ⟨j, hj, -, hnone⟩ := hfree x hx
      exact ⟨j, hj, hnone⟩
    · obtain ⟨x, hx, hxi⟩ := List.mem_map.mp hmem
      obtain ⟨j, hj, hne, -⟩ := hfree x hx
      exact hne (Option.some.inj (hj.symm.trans hxi))
    · rw [harguments, update_eq_some_iff hi, List.mem_cons, Prod.mk.injEq, Option.some.injEq,
        or_assoc]

theorem append_iff : Delivered received (deliveries ++ rest) all ↔
    ∃ before, Delivered received deliveries before ∧ Delivered before rest all := by
  induction deliveries generalizing received with
  | nil => simp [nil_iff]
  | cons x deliveries ih =>
    obtain ⟨target, a⟩ := x
    simp only [List.cons_append, cons_iff, ih]
    constructor
    · rintro ⟨i, ht, hi, before, hfirst, hrest⟩
      exact ⟨before, ⟨i, ht, hi, hfirst⟩, hrest⟩
    · rintro ⟨before, ⟨i, ht, hi, hfirst⟩, hrest⟩
      exact ⟨i, ht, hi, before, hfirst, hrest⟩

theorem unique (h : Delivered received deliveries all) {all' : Nat → Option Argument}
    (h' : Delivered received deliveries all') : all = all' :=
  funext fun i => Option.ext fun a => (h.arguments i a).trans (h'.arguments i a).symm

theorem exists_iff : (∃ all, Delivered received deliveries all) ↔
    (∀ x ∈ deliveries, ∃ i, x.1 = some i ∧ received i = none) ∧
      (deliveries.map Prod.fst).Nodup := by
  constructor
  · rintro ⟨all, h⟩
    exact ⟨h.free, h.distinct⟩
  · rintro ⟨hfree, hdistinct⟩
    induction deliveries generalizing received with
    | nil => exact ⟨received, nil_iff.mpr rfl⟩
    | cons x deliveries ih =>
      obtain ⟨⟨i, hi, hnone⟩, hrest⟩ := List.forall_mem_cons.mp hfree
      obtain ⟨hnew, hdistinct⟩ := List.nodup_cons.mp hdistinct
      have hlater : ∀ y ∈ deliveries,
          ∃ j, y.1 = some j ∧ Function.update received i (some x.2) j = none := by
        intro y hy
        obtain ⟨j, hj, hnone⟩ := hrest y hy
        refine ⟨j, hj, update_eq_none_iff.mpr ⟨?_, hnone⟩⟩
        rintro rfl
        exact hnew (List.mem_map.mpr ⟨y, hy, hj.trans hi.symm⟩)
      obtain ⟨all, hall⟩ := ih hlater hdistinct
      exact ⟨all, cons_iff.mpr ⟨i, hi, hnone, hall⟩⟩

theorem mem_iff (h : Delivered (fun _ => none) deliveries all) :
    (some i, a) ∈ deliveries ↔ all i = some a := by
  rw [h.arguments, or_iff_right nofun]

end Delivered

namespace Binding

/-- Parameters that have received the values that a function gives to their numbers. -/
def placesWith (parameters : List Parameter) (received : Nat → Option Argument) : List Place :=
  parameters.mapIdx fun i p => ⟨p, (received i).map Argument.value⟩

theorem getElem?_placesWith : (placesWith parameters received)[i]? =
    parameters[i]?.map fun p => ⟨p, (received i).map Argument.value⟩ :=
  List.getElem?_mapIdx

theorem map_parameter_placesWith :
    (placesWith parameters received).map Place.parameter = parameters := by
  refine List.ext_getElem? fun i => ?_
  rw [List.getElem?_map, getElem?_placesWith, Option.map_map]
  exact Option.map_id_apply

theorem findIdx?_placesWith (p : Parameter → Bool) :
    (placesWith parameters received).findIdx? (fun place => p place.parameter) =
      parameters.findIdx? p := by
  conv => rhs; rw [← @map_parameter_placesWith parameters received, List.findIdx?_map]
  rfl

theorem set_placesWith (hp : parameters[i]? = some p) (a : Argument) :
    (placesWith parameters received).set i ⟨p, some a.value⟩ =
      placesWith parameters (Function.update received i (some a)) := by
  refine List.ext_getElem? fun j => ?_
  rw [List.getElem?_set, getElem?_placesWith, getElem?_placesWith]
  by_cases hij : i = j
  · subst hij
    have hi : i < (placesWith parameters received).length := by
      rw [placesWith, List.length_mapIdx]
      exact (List.getElem?_eq_some_iff.mp hp).1
    rw [if_pos rfl, if_pos hi, hp, Option.map_some, Function.update_self, Option.map_some]
  · rw [if_neg hij, Function.update_of_ne (Ne.symm hij)]

theorem fillPositional_map_value (parameters : List Parameter) (arguments : List Argument) :
    fillPositional parameters (arguments.map Argument.value) =
      if arguments.length ≤ parameters.length then some (placesWith parameters (arguments[·]?))
      else none := by
  induction parameters generalizing arguments with
  | nil => cases arguments <;> rfl
  | cons p parameters ih =>
    cases arguments with
    | nil =>
      refine congrArg some (List.ext_getElem? fun i => ?_)
      rw [List.getElem?_map, getElem?_placesWith]
      rfl
    | cons a arguments =>
      simp only [List.map_cons, fillPositional, ih, List.length_cons, Nat.add_le_add_iff_right]
      split
      · simp only [placesWith, List.mapIdx_cons]
        rfl
      · rfl

theorem fillNamed_placesWith :
    fillNamed heading (placesWith parameters received) name a.value = .ok places ↔
    ∃ i, parameters.findIdx? (fun p => sameName p.name name) = some i ∧ received i = none ∧
      places = placesWith parameters (Function.update received i (some a)) := by
  rw [fillNamed, findIdx?_placesWith fun p => sameName p.name name]
  cases hfind : parameters.findIdx? fun p => sameName p.name name with
  | none => simp
  | some i =>
    obtain ⟨hi, -, -⟩ := List.findIdx?_eq_some_iff_getElem.mp hfind
    have hget := List.getElem?_eq_getElem hi
    simp only [getElem?_placesWith, hget, Option.map_some]
    cases hr : received i with
    | none => simp [hr, set_placesWith hget, eq_comm]
    | some a' => simp [hr]

theorem foldlM_placeNamed_placesWith :
    arguments.foldlM (placeNamed heading) (placesWith parameters received) = .ok places ↔
      ∃ all, Delivered received (deliveriesByName parameters arguments) all ∧
        places = placesWith parameters all := by
  induction arguments generalizing received with
  | nil => simp [deliveriesByName, Delivered.nil_iff, pure, Except.pure, eq_comm]
  | cons a arguments ih =>
    rw [List.foldlM_cons, bind_eq_ok_iff, placeNamed, deliveriesByName, List.filterMap_cons]
    cases hname : a.name with
    | none => simpa [deliveriesByName] using ih
    | some name =>
      simp only [fillNamed_placesWith, Option.map_some, Delivered.cons_iff]
      constructor
      · rintro ⟨_, ⟨i, hfind, hi, rfl⟩, hrest⟩
        obtain ⟨all, hall, rfl⟩ := ih.mp hrest
        exact ⟨all, ⟨i, hfind, hi, hall⟩, rfl⟩
      · rintro ⟨all, ⟨i, hfind, hi, hall⟩, rfl⟩
        exact ⟨_, ⟨i, hfind, hi, rfl⟩, ih.mpr ⟨all, hall, rfl⟩⟩

/-- Arguments that are no more than the parameters go one by one to the first of them. -/
theorem delivered_mapIdx {count : Nat} (h : arguments.length ≤ count) :
    Delivered (fun _ => none) (arguments.mapIdx fun i a => (if i < count then some i else none, a))
      (arguments[·]?) := by
  have htarget {i : Nat} (hi : i < arguments.length) :
      (if i < count then some i else none) = some i := if_pos (Nat.lt_of_lt_of_le hi h)
  refine ⟨fun x hx => ?_, ?_, fun i a => ?_⟩
  · obtain ⟨i, hi, rfl⟩ := List.mem_mapIdx.mp hx
    exact ⟨i, htarget hi, rfl⟩
  · have htargets : (arguments.mapIdx fun i a => (if i < count then some i else none, a)).map
        Prod.fst = (List.range arguments.length).map some := by
      refine List.ext_getElem (by simp) fun i hi _ => ?_
      simpa using htarget (by simpa using hi)
    rw [htargets]
    exact List.Nodup.map (fun _ _ => Option.some.inj) List.nodup_range
  · rw [or_iff_right nofun, List.mem_mapIdx]
    constructor
    · intro ha
      obtain ⟨hi, rfl⟩ := List.getElem?_eq_some_iff.mp ha
      exact ⟨i, hi, by rw [htarget hi]⟩
    · rintro ⟨j, hj, ha⟩
      rw [htarget hj, Prod.mk.injEq, Option.some.injEq] at ha
      obtain ⟨rfl, rfl⟩ := ha
      exact List.getElem?_eq_getElem hj

theorem delivered_byPosition_iff :
    Delivered (fun _ => none) (deliveriesByPosition parameters c.arguments) all ↔
      c.positional.length ≤ parameters.length ∧
        all = ((c.arguments.filter fun a => a.name.isNone)[·]?) := by
  rw [Command.positional, List.length_map, deliveriesByPosition]
  generalize (c.arguments.filter fun a => a.name.isNone) = arguments
  constructor
  · intro h
    have hlength : arguments.length ≤ parameters.length := by
      by_contra hlt
      rw [Nat.not_le] at hlt
      -- The first argument beyond the parameters has nowhere to go.
      obtain ⟨i, hi, -⟩ := h.free (none, arguments[parameters.length]) (List.mem_mapIdx.mpr
        ⟨_, hlt, by rw [if_neg (Nat.lt_irrefl _)]⟩)
      cases hi
    exact ⟨hlength, h.unique (delivered_mapIdx hlength)⟩
  · rintro ⟨hlength, rfl⟩
    exact delivered_mapIdx hlength

theorem fill_eq_ok_iff : fill c parameters = .ok places ↔
    ∃ all, Delivered (fun _ => none) (c.deliveries parameters) all ∧
      places = placesWith parameters all := by
  simp only [Command.deliveries, Delivered.append_iff, delivered_byPosition_iff, fill]
  rw [Command.positional, fillPositional_map_value, List.length_map]
  by_cases hlength : (c.arguments.filter fun a => a.name.isNone).length ≤ parameters.length
  · rw [if_pos hlength]
    simp only [hlength, true_and, foldlM_placeNamed_placesWith, exists_eq_left]
  · rw [if_neg hlength]
    simp [hlength]

/-! ## Places -/

theorem fault?_eq_some {place : Place} (h : place.fault? heading = some failure) :
    (failure = .missingParameter heading place.parameter.name ∧ place.parameter.required ∧
      place.value = none) ∨
    (failure.kind = .invalidParameterType ∧
      ∃ v, place.value = some v ∧ ¬place.parameter.kind.accepts v) := by
  unfold Place.fault? at h
  split at h
  · next v hv =>
    split at h
    · cases h
    · next haccepts =>
      cases h
      exact .inr ⟨rfl, v, hv, haccepts⟩
  · next hv =>
    split at h
    · next hrequired =>
      cases h
      exact .inl ⟨rfl, hrequired, hv⟩
    · cases h

end Binding

/-! ## What binding asks for -/

namespace Command

/-- All arguments are for parameters that there are, each for another one. -/
structure IsPlaceable (c : Command) (parameters : List Parameter) : Prop where
  positional : c.positional.length ≤ parameters.length
  named : ∀ a ∈ c.arguments, ∀ name ∈ a.name, ∃ p ∈ parameters, sameName p.name name
  distinct : ((c.deliveries parameters).map Prod.fst).Nodup

/-- The parameter of a number is required, and no argument is for it. -/
def Lacks (c : Command) (parameters : List Parameter) (i : Nat) : Prop :=
  ∃ p, parameters[i]? = some p ∧ p.required ∧ ∀ a, (some i, a) ∉ c.deliveries parameters

/-- An argument is for the parameter of a number, and its value is not of the parameter's kind. -/
def Mismatches (c : Command) (parameters : List Parameter) (i : Nat) : Prop :=
  ∃ p a, parameters[i]? = some p ∧ (some i, a) ∈ c.deliveries parameters ∧
    ¬p.kind.accepts a.value

theorem mem_deliveriesByName {x : Option Nat × Argument} :
    x ∈ deliveriesByName parameters arguments ↔ x.2 ∈ arguments ∧ ∃ name, x.2.name = some name ∧
      x.1 = parameters.findIdx? fun p => sameName p.name name := by
  simp only [deliveriesByName, List.mem_filterMap, Option.map_eq_some_iff]
  constructor
  · rintro ⟨a, ha, name, hname, rfl⟩
    exact ⟨ha, name, hname, rfl⟩
  · rintro ⟨ha, name, hname, htarget⟩
    exact ⟨x.2, ha, name, hname, Prod.ext htarget.symm rfl⟩

theorem isPlaceable_iff : c.IsPlaceable parameters ↔
    ∃ all, Delivered (fun _ => none) (c.deliveries parameters) all := by
  constructor
  · rintro ⟨hpositional, hnamed, hdistinct⟩
    refine Delivered.exists_iff.mpr ⟨fun x hx => ?_, hdistinct⟩
    rcases List.mem_append.mp hx with hx | hx
    · exact (Binding.delivered_byPosition_iff.mpr ⟨hpositional, rfl⟩).free x hx
    · obtain ⟨ha, name, hname, htarget⟩ := mem_deliveriesByName.mp hx
      have hfound : (parameters.findIdx? fun p => sameName p.name name).isSome := by
        simpa [List.findIdx?_isSome] using hnamed _ ha name hname
      obtain ⟨i, hi⟩ := Option.isSome_iff_exists.mp hfound
      exact ⟨i, htarget.trans hi, rfl⟩
  · rintro ⟨all, h⟩
    obtain ⟨before, hbefore, hnamed⟩ := Delivered.append_iff.mp h
    refine ⟨(Binding.delivered_byPosition_iff.mp hbefore).1, fun a ha name hname => ?_, h.distinct⟩
    have hmem : (parameters.findIdx? fun p => sameName p.name name, a) ∈
        deliveriesByName parameters c.arguments := mem_deliveriesByName.mpr ⟨ha, name, hname, rfl⟩
    obtain ⟨i, hi, -⟩ := hnamed.free _ hmem
    obtain ⟨hlt, hsame, -⟩ := List.findIdx?_eq_some_iff_getElem.mp hi
    exact ⟨_, List.getElem_mem hlt, hsame⟩

theorem lt_of_mem_deliveries (h : (some i, a) ∈ c.deliveries parameters) :
    i < parameters.length := by
  rcases List.mem_append.mp h with h | h
  · obtain ⟨j, _, hj⟩ := List.mem_mapIdx.mp h
    obtain ⟨hlt, hji⟩ := Option.ite_none_right_eq_some.mp (Prod.mk.inj hj).1
    rwa [← Option.some.inj hji]
  · obtain ⟨-, name, -, htarget⟩ := mem_deliveriesByName.mp h
    exact (List.findIdx?_eq_some_iff_getElem.mp htarget.symm).1

theorem map_deliveries_perm (c : Command) (parameters : List Parameter) :
    ((c.deliveries parameters).map Prod.snd).Perm c.arguments := by
  have hposition : (deliveriesByPosition parameters c.arguments).map Prod.snd =
      c.arguments.filter fun a => a.name.isNone := by
    refine List.ext_getElem? fun i => ?_
    rw [deliveriesByPosition, List.getElem?_map, List.getElem?_mapIdx, Option.map_map]
    exact Option.map_id_apply
  have hname (arguments : List Argument) : (deliveriesByName parameters arguments).map Prod.snd =
      arguments.filter fun a => !a.name.isNone := by
    induction arguments with
    | nil => rfl
    | cons a arguments ih =>
      unfold deliveriesByName at ih ⊢
      rw [List.filterMap_cons, List.filter_cons]
      cases a.name with
      | none => simpa using ih
      | some name => simpa using ih
  rw [deliveries, List.map_append, hposition, hname]
  exact List.filter_append_perm _ _

end Command

namespace Binding

/-- The parameters that have received an argument, in their order. -/
def boundWith (parameters : List Parameter) (received : Nat → Option Argument) :
    List (Parameter × Argument) :=
  (parameters.mapIdx fun i p => (received i).map (p, ·)).filterMap id

theorem boundWith_cons : boundWith (p :: parameters) received =
    ((received 0).map (p, ·)).toList ++ boundWith parameters (fun i => received (i + 1)) := by
  rw [boundWith, List.mapIdx_cons]
  cases received 0 <;> rfl

theorem filter_placesWith (parameters : List Parameter) (received : Nat → Option Argument) :
    (placesWith parameters received).filter (fun place => place.value.isSome) =
      (boundWith parameters received).map fun x => ⟨x.1, some x.2.value⟩ := by
  induction parameters generalizing received with
  | nil => rfl
  | cons p parameters ih =>
    rw [boundWith_cons, List.map_append, ← ih, placesWith, List.mapIdx_cons, List.filter_cons]
    cases received 0 <;> rfl

theorem map_boundWith (parameters : List Parameter) (received : Nat → Option Argument) :
    (boundWith parameters received).map Prod.snd =
      (List.range parameters.length).filterMap received := by
  induction parameters generalizing received with
  | nil => rfl
  | cons p parameters ih =>
    rw [boundWith_cons, List.map_append, ih, List.length_cons, List.range_succ_eq_map,
      List.filterMap_cons, List.filterMap_map]
    cases received 0 <;> rfl

theorem mem_boundWith {x : Parameter × Argument} : x ∈ boundWith parameters received ↔
    ∃ i, parameters[i]? = some x.1 ∧ received i = some x.2 := by
  obtain ⟨p, a⟩ := x
  rw [boundWith, List.mem_filterMap]
  simp only [List.mem_mapIdx, id_eq, exists_eq_right]
  constructor
  · rintro ⟨i, hi, hx⟩
    obtain ⟨a', ha', hpair⟩ := Option.map_eq_some_iff.mp hx
    obtain ⟨rfl, rfl⟩ := Prod.mk.inj hpair
    exact ⟨i, List.getElem?_eq_getElem hi, ha'⟩
  · rintro ⟨i, hp, ha⟩
    obtain ⟨hi, rfl⟩ := List.getElem?_eq_some_iff.mp hp
    exact ⟨i, hi, by rw [ha]; rfl⟩

/-- The deliveries, in the order of the parameters that they are for. -/
theorem perm_deliveries (hall : Delivered (fun _ => none) (c.deliveries parameters) all) :
    (c.deliveries parameters).Perm
      ((List.range parameters.length).filterMap fun i => (all i).map (some i, ·)) := by
  have hnodup : ((List.range parameters.length).filterMap fun i =>
      (all i).map (some i, ·)).Nodup := by
    refine List.Nodup.filterMap ?_ List.nodup_range
    intro i j x hi hj
    obtain ⟨a, -, rfl⟩ := Option.map_eq_some_iff.mp hi
    obtain ⟨a', -, hx⟩ := Option.map_eq_some_iff.mp hj
    exact (Option.some.inj (Prod.mk.inj hx).1).symm
  refine (List.perm_ext_iff_of_nodup (List.Nodup.of_map _ hall.distinct) hnodup).mpr fun x => ?_
  rw [List.mem_filterMap]
  constructor
  · intro hx
    obtain ⟨i, hi, -⟩ := hall.free x hx
    have hx' : (some i, x.2) ∈ c.deliveries parameters := hi ▸ hx
    refine ⟨i, List.mem_range.mpr (Command.lt_of_mem_deliveries hx'), ?_⟩
    rw [hall.mem_iff.mp hx', ← hi]
    rfl
  · rintro ⟨i, -, hx⟩
    obtain ⟨a, ha, rfl⟩ := Option.map_eq_some_iff.mp hx
    exact hall.mem_iff.mpr ha

theorem perm_boundWith (hall : Delivered (fun _ => none) (c.deliveries parameters) all) :
    ((boundWith parameters all).map Prod.snd).Perm c.arguments := by
  have hsnd : (List.range parameters.length).filterMap all =
      ((List.range parameters.length).filterMap fun i =>
        (all i).map (some i, ·)).map Prod.snd := by
    rw [List.map_filterMap]
    refine List.filterMap_congr fun i _ => ?_
    rw [Option.map_map]
    exact Option.map_id_apply.symm
  rw [map_boundWith, hsnd]
  exact ((perm_deliveries hall).symm.map _).trans (c.map_deliveries_perm parameters)

/-! ## Exact binding -/

/-- A binding with every argument at the parameter that it is for. -/
structure IsExact (c : Command) (parameters : List Parameter) (b : Binding) : Prop where
  category : b.category = c.category
  action : b.action = c.action
  declared : b.places.map Place.parameter = parameters
  /-- What is passed by position goes to the parameters in their order. -/
  byPosition : ∀ (i : Nat) v, c.positional[i]? = some v →
    ∃ p, parameters[i]? = some p ∧ b.places[i]? = some ⟨p, some v⟩
  /-- What is passed by name goes to the parameter that has the name. -/
  byName : ∀ a ∈ c.arguments, ∀ name ∈ a.name, ∃ (i : Nat) (p : Parameter),
    parameters.findIdx? (fun p => sameName p.name name) = some i ∧
      parameters[i]? = some p ∧ b.places[i]? = some ⟨p, some a.value⟩
  /-- All arguments, each once, are what the places hold and what the echo shows, in the order of
  the parameters. -/
  once : ∃ bound : List (Parameter × Argument), (bound.map Prod.snd).Perm c.arguments ∧
    (∀ x ∈ bound, ∃ i, parameters[i]? = some x.1 ∧ (some i, x.2) ∈ c.deliveries parameters) ∧
    b.places.filter (fun place => place.value.isSome) =
      bound.map (fun x => ⟨x.1, some x.2.value⟩) ∧
    b.echo = c.category.name ++ "(" ++ c.action.name ++ String.join (bound.map fun x =>
      ", " ++ x.1.name ++ "=" ++ Place.echoValue x.1.kind x.2.value) ++ ")"

/-- A place without a value leaves nothing in the echo. -/
theorem join_map_echo (places : List Place) : String.join (places.map Place.echo) =
    String.join ((places.filter fun place => place.value.isSome).map Place.echo) := by
  induction places with
  | nil => rfl
  | cons place places ih =>
    rw [List.map_cons, String.join_cons, ih, List.filter_cons]
    cases hv : place.value with
    | none => simp [Place.echo, hv]
    | some v => simp

theorem isExact_placesWith (hall : Delivered (fun _ => none) (c.deliveries parameters) all) :
    IsExact c parameters ⟨c.category, c.action, placesWith parameters all⟩ := by
  have hplace {i : Nat} {a : Argument} (ha : (some i, a) ∈ c.deliveries parameters) :
      ∃ p, parameters[i]? = some p ∧ (placesWith parameters all)[i]? = some ⟨p, some a.value⟩ := by
    have hi := List.getElem?_eq_getElem (Command.lt_of_mem_deliveries ha)
    refine ⟨_, hi, ?_⟩
    rw [getElem?_placesWith, hi, hall.mem_iff.mp ha]
    rfl
  refine ⟨rfl, rfl, map_parameter_placesWith, fun i v hv => ?_, fun a ha name hname => ?_,
    boundWith parameters all, perm_boundWith hall, fun x hx => ?_, filter_placesWith _ _, ?_⟩
  · rw [Command.positional, List.getElem?_map] at hv
    obtain ⟨a, ha, rfl⟩ := Option.map_eq_some_iff.mp hv
    obtain ⟨before, hbefore, -⟩ := Delivered.append_iff.mp hall
    have hmem : (some i, a) ∈ deliveriesByPosition parameters c.arguments := by
      rw [hbefore.mem_iff, (delivered_byPosition_iff.mp hbefore).2]
      exact ha
    exact hplace (List.mem_append_left _ hmem)
  · have hmem : (parameters.findIdx? fun p => sameName p.name name, a) ∈
        c.deliveries parameters :=
      List.mem_append_right _ (Command.mem_deliveriesByName.mpr ⟨ha, name, hname, rfl⟩)
    obtain ⟨i, hi, -⟩ := hall.free _ hmem
    replace hi : (parameters.findIdx? fun p => sameName p.name name) = some i := hi
    rw [hi] at hmem
    obtain ⟨p, hp, hplace⟩ := hplace hmem
    exact ⟨i, p, hi, hp, hplace⟩
  · obtain ⟨i, hp, ha⟩ := mem_boundWith.mp hx
    exact ⟨i, hp, hall.mem_iff.mpr ha⟩
  · rw [echo, join_map_echo, filter_placesWith, List.map_map]
    rfl

theorem fault?_placesWith_eq_none_iff
    (hall : Delivered (fun _ => none) (c.deliveries parameters) all)
    (hp : parameters[i]? = some p) :
    (Place.mk p ((all i).map Argument.value)).fault? heading = none ↔
      ¬c.Lacks parameters i ∧ ¬c.Mismatches parameters i := by
  rw [fault?_eq_none_iff]
  simp only [Command.Lacks, Command.Mismatches, hp, hall.mem_iff, Option.some.injEq]
  cases all i with
  | none => simp
  | some a => simp

theorem forall_fault?_placesWith
    (hall : Delivered (fun _ => none) (c.deliveries parameters) all) :
    (∀ place ∈ placesWith parameters all, place.fault? heading = none) ↔
      ∀ i, ¬c.Lacks parameters i ∧ ¬c.Mismatches parameters i := by
  constructor
  · intro h i
    cases hp : parameters[i]? with
    | none =>
      constructor
      · rintro ⟨p, hp', -⟩
        cases hp.symm.trans hp'
      · rintro ⟨p, -, hp', -⟩
        cases hp.symm.trans hp'
    | some p =>
      refine (fault?_placesWith_eq_none_iff hall hp).mp (h _ (List.mem_iff_getElem?.mpr ⟨i, ?_⟩))
      rw [getElem?_placesWith, hp]
      rfl
  · intro h place hplace
    obtain ⟨i, hi⟩ := List.mem_iff_getElem?.mp hplace
    rw [getElem?_placesWith] at hi
    obtain ⟨p, hp, rfl⟩ := Option.map_eq_some_iff.mp hi
    exact (fault?_placesWith_eq_none_iff hall hp).mpr (h i)

/-- The fault that is reported is the first one, in the order of the parameters. -/
theorem findSome?_fault?_placesWith
    (hall : Delivered (fun _ => none) (c.deliveries parameters) all)
    (h : (placesWith parameters all).findSome? (Place.fault? heading) = some failure) :
    ∃ i, (∀ j < i, ¬c.Lacks parameters j ∧ ¬c.Mismatches parameters j) ∧
      ((failure.kind = .missingParameter ∧ c.Lacks parameters i) ∨
        (failure.kind = .invalidParameterType ∧ c.Mismatches parameters i ∧
          ¬c.Lacks parameters i)) := by
  obtain ⟨before, place, after, hplaces, hplace, hbefore⟩ := List.findSome?_eq_some_iff.mp h
  have hat {j : Nat} {other : Place} (hj : (before ++ place :: after)[j]? = some other) :
      ∃ p, parameters[j]? = some p ∧ ⟨p, (all j).map Argument.value⟩ = other := by
    rw [← hplaces, getElem?_placesWith] at hj
    exact Option.map_eq_some_iff.mp hj
  refine ⟨before.length, fun j hj => ?_, ?_⟩
  · obtain ⟨p, hp, hother⟩ := hat (List.getElem?_append_left hj ▸ List.getElem?_eq_getElem hj)
    rw [← fault?_placesWith_eq_none_iff hall hp, hother]
    exact hbefore _ (List.getElem_mem hj)
  · have hfirst : (before ++ place :: after)[before.length]? = some place := by simp
    obtain ⟨p, hp, rfl⟩ := hat hfirst
    rcases fault?_eq_some hplace with ⟨rfl, hrequired, hnone⟩ | ⟨hkind, v, hv, haccepts⟩
    · refine .inl ⟨rfl, p, hp, hrequired, fun a ha => ?_⟩
      simp [hall.mem_iff.mp ha] at hnone
    · obtain ⟨a, ha, rfl⟩ := Option.map_eq_some_iff.mp hv
      refine .inr ⟨hkind, ⟨p, a, hp, hall.mem_iff.mpr ha, haccepts⟩, ?_⟩
      rintro ⟨-, -, -, hnone⟩
      exact hnone a (hall.mem_iff.mpr ha)

theorem kind_of_ofCommand_iff (h : ofCommand c parameters = .error failure) :
    failure.kind = .missingParameter ↔ c.IsPlaceable parameters ∧ ∃ i, c.Lacks parameters i ∧
      ∀ j < i, ¬c.Lacks parameters j ∧ ¬c.Mismatches parameters j := by
  rw [ofCommand, bind_eq_error_iff] at h
  rcases h with h | ⟨places, hfill, h⟩
  · refine iff_of_false (by simp [kind_of_fill h]) ?_
    rintro ⟨hplaceable, -⟩
    obtain ⟨all, hall⟩ := Command.isPlaceable_iff.mp hplaceable
    cases h.symm.trans (fill_eq_ok_iff.mpr ⟨all, hall, rfl⟩)
  · obtain ⟨all, hall, rfl⟩ := fill_eq_ok_iff.mp hfill
    split at h
    · next e hfault =>
      obtain rfl := Except.error.inj h
      obtain ⟨i, hbefore, hfirst⟩ := findSome?_fault?_placesWith hall hfault
      rcases hfirst with ⟨hkind, hlacks⟩ | ⟨hkind, hmismatches, hlacks⟩
      · exact iff_of_true hkind ⟨Command.isPlaceable_iff.mpr ⟨all, hall⟩, i, hlacks, hbefore⟩
      · refine iff_of_false (by simp [hkind]) ?_
        rintro ⟨-, j, hj, hbefore'⟩
        rcases Nat.lt_trichotomy i j with hij | rfl | hij
        · exact (hbefore' i hij).2 hmismatches
        · exact hlacks hj
        · exact (hbefore j hij).1 hj
    · cases h

/-- The arguments of a command can be bound if and only if each has a place of its own and every
parameter accepts what it receives and receives what it requires. Then every argument is where it
belongs. Otherwise a parameter is missing if the first fault of all is that it received nothing. -/
theorem ofCommand_exact (c : Command) (parameters : List Parameter) :
    ((∃ b, ofCommand c parameters = .ok b) ↔ c.IsPlaceable parameters ∧
      ∀ i, ¬c.Lacks parameters i ∧ ¬c.Mismatches parameters i) ∧
    (∀ b, ofCommand c parameters = .ok b → IsExact c parameters b) ∧
    ∀ failure, ofCommand c parameters = .error failure →
      (failure.kind = .missingParameter ↔ c.IsPlaceable parameters ∧ ∃ i, c.Lacks parameters i ∧
        ∀ j < i, ¬c.Lacks parameters j ∧ ¬c.Mismatches parameters j) ∧
      (failure.kind = .missingParameter ∨ failure.kind = .invalidParameterType) := by
  refine ⟨?_, fun b hb => ?_, fun failure hf => ?_⟩
  · simp only [ofCommand_eq_ok_iff, fill_eq_ok_iff, Command.isPlaceable_iff]
    constructor
    · rintro ⟨-, -, ⟨all, hall, rfl⟩, hfault, -⟩
      exact ⟨⟨all, hall⟩, (forall_fault?_placesWith hall).mp hfault⟩
    · rintro ⟨⟨all, hall⟩, hfault⟩
      exact ⟨_, _, ⟨all, hall, rfl⟩, (forall_fault?_placesWith hall).mpr hfault, rfl⟩
  · obtain ⟨places, hfill, -, rfl⟩ := ofCommand_eq_ok_iff.mp hb
    obtain ⟨all, hall, rfl⟩ := fill_eq_ok_iff.mp hfill
    exact isExact_placesWith hall
  · exact ⟨kind_of_ofCommand_iff hf, (kind_of_ofCommand hf).symm⟩

end Binding
end BenchConsole
