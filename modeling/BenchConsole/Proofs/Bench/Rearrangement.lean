import BenchConsole.Proofs.Bench
import BenchConsole.Proofs.Binding.Placement
import BenchConsole.Proofs.Text.Words

/-!
# Arguments in another order

Two commands are rearranged if they differ in the order of their arguments only, or in how the last
one that is passed by position is passed (`Command.Rearranged`). They deliver the same values to the
same parameters (`Rearranged.perm_deliveredValues`), so both are bound and come to one request, or
both fail, with failures of one kind (`SameKind`): the first fault that is found may differ, and
with it the text of the error. What is executed is the same (`Bench.execute_rearranged`).
-/

namespace BenchConsole

open Text

/-- The same arguments in another order, in which those passed by position keep theirs; or the same
arguments with the last one passed by position passed by the name of its parameter instead. -/
inductive Command.Rearranged (c d : Command) : Prop
  | reordered : c.arguments.Perm d.arguments →
    (c.arguments.filter fun a => a.name.isNone) = d.arguments.filter (fun a => a.name.isNone) →
    Rearranged c d
  | named {parameters : List Parameter} {before rest : List Argument} {p : Parameter}
    {name : String} {v : Literal} : signature c.category c.action = some parameters →
    c.arguments = before ++ ⟨none, v⟩ :: rest → (∀ a ∈ rest, a.name ≠ none) →
    parameters[(before.filter fun a => a.name.isNone).length]? = some p →
    sameName p.name name → d.arguments = before ++ ⟨some name, v⟩ :: rest → Rearranged c d

variable {c d : Command} {parameters : List Parameter} {places : List Place} {α β σ : Type}
  {before rest : List Argument} {name heading : String} {i : Nat} {p : Parameter} {v : Literal}

/-! ## Deliveries -/

/-- A name is found at the only parameter that has it. -/
theorem findIdx?_sameName (hn : (parameters.map fun p => lower p.name.toList).Nodup)
    (hp : parameters[i]? = some p) (hs : sameName p.name name) :
    (parameters.findIdx? fun p => sameName p.name name) = some i := by
  obtain ⟨hi, rfl⟩ := List.getElem?_eq_some_iff.mp hp
  refine List.findIdx?_eq_some_iff_getElem.mpr ⟨hi, hs, fun j hj hsame => ?_⟩
  have hlower : lower parameters[j].name.toList = lower parameters[i].name.toList :=
    (sameWord_iff.mp hsame).trans (sameWord_iff.mp hs).symm
  have hlength : i < (parameters.map fun p => lower p.name.toList).length := by
    rwa [List.length_map]
  have hij : i = j := by
    rw [← List.getElem?_inj hlength hn, List.getElem?_map, List.getElem?_map,
      List.getElem?_eq_getElem hi, List.getElem?_eq_getElem (hj.trans hi), Option.map_some,
      Option.map_some, hlower]
  exact Nat.lt_irrefl j (hij ▸ hj)

section

variable (hrest : ∀ a ∈ rest, a.name ≠ none)
include hrest

theorem filter_append_named : ((before ++ rest).filter fun a => a.name.isNone) =
    before.filter fun a => a.name.isNone := by
  have hnone : (rest.filter fun a => a.name.isNone) = [] := by
    refine List.filter_eq_nil_iff.mpr fun a ha => ?_
    simpa using hrest a ha
  rw [List.filter_append, hnone, List.append_nil]

/-- The last argument that is passed by position is the last delivery by position. -/
theorem deliveriesByPosition_unnamed
    (hp : parameters[(before.filter fun a => a.name.isNone).length]? = some p) :
    deliveriesByPosition parameters (before ++ ⟨none, v⟩ :: rest) =
      deliveriesByPosition parameters before ++
        [(some (before.filter fun a => a.name.isNone).length, ⟨none, v⟩)] := by
  have hlt := (List.getElem?_eq_some_iff.mp hp).1
  have hsplit : before ++ ⟨none, v⟩ :: rest = (before ++ [⟨none, v⟩]) ++ rest := by simp
  rw [hsplit, deliveriesByPosition, filter_append_named hrest, List.filter_append,
    List.filter_cons_of_pos rfl, List.filter_nil, List.mapIdx_concat, if_pos hlt]
  rfl

theorem deliveriesByPosition_named :
    deliveriesByPosition parameters (before ++ ⟨some name, v⟩ :: rest) =
      deliveriesByPosition parameters before := by
  have hall : ∀ a ∈ (⟨some name, v⟩ :: rest : List Argument), a.name ≠ none :=
    List.forall_mem_cons.mpr ⟨nofun, hrest⟩
  rw [deliveriesByPosition, filter_append_named hall]
  rfl

end

/-- What the deliveries bring, and where. -/
def Command.deliveredValues (c : Command) (parameters : List Parameter) :
    List (Option Nat × Literal) :=
  (c.deliveries parameters).map (Prod.map id Argument.value)

theorem Command.Rearranged.perm_deliveredValues (h : c.Rearranged d)
    (hs : signature c.category c.action = some parameters) :
    (c.deliveredValues parameters).Perm (d.deliveredValues parameters) := by
  cases h with
  | reordered hperm hposition =>
    have heq : deliveriesByPosition parameters c.arguments =
        deliveriesByPosition parameters d.arguments := by
      rw [deliveriesByPosition, deliveriesByPosition, hposition]
    rw [deliveredValues, deliveries, heq]
    exact ((hperm.filterMap _).append_left _).map _
  | @named parameters' before rest p name v hs' hc hrest hp hsame hd =>
    obtain rfl := Option.some.inj (hs.symm.trans hs')
    have hfound := findIdx?_sameName (nodup_lower_parameters hs) hp hsame
    have hunnamed : deliveriesByName parameters (before ++ ⟨none, v⟩ :: rest) =
        deliveriesByName parameters before ++ deliveriesByName parameters rest :=
      List.filterMap_append
    have hnamed : deliveriesByName parameters (before ++ ⟨some name, v⟩ :: rest) =
        deliveriesByName parameters before ++
          (some (before.filter fun a => a.name.isNone).length, ⟨some name, v⟩) ::
            deliveriesByName parameters rest := by
      rw [deliveriesByName, List.filterMap_append, List.filterMap_cons]
      simp only [Option.map_some, hfound]
      rfl
    rw [deliveredValues, deliveredValues, deliveries, deliveries, hc, hd,
      deliveriesByPosition_unnamed hrest hp, deliveriesByPosition_named hrest, hunnamed, hnamed]
    simp only [List.map_append, List.map_cons, List.append_assoc, List.cons_append,
      List.nil_append, Prod.map_apply]
    exact List.perm_middle.symm.append_left _

/-! ## Binding -/

namespace Binding

variable {all : Nat → Option Argument}

theorem mem_deliveredValues_iff
    (hall : Delivered (fun _ => none) (c.deliveries parameters) all) :
    (some i, v) ∈ c.deliveredValues parameters ↔ (all i).map Argument.value = some v := by
  simp [Command.deliveredValues, Option.map_eq_some_iff, ← hall.mem_iff]

theorem fill_of_perm (h : (c.deliveredValues parameters).Perm (d.deliveredValues parameters))
    (hc : fill c parameters = .ok places) : fill d parameters = .ok places := by
  obtain ⟨all, hall, rfl⟩ := fill_eq_ok_iff.mp hc
  have htargets (e : Command) : (e.deliveredValues parameters).map Prod.fst =
      (e.deliveries parameters).map Prod.fst := by
    rw [Command.deliveredValues, List.map_map]
    rfl
  have hperm : ((c.deliveries parameters).map Prod.fst).Perm
      ((d.deliveries parameters).map Prod.fst) := by
    rw [← htargets, ← htargets]
    exact h.map _
  have hd : ∃ all', Delivered (fun _ => none) (d.deliveries parameters) all' := by
    refine Delivered.exists_iff.mpr ⟨fun x hx => ?_, hperm.nodup_iff.mp hall.distinct⟩
    obtain ⟨y, hy, hxy⟩ := List.mem_map.mp (hperm.mem_iff.mpr (List.mem_map_of_mem hx))
    rw [← hxy]
    exact hall.free y hy
  obtain ⟨all', hall'⟩ := hd
  refine fill_eq_ok_iff.mpr ⟨all', hall', ?_⟩
  have hvalue (i : Nat) : (all i).map Argument.value = (all' i).map Argument.value :=
    Option.ext fun v => by
      rw [← mem_deliveredValues_iff hall, h.mem_iff, mem_deliveredValues_iff hall']
  simp only [placesWith, hvalue]

end Binding

/-! ## Results -/

/-- The same result, or failures of the same kind. -/
def SameKind (x y : Except Failure α) : Prop :=
  x = y ∨ ∃ e e' : Failure, x = .error e ∧ y = .error e' ∧ e.kind = e'.kind

namespace SameKind

variable {x y : Except Failure α}

theorem refl (x : Except Failure α) : SameKind x x :=
  .inl rfl

theorem error {e e' : Failure} (h : e.kind = e'.kind) :
    SameKind (.error e : Except Failure α) (.error e') :=
  .inr ⟨e, e', rfl, rfl, h⟩

theorem bind (h : SameKind x y) (f : α → Except Failure β) : SameKind (x >>= f) (y >>= f) := by
  rcases h with rfl | ⟨e, e', rfl, rfl, hkind⟩
  · exact refl _
  · exact error hkind

end SameKind

namespace Command

theorem sameKind_fill (h : (c.deliveredValues parameters).Perm (d.deliveredValues parameters)) :
    SameKind (Binding.fill c parameters) (Binding.fill d parameters) := by
  cases hc : Binding.fill c parameters with
  | ok places => exact .inl (Binding.fill_of_perm h hc).symm
  | error e =>
    cases hd : Binding.fill d parameters with
    | ok places => cases hc.symm.trans (Binding.fill_of_perm h.symm hd)
    | error e' => exact .error ((Binding.kind_of_fill hc).trans (Binding.kind_of_fill hd).symm)

theorem Rearranged.sameKind_prepare (h : c.Rearranged d) (hcategory : c.category = d.category)
    (haction : c.action = d.action) : SameKind c.prepare d.prepare := by
  have hheading : c.heading = d.heading := by rw [heading, heading, hcategory, haction]
  rw [prepare, prepare, ← hcategory, ← haction]
  cases hs : signature c.category c.action with
  | none => exact .error rfl
  | some parameters =>
    have hbinding : SameKind (Binding.ofCommand c parameters) (Binding.ofCommand d parameters) := by
      rw [Binding.ofCommand, Binding.ofCommand, hheading, hcategory, haction]
      exact (sameKind_fill (h.perm_deliveredValues hs)).bind _
    exact hbinding.bind _

end Command

/-! ## Execution -/

namespace Bench

open Board

/-- The requests that the hardware is given when a command is executed. -/
def asked (h : Hardware σ) (x : Bench σ) (c : Command) : List Request :=
  ((x.recording []).execute h.recorded c).2.device.2

/-- The arguments of a command may be passed in another order, and the last one passed by position
also by name, without any effect but on the text of an error. -/
theorem execute_rearranged (h : Hardware σ) (x : Bench σ) (hcategory : c.category = d.category)
    (haction : c.action = d.action) (hcd : c.Rearranged d) :
    x.asked h c = x.asked h d ∧ (x.execute h c).2 = (x.execute h d).2 ∧
      (x.asked h c ≠ [] → (x.execute h c).1 = (x.execute h d).1) ∧
      (x.asked h c = [] → ∃ kind, (x.execute h c).1.errorKind? = some kind ∧
        (x.execute h d).1.errorKind? = some kind) := by
  unfold asked
  rw [execute, execute, execute, execute]
  rcases hcd.sameKind_prepare hcategory haction with hp | ⟨e, e', hce, hde, hkind⟩
  · rw [← hp]
    cases c.prepare with
    | ok prepared =>
      exact ⟨rfl, rfl, fun _ => rfl, fun hnone => absurd hnone (List.cons_ne_nil _ _)⟩
    | error e => exact ⟨rfl, rfl, fun _ => rfl, fun _ => ⟨e.kind, rfl, rfl⟩⟩
  · rw [hce, hde]
    exact ⟨rfl, rfl, fun hne => absurd rfl hne, fun _ => ⟨e.kind, rfl, hkind ▸ rfl⟩⟩

/-- A value by position and the same value by name, in a call of either form. -/
theorem execute_rearranged_setDac :
    let c : Command := ⟨"dac", .dac, .set, "set", .keyword,
      [⟨none, .int 1⟩, ⟨none, .float 2.5⟩, ⟨some "save", .int 0⟩]⟩
    let d : Command := ⟨"setDac", .dac, .set, "set", .verb,
      [⟨none, .int 1⟩, ⟨some "VOLTAGE", .float 2.5⟩, ⟨some "save", .int 0⟩]⟩
    let x : Bench Board := ⟨Board.new {}, {}⟩
    c.Rearranged d ∧ x.asked simulated d = [.analog (.dacSet 1 2.5 false)] ∧
      (x.execute simulated c).1 = (x.execute simulated d).1 := by
  intro c d x
  have hcd : c.Rearranged d := @Command.Rearranged.named c d _ [⟨none, .int 1⟩]
    [⟨some "save", .int 0⟩] _ _ _ rfl rfl (by simp) rfl rfl rfl
  obtain ⟨hasked, -, hresponse, -⟩ := @execute_rearranged c d _ simulated x rfl rfl hcd
  have hc : x.asked simulated c = [.analog (.dacSet 1 2.5 false)] := rfl
  exact ⟨hcd, hasked ▸ hc, hresponse (by rw [hc]; nofun)⟩

end Bench

end BenchConsole
