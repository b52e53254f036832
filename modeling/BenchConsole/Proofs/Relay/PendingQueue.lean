import BenchConsole.Relay.PendingQueue
import Mathlib.Data.List.Basic

/-!
# The queue as a list

The ring of slots behaves like the list of its pending entries, `toList`: a command that is
accepted goes to the end of the list (`toList_of_enqueue`), and what is taken out is its head
(`toList_of_pop?`). A command is refused for two reasons only, first for want of room and then for
its length (`enqueue_cases`).
-/

namespace BenchConsole.Relay.PendingQueue

variable {q q' : PendingQueue} {command : String} {entry : DeferredCommand} {i j n : Nat}

/-! ## Slots -/

/-- Within one round a position starts over once at most. -/
theorem add_mod_eq (hi : i < n) (hj : j ≤ n) :
    (i + j) % n = if i + j < n then i + j else i + j - n := by
  split
  · next hlt => exact Nat.mod_eq_of_lt hlt
  · next hge =>
    rw [Nat.mod_eq_sub_mod (Nat.not_lt.mp hge)]
    exact Nat.mod_eq_of_lt (by omega)

theorem index_eq (hi : i ≤ q.slots.size) : q.index i =
    if q.first + i < q.slots.size then q.first + i else q.first + i - q.slots.size :=
  add_mod_eq q.first_lt hi

theorem index_ne (hij : i < j) (hj : j < q.slots.size) : q.index i ≠ q.index j := by
  have hfirst := q.first_lt
  rw [index_eq (by omega), index_eq (Nat.le_of_lt hj)]
  split <;> split <;> omega

theorem getElem?_index (q : PendingQueue) (i : Nat) : q.slots[q.index i]? = some (q.entry i) :=
  Array.getElem?_eq_getElem (q.index_lt i)

@[simp] theorem length_toList (q : PendingQueue) : q.toList.length = q.count := by
  simp [toList]

theorem toList_eq_nil_iff : q.toList = [] ↔ q.count = 0 := by
  rw [← List.length_eq_zero_iff, length_toList]

/-! ## Accepting a command -/

/-- A full queue refuses every command and any other queue the long ones; the rest is accepted and
goes to the end. -/
theorem enqueue_cases (q : PendingQueue) (command : String) :
    (q.count = q.capacity ∧ q.enqueue command = .error (.queueFull q.capacity)) ∨
    (q.count < q.capacity ∧ maxCommandLength < command.length ∧
      q.enqueue command = .error (.invalidCommand
        ("command longer than " ++ toString maxCommandLength ++ " characters"))) ∨
    (q.count < q.capacity ∧ command.length ≤ maxCommandLength ∧
      ∃ q', q.enqueue command = .ok (q.count + 1, q') ∧
        q'.toList = q.toList ++ [⟨command, ""⟩]) := by
  unfold enqueue
  split
  case isFalse hfull =>
    exact .inl ⟨Nat.le_antisymm q.count_le (Nat.not_lt.mp hfull), rfl⟩
  case isTrue hroom =>
    split
    case isTrue hlong => exact .inr (.inl ⟨hroom, hlong, rfl⟩)
    case isFalse hshort =>
      refine .inr (.inr ⟨hroom, Nat.not_lt.mp hshort, _, rfl, ?_⟩)
      generalize hq' : PendingQueue.mk .. = q'
      have hslots : q'.slots = q.slots.set (q.index q.count) ⟨command, ""⟩
          (q.index_lt q.count) := by rw [← hq']
      have hindex (i : Nat) : q'.index i = q.index i := by
        simp only [← hq', index, Array.size_set]
      have hslot (i : Nat) := q'.getElem?_index i
      simp only [hindex, hslots] at hslot
      have hlast : q'.entry q.count = ⟨command, ""⟩ := by
        rw [← Option.some_inj, ← hslot, Array.getElem?_set_self]
      -- The slot that is written lies behind all pending entries.
      have hold : ∀ i ∈ List.range q.count, q'.entry i = q.entry i := by
        intro i hi
        have hne := index_ne (List.mem_range.mp hi) hroom
        rw [← Option.some_inj, ← hslot, Array.getElem?_set_ne _ hne.symm, getElem?_index]
      have hcount : q'.count = q.count + 1 := by rw [← hq']
      rw [toList, hcount, List.range_succ, List.map_append, List.map_singleton, hlast,
        List.map_congr_left hold, toList]

theorem toList_of_enqueue (h : q.enqueue command = .ok (n, q')) :
    q'.toList = q.toList ++ [⟨command, ""⟩] ∧ n = q.count + 1 := by
  rcases q.enqueue_cases command with ⟨-, he⟩ | ⟨-, -, he⟩ | ⟨-, -, q'', he, hlist⟩
  · cases h.symm.trans he
  · cases h.symm.trans he
  · cases h.symm.trans he
    exact ⟨hlist, rfl⟩

theorem capacity_of_enqueue (h : q.enqueue command = .ok (n, q')) : q'.capacity = q.capacity := by
  unfold enqueue at h
  split at h
  · split at h
    · cases h
    · cases h
      exact Array.size_set (q.index_lt q.count)
  · cases h

/-! ## Taking out an entry -/

theorem peek?_eq_head? (q : PendingQueue) : q.peek? = q.toList.head? := by
  unfold peek? toList
  split
  · next hzero => rw [hzero]; rfl
  · next hne =>
    obtain ⟨count, hcount⟩ := Nat.exists_eq_succ_of_ne_zero hne
    rw [hcount, List.range_succ_eq_map]
    rfl

theorem pop?_eq_none_iff : q.pop? = none ↔ q.toList = [] := by
  rw [toList_eq_nil_iff, pop?]
  split
  · next h => simp [h]
  · next h => simp [h]

theorem capacity_of_pop? (h : q.pop? = some (entry, q')) : q'.capacity = q.capacity := by
  unfold pop? at h
  split at h
  · cases h
  · cases h
    rfl

theorem toList_of_pop? (h : q.pop? = some (entry, q')) : q.toList = entry :: q'.toList := by
  unfold pop? at h
  split at h
  · cases h
  next hne =>
  obtain ⟨rfl, rfl⟩ := Prod.mk.inj (Option.some.inj h)
  generalize hq' : PendingQueue.mk .. = q'
  obtain ⟨count, hcount⟩ := Nat.exists_eq_succ_of_ne_zero hne
  have hslots : q'.slots = q.slots := by rw [← hq']
  have hfirst : q'.first = q.index 1 := by rw [← hq']
  have hcount' : q'.count = q.count - 1 := by rw [← hq']
  have hindex (i : Nat) : q'.index i = q.index (i + 1) := by
    simp only [index, hslots, hfirst, Nat.mod_add_mod]
    rw [Nat.add_assoc, Nat.add_comm 1 i]
  have hentry (i : Nat) : q'.entry i = q.entry (i + 1) := by
    rw [← Option.some_inj, ← getElem?_index, ← getElem?_index, hindex, hslots]
  rw [toList, toList, hcount', hcount, Nat.succ_sub_one, List.range_succ_eq_map, List.map_cons,
    List.map_map]
  exact congrArg _ (List.map_congr_left fun i _ => (hentry i).symm)

end BenchConsole.Relay.PendingQueue
