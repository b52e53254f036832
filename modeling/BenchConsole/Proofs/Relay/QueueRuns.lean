import BenchConsole.Proofs.Relay.PendingQueue

/-!
# The queue over a run of calls

Commands are put into the queue and taken out of it in any order. Three machines do so: the queue
itself, a list that holds no more than `capacity` entries (`listCall`), and a ring that keeps the
positions of both of its ends and empties a slot when its entry is taken out (`SlotRing`).

One call takes machines that correspond to machines that correspond and gives the same answer, so
whole runs agree (`runCalls_of_related`). For the queue the correspondence is its own view as a list
(`PendingQueue.Represents`). For the ring it says of every slot what it holds
(`SlotRing.Represents`), so that what was taken out or never put in leaves its slot empty.
-/

namespace BenchConsole.Relay

variable {σ τ : Type} {capacity : Nat} {entries : List DeferredCommand}

/-! ## Calls -/

inductive QueueCall where
  | enqueue (command : String)
  | pop
  deriving DecidableEq

/-- What a call gives. -/
inductive QueueAnswer where
  /-- The number of pending entries, or why the command was refused. -/
  | enqueued (pending : Except Failure Nat)
  /-- The entry that was taken out, if there was one. -/
  | popped (entry : Option DeferredCommand)

/-- The answers to calls that are made one after the other, and the state they lead to. -/
def runCalls (step : σ → QueueCall → QueueAnswer × σ) (state : σ) :
    List QueueCall → List QueueAnswer × σ
  | [] => ([], state)
  | call :: calls =>
    let (answer, later) := step state call
    let (answers, last) := runCalls step later calls
    (answer :: answers, last)

/-- What can be asked of a queue without changing it. -/
structure QueueView where
  capacity : Nat
  length : Nat
  isEmpty : Bool
  isFull : Bool
  peek : Option DeferredCommand

/-- Two machines that answer each call alike, in corresponding states, answer runs alike. -/
theorem runCalls_of_related {step : σ → QueueCall → QueueAnswer × σ}
    {step' : τ → QueueCall → QueueAnswer × τ} {related : σ → τ → Prop}
    (hstep : ∀ s t call, related s t →
      (step s call).1 = (step' t call).1 ∧ related (step s call).2 (step' t call).2)
    {s : σ} {t : τ} (h : related s t) (calls : List QueueCall) :
    (runCalls step s calls).1 = (runCalls step' t calls).1 ∧
      related (runCalls step s calls).2 (runCalls step' t calls).2 := by
  induction calls generalizing s t with
  | nil => exact ⟨rfl, h⟩
  | cons call calls ih =>
    obtain ⟨hanswer, hlater⟩ := hstep s t call h
    obtain ⟨hanswers, hlast⟩ := ih hlater
    exact ⟨congrArg₂ List.cons hanswer hanswers, hlast⟩

/-! ## The bounded list -/

/-- A call on a list that holds no more than `capacity` entries. -/
def listCall (capacity : Nat) (entries : List DeferredCommand) :
    QueueCall → QueueAnswer × List DeferredCommand
  | .enqueue command =>
    if entries.length = capacity then (.enqueued (.error (.queueFull capacity)), entries)
    else if 255 < command.length then
      (.enqueued (.error (.invalidCommand "command longer than 255 characters")), entries)
    else (.enqueued (.ok (entries.length + 1)), entries ++ [⟨command, ""⟩])
  | .pop => (.popped entries.head?, entries.tail)

def listView (capacity : Nat) (entries : List DeferredCommand) : QueueView where
  capacity
  length := entries.length
  isEmpty := entries.isEmpty
  isFull := entries.length == capacity
  peek := entries.head?

/-! ## The queue -/

namespace PendingQueue

variable {q : PendingQueue}

/-- A call on the queue, which stays as it is when a command is refused. -/
def call (q : PendingQueue) : QueueCall → QueueAnswer × PendingQueue
  | .enqueue command =>
    match q.enqueue command with
    | .ok (pending, later) => (.enqueued (.ok pending), later)
    | .error failure => (.enqueued (.error failure), q)
  | .pop =>
    match q.pop? with
    | some (entry, later) => (.popped (some entry), later)
    | none => (.popped none, q)

def view (q : PendingQueue) : QueueView where
  capacity := q.capacity
  length := q.count
  isEmpty := q.isEmpty
  isFull := q.isFull
  peek := q.peek?

/-- The queue stands for a list of entries. -/
structure Represents (capacity : Nat) (q : PendingQueue) (entries : List DeferredCommand) :
    Prop where
  capacity_eq : q.capacity = capacity
  toList_eq : q.toList = entries

namespace Represents

theorem new (requested : Nat) : Represents (max requested 1) (.new requested) [] where
  capacity_eq := Array.size_replicate
  toList_eq := rfl

theorem call (h : Represents capacity q entries) (c : QueueCall) :
    (q.call c).1 = (listCall capacity entries c).1 ∧
      Represents capacity (q.call c).2 (listCall capacity entries c).2 := by
  obtain ⟨rfl, rfl⟩ := h
  cases c with
  | enqueue command =>
    have hlimit : maxCommandLength = 255 := rfl
    simp only [PendingQueue.call, listCall, length_toList, ← hlimit]
    rcases q.enqueue_cases command with
      ⟨hfull, he⟩ | ⟨hroom, hlong, he⟩ | ⟨hroom, hshort, q', he, hlist⟩
    · rw [he, if_pos hfull]
      exact ⟨rfl, rfl, rfl⟩
    · rw [he, if_neg (Nat.ne_of_lt hroom), if_pos hlong]
      exact ⟨rfl, rfl, rfl⟩
    · rw [he, if_neg (Nat.ne_of_lt hroom), if_neg (Nat.not_lt.mpr hshort)]
      exact ⟨rfl, capacity_of_enqueue he, hlist⟩
  | pop =>
    simp only [PendingQueue.call, listCall]
    cases hpop : q.pop? with
    | none =>
      rw [pop?_eq_none_iff.mp hpop]
      exact ⟨rfl, rfl, pop?_eq_none_iff.mp hpop⟩
    | some popped =>
      obtain ⟨entry, q'⟩ := popped
      rw [toList_of_pop? hpop]
      exact ⟨rfl, capacity_of_pop? hpop, rfl⟩

theorem view_eq (h : Represents capacity q entries) : q.view = listView capacity entries := by
  obtain ⟨rfl, rfl⟩ := h
  have hempty : q.isEmpty = q.toList.isEmpty := by
    rw [isEmpty, Bool.eq_iff_iff, beq_iff_eq, List.isEmpty_iff, toList_eq_nil_iff]
  simp only [PendingQueue.view, listView, length_toList, hempty, peek?_eq_head?, isFull]

end Represents

end PendingQueue

/-! ## The ring with two positions -/

/-- A ring of slots with the position to read from and the position to write to. -/
structure SlotRing where
  slots : Array (Option DeferredCommand)
  read : Nat
  write : Nat
  count : Nat

namespace SlotRing

variable {r : SlotRing} {k : Nat}

def new (requested : Nat) : SlotRing where
  slots := Array.replicate (max requested 1) none
  read := 0
  write := 0
  count := 0

/-- What is in the slot to read from. -/
def front (r : SlotRing) : Option DeferredCommand :=
  r.slots[r.read]?.join

def put (r : SlotRing) (command : String) : SlotRing where
  slots := r.slots.setIfInBounds r.write (some ⟨command, ""⟩)
  read := r.read
  write := (r.write + 1) % r.slots.size
  count := r.count + 1

/-- Empties the slot to read from. -/
def take (r : SlotRing) : SlotRing where
  slots := r.slots.setIfInBounds r.read none
  read := (r.read + 1) % r.slots.size
  write := r.write
  count := r.count - 1

def call (r : SlotRing) : QueueCall → QueueAnswer × SlotRing
  | .enqueue command =>
    if r.count = r.slots.size then (.enqueued (.error (.queueFull r.slots.size)), r)
    else if PendingQueue.maxCommandLength < command.length then
      (.enqueued (.error (.invalidCommand ("command longer than " ++
        toString PendingQueue.maxCommandLength ++ " characters"))), r)
    else (.enqueued (.ok (r.count + 1)), r.put command)
  | .pop => if r.count = 0 then (.popped none, r) else (.popped r.front, r.take)

def view (r : SlotRing) : QueueView where
  capacity := r.slots.size
  length := r.count
  isEmpty := r.count == 0
  isFull := r.count == r.slots.size
  peek := if r.count = 0 then none else r.front

/-- How many places a slot is behind the one to read from. -/
def offset (r : SlotRing) (k : Nat) : Nat :=
  (k + r.slots.size - r.read) % r.slots.size

/-- The ring stands for a list of entries: each slot holds the entry of the list that is as far
behind the first one as the slot is behind the one to read from, and none if the list has no such
entry. -/
structure Represents (capacity : Nat) (r : SlotRing) (entries : List DeferredCommand) :
    Prop where
  size_eq : r.slots.size = capacity
  read_lt : r.read < capacity
  write_eq : r.write = (r.read + entries.length) % capacity
  count_eq : r.count = entries.length
  length_le : entries.length ≤ capacity
  slots_eq : ∀ k < capacity, r.slots[k]? = some entries[r.offset k]?

theorem offset_eq (hread : r.read < r.slots.size) (hk : k < r.slots.size) :
    r.offset k = if r.read ≤ k then k - r.read else k + r.slots.size - r.read := by
  rw [offset, Nat.add_sub_assoc (Nat.le_of_lt hread),
    PendingQueue.add_mod_eq hk (Nat.sub_le _ _)]
  split <;> split <;> omega

namespace Represents

theorem new (requested : Nat) : Represents (max requested 1) (.new requested) [] where
  size_eq := Array.size_replicate
  read_lt := by change 0 < max requested 1; omega
  write_eq := (Nat.zero_mod _).symm
  count_eq := rfl
  length_le := Nat.zero_le _
  slots_eq k hk := by simp [SlotRing.new, hk]

theorem front_eq (h : Represents capacity r entries) : r.front = entries.head? := by
  have hsize : r.slots.size = capacity := h.size_eq
  have hread := h.read_lt
  have hzero : r.offset r.read = 0 := by
    rw [offset_eq (by omega) (by omega), if_pos (Nat.le_refl _), Nat.sub_self]
  rw [front, h.slots_eq _ hread, hzero, Option.join_some, List.head?_eq_getElem?]

/-- A new entry goes to the one slot that is as far behind the first entry as the list is long. -/
theorem put (h : Represents capacity r entries) (hroom : entries.length < capacity)
    (command : String) : Represents capacity (r.put command) (entries ++ [⟨command, ""⟩]) := by
  obtain ⟨rfl, hread, hwrite, hcount, hlength, hslots⟩ := h
  have hsize : (r.put command).slots.size = r.slots.size := Array.size_setIfInBounds
  have hoffset (k : Nat) : (r.put command).offset k = r.offset k := by
    rw [offset, hsize]
    rfl
  refine ⟨hsize, hread, ?_, ?_, ?_, fun k hk => ?_⟩
  · change (r.write + 1) % r.slots.size = _
    rw [hwrite, Nat.mod_add_mod, List.length_append, List.length_singleton, Nat.add_assoc]
    rfl
  · rw [List.length_append]
    exact congrArg (· + 1) hcount
  · rw [List.length_append]
    exact hroom
  · have hlast : r.write = k ↔ r.offset k = entries.length := by
      rw [hwrite, offset_eq hread hk, PendingQueue.add_mod_eq hread hlength]
      split <;> split <;> omega
    change (r.slots.setIfInBounds r.write (some ⟨command, ""⟩))[k]? = _
    rw [hoffset, Array.getElem?_setIfInBounds]
    by_cases hk' : r.write = k
    · rw [if_pos hk', if_pos (hk' ▸ hk), hlast.mp hk', List.getElem?_concat_length]
    · rw [if_neg hk', hslots k hk, List.getElem?_append]
      have hne := mt hlast.mpr hk'
      split
      · rfl
      · rw [List.getElem?_eq_none (by omega), List.getElem?_eq_none (by simp; omega)]

/-- The slot of the entry that is taken out becomes the last one behind the next entry, and it is
empty. -/
theorem take (h : Represents capacity r entries) (hne : entries ≠ []) :
    Represents capacity r.take entries.tail := by
  obtain ⟨first, rest, rfl⟩ := List.exists_cons_of_ne_nil hne
  obtain ⟨rfl, hread, hwrite, hcount, hlength, hslots⟩ := h
  rw [List.length_cons] at hwrite hcount hlength
  have hsize : r.take.slots.size = r.slots.size := Array.size_setIfInBounds
  have hnext : r.take.read = (r.read + 1) % r.slots.size := rfl
  have hread' : r.take.read < r.take.slots.size := by
    rw [hsize, hnext]
    exact Nat.mod_lt _ (Nat.zero_lt_of_lt hread)
  refine ⟨hsize, hsize ▸ hread', ?_, ?_, ?_, fun k hk => ?_⟩
  · rw [hnext, Nat.mod_add_mod, List.tail_cons, Nat.add_assoc, Nat.add_comm 1]
    exact hwrite
  · change r.count - 1 = rest.length
    omega
  · exact Nat.le_of_succ_le hlength
  · have hoffset : r.take.offset k = if r.read = k then r.slots.size - 1 else r.offset k - 1 := by
      rw [offset_eq hread' (hsize ▸ hk), offset_eq hread hk, hsize, hnext,
        PendingQueue.add_mod_eq hread (by omega)]
      split_ifs <;> omega
    change (r.slots.setIfInBounds r.read none)[k]? = _
    rw [hoffset, Array.getElem?_setIfInBounds, List.tail_cons]
    by_cases hk' : r.read = k
    · rw [if_pos hk', if_pos (hk' ▸ hk), if_pos hk', List.getElem?_eq_none (by omega)]
    · have hpos : r.offset k ≠ 0 := by
        rw [offset_eq hread hk]
        split_ifs <;> omega
      obtain ⟨i, hi⟩ := Nat.exists_eq_succ_of_ne_zero hpos
      rw [if_neg hk', if_neg hk', hslots k hk, hi, Nat.succ_sub_one, List.getElem?_cons_succ]

theorem call (h : Represents capacity r entries) (c : QueueCall) :
    (r.call c).1 = (listCall capacity entries c).1 ∧
      Represents capacity (r.call c).2 (listCall capacity entries c).2 := by
  have hlimit : PendingQueue.maxCommandLength = 255 := rfl
  cases c with
  | enqueue command =>
    simp only [SlotRing.call, listCall, h.count_eq, h.size_eq, ← hlimit]
    split_ifs with hfull hlong
    · exact ⟨rfl, h⟩
    · exact ⟨rfl, h⟩
    · exact ⟨rfl, h.put (Nat.lt_of_le_of_ne h.length_le hfull) command⟩
  | pop =>
    simp only [SlotRing.call, listCall, h.count_eq, h.front_eq]
    split_ifs with hzero
    · rw [List.length_eq_zero_iff.mp hzero] at h ⊢
      exact ⟨rfl, h⟩
    · exact ⟨rfl, h.take (mt List.length_eq_zero_iff.mpr hzero)⟩

theorem view_eq (h : Represents capacity r entries) : r.view = listView capacity entries := by
  simp only [SlotRing.view, listView, h.size_eq, h.count_eq, h.front_eq]
  cases entries <;> rfl

end Represents

end SlotRing

/-! ## Runs -/

/-- The queue is a bounded list. However much room is asked for, and whatever is then put in and
taken out, the queue gives the answers of a list that holds no more than `capacity` entries, stands
for this list and shows the same of it; and so does the ring with two positions, each slot of which
holds just the entry of the list that belongs there. -/
theorem queue_is_bounded_list (requested : Nat) (calls : List QueueCall) :
    let capacity := max requested 1
    let (answers, entries) := runCalls (listCall capacity) [] calls
    let (given, q) := runCalls PendingQueue.call (.new requested) calls
    let (slotted, r) := runCalls SlotRing.call (.new requested) calls
    given = answers ∧ q.toList = entries ∧ q.view = listView capacity entries ∧
      slotted = answers ∧ r.view = listView capacity entries ∧
      ∀ k < capacity, r.slots[k]? = some entries[(k + capacity - r.read) % capacity]? := by
  intro capacity
  obtain ⟨hgiven, hq⟩ := runCalls_of_related (fun _ _ c h => h.call c)
    (PendingQueue.Represents.new requested) calls
  obtain ⟨hslotted, hr⟩ := runCalls_of_related (fun _ _ c h => h.call c)
    (SlotRing.Represents.new requested) calls
  refine ⟨hgiven, hq.toList_eq, hq.view_eq, hslotted, hr.view_eq, fun k hk => ?_⟩
  have hslot := hr.slots_eq k hk
  rwa [SlotRing.offset, hr.size_eq] at hslot

end BenchConsole.Relay
