import BenchConsole.Failure

/-!
# The queue of deferred commands

A ring of slots. The oldest pending entry is at index `first`, and the `count` pending entries
follow it, starting over at the first slot after the last one. `toList` is the view of the queue
as a list, oldest entry first. A full queue refuses a new entry and keeps the old ones.
-/

namespace BenchConsole.Relay

structure DeferredCommand where
  command : String
  /-- The line of the response, empty until the command has run. -/
  response : String
  deriving DecidableEq

/-- A ring buffer of deferred commands. -/
structure PendingQueue where
  slots : Array DeferredCommand
  first : Nat
  count : Nat
  first_lt : first < slots.size
  count_le : count ≤ slots.size

namespace PendingQueue

/-- The longest command text that may be queued, in characters. -/
def maxCommandLength : Nat := 255

/-- An empty queue; there is room for one entry at least. -/
def new (capacity : Nat) : PendingQueue where
  slots := Array.replicate (max capacity 1) ⟨"", ""⟩
  first := 0
  count := 0
  first_lt := by rw [Array.size_replicate]; omega
  count_le := Nat.zero_le _

def capacity (q : PendingQueue) : Nat :=
  q.slots.size

def isEmpty (q : PendingQueue) : Bool :=
  q.count == 0

/-- Whether there is no room for another entry. -/
def isFull (q : PendingQueue) : Bool :=
  q.count == q.capacity

/-- The index of the slot `offset` places after the oldest entry. -/
def index (q : PendingQueue) (offset : Nat) : Nat :=
  (q.first + offset) % q.slots.size

theorem index_lt (q : PendingQueue) (offset : Nat) : q.index offset < q.slots.size :=
  Nat.mod_lt _ (Nat.zero_lt_of_lt q.first_lt)

/-- The entry `offset` places after the oldest one. -/
def entry (q : PendingQueue) (offset : Nat) : DeferredCommand :=
  have : q.index offset < q.slots.size := q.index_lt offset
  q.slots[q.index offset]

/-- The pending entries, oldest first. -/
def toList (q : PendingQueue) : List DeferredCommand :=
  (List.range q.count).map q.entry

/-- Appends a command and gives the number of pending entries. -/
def enqueue (q : PendingQueue) (command : String) : Except Failure (Nat × PendingQueue) :=
  if h : q.count < q.slots.size then
    if maxCommandLength < command.length then
      .error (.invalidCommand
        ("command longer than " ++ toString maxCommandLength ++ " characters"))
    else
      .ok (q.count + 1,
        { slots := q.slots.set (q.index q.count) ⟨command, ""⟩ (q.index_lt q.count)
          first := q.first
          count := q.count + 1
          first_lt := by simpa using q.first_lt
          count_le := by simpa using Nat.succ_le_of_lt h })
  else .error (.queueFull q.capacity)

def peek? (q : PendingQueue) : Option DeferredCommand :=
  if q.count = 0 then none else some (q.entry 0)

/-- The oldest pending entry and the queue without it. -/
def pop? (q : PendingQueue) : Option (DeferredCommand × PendingQueue) :=
  if q.count = 0 then none
  else
    some (q.entry 0,
      { slots := q.slots
        first := q.index 1
        count := q.count - 1
        first_lt := q.index_lt 1
        count_le := Nat.le_trans (Nat.sub_le _ _) q.count_le })

end PendingQueue

end BenchConsole.Relay
