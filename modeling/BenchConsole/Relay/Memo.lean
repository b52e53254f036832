import BenchConsole.Command.Reader

/-!
# Memory of command texts

Reading a command depends on its text alone, so its outcome can be kept under the text. The memo
holds the outcomes of the latest texts that it had to read, oldest first, failures included. When
it is full, the oldest entry makes room. A memo of capacity zero keeps nothing.
-/

namespace BenchConsole.Relay

/-- Outcomes of reading commands, by text. -/
structure Memo where
  capacity : Nat
  /-- Texts with their outcomes, oldest first. -/
  entries : List (String × Except Failure Command) := []
  hits : Nat := 0
  misses : Nat := 0

namespace Memo

/-- The texts that the memo remembers, oldest first. -/
def texts (memo : Memo) : List String :=
  memo.entries.map Prod.fst

def size (memo : Memo) : Nat :=
  memo.entries.length

/-- What the memo remembers of a text. -/
def find? (memo : Memo) (text : String) : Option (Except Failure Command) :=
  memo.entries.lookup text

/-- Appends an entry; the oldest one makes room if there is none. -/
def remember (memo : Memo) (text : String) (parsed : Except Failure Command) :
    List (String × Except Failure Command) :=
  if memo.capacity = 0 then memo.entries
  else
    let kept := if memo.capacity ≤ memo.size then memo.entries.tail else memo.entries
    kept ++ [(text, parsed)]

/-- Reads a command, unless the outcome is remembered. -/
def read (memo : Memo) (text : String) : Except Failure Command × Memo :=
  match memo.find? text with
  | some parsed => (parsed, { memo with hits := memo.hits + 1 })
  | none =>
    let parsed := Command.parse text
    (parsed, { memo with entries := memo.remember text parsed, misses := memo.misses + 1 })

end Memo

end BenchConsole.Relay
