import BenchConsole.Board.Fault
import BenchConsole.Board.Reply

/-!
# The config table

A fixed set of keys, each in a section, with a text as value. Keys can be read, written and all
put back to their defaults, but none can be added.
-/

namespace BenchConsole.Board

inductive ConfigStore.Request where
  | get (sectionName key : String)
  | set (sectionName key value : String)
  | reset
  deriving DecidableEq

/-- One key of the table with its value. -/
structure ConfigEntry where
  sectionName : String
  key : String
  value : String
  deriving DecidableEq

structure ConfigStore where
  entries : List ConfigEntry
  deriving DecidableEq

namespace ConfigStore

def default : ConfigStore :=
  ⟨[⟨"dacs", "limit_max", "8.0"⟩, ⟨"dacs", "limit_min", "-8.0"⟩,
    ⟨"display", "brightness", "32"⟩, ⟨"display", "rotation", "0"⟩,
    ⟨"routing", "stack_paths", "2"⟩, ⟨"serial", "baud", "115200"⟩]⟩

/-- Whether an entry is the one of a given key. -/
def isFor (sectionName key : String) (entry : ConfigEntry) : Bool :=
  entry.sectionName == sectionName && entry.key == key

def get? (store : ConfigStore) (sectionName key : String) : Option String :=
  (store.entries.find? (isFor sectionName key)).map ConfigEntry.value

/-- The table with another value for a key. -/
def set (store : ConfigStore) (sectionName key value : String) : ConfigStore :=
  ⟨store.entries.map fun entry =>
    if isFor sectionName key entry then { entry with value } else entry⟩

def handle (store : ConfigStore) : Request → Except Fault (Reply × ConfigStore)
  | .get sectionName key =>
    match store.get? sectionName key with
    | some value => .ok (.text value, store)
    | none => .error (.unknownConfigKey sectionName key)
  | .set sectionName key value =>
    match store.get? sectionName key with
    | some _ => .ok (.done, store.set sectionName key value)
    | none => .error (.unknownConfigKey sectionName key)
  | .reset => .ok (.done, default)

end ConfigStore

end BenchConsole.Board
