import BenchConsole.Vocabulary

/-!
# Function names

A function is either the name of a category, with the action as its first argument
(`dac(set, 0, 2.5)`), or a name that starts with a verb (`setDac(0, 2.5)`). The table lists them
all; names are matched ignoring the case of ASCII letters.
-/

namespace BenchConsole

open Text

/-- A function that commands may call. -/
structure FunctionEntry where
  function : String
  category : Category
  form : Form
  deriving DecidableEq

namespace FunctionTable

/-- The functions named by a verb. -/
def verbEntries : List (String × Category) :=
  [("setGpio", .gpio), ("getGpio", .gpio),
    ("connectNodes", .nodes), ("disconnectNodes", .nodes), ("addBridge", .nodes),
    ("removeBridge", .nodes), ("clearNodes", .nodes),
    ("setDac", .dac), ("getDac", .dac),
    ("getAdc", .adc),
    ("getCurrent", .currentSense),
    ("getConfig", .config), ("setConfig", .config), ("resetConfig", .config),
    ("resetArduino", .target), ("flashArduino", .target),
    ("connectUart", .uart), ("disconnectUart", .uart), ("setUartBaud", .uart),
    ("getUartBaud", .uart),
    ("getProbe", .probe), ("simulateProbe", .probe),
    ("getWheel", .wheel), ("simulateWheel", .wheel),
    ("printOled", .oled), ("clearOled", .oled), ("connectOled", .oled),
    ("disconnectOled", .oled),
    ("printNets", .display), ("setDisplayMode", .display), ("getDisplayMode", .display),
    ("loadSlot", .slot), ("saveSlot", .slot), ("clearSlot", .slot), ("getSlot", .slot),
    ("setBrightness", .panel), ("getBrightness", .panel)]

/-- All functions: the categories by their own names, then the functions named by a verb. -/
def entries : List FunctionEntry :=
  Category.all.map (fun c => ⟨c.name, c, .keyword⟩) ++
    verbEntries.map fun (function, category) => ⟨function, category, .verb⟩

/-- The function of a given name, in any case of its letters. -/
def resolve (name : String) : Option FunctionEntry :=
  entries.find? fun entry => sameName entry.function name

/-- The verbs that a function name may start with. -/
def verbs : List String :=
  ["set", "get", "connect", "remove", "add", "clear", "load", "save", "reset", "flash",
    "disconnect", "simulate", "print"]

/-- The longer of two verbs, the second one if they are equally long. -/
def longerVerb (best : Option String) (verb : String) : Option String :=
  match best with
  | none => some verb
  | some other => if other.length ≤ verb.length then some verb else best

/-- The longest verb that a name starts with. -/
def verbOf? (function : String) : Option String :=
  (verbs.filter fun verb => verb.toList.isPrefixOf (lower function.toList)).foldl longerVerb none

/-- The action that a function name implies by its verb, if the category has it. -/
def impliedAction (function : String) (category : Category) : Option Action :=
  (verbOf? function).bind category.lookup

end FunctionTable

end BenchConsole
