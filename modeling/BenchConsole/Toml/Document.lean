import BenchConsole.Toml.Scalar

/-!
# Reading configuration documents

A document is a sequence of lines: blank ones, comments, headers of tables, and keys with values.
A `Scanner` takes something off the front of a text, or fails. Where a construct repeats or nests,
it is given *fuel*; every step takes at least one character, so the length of the document is
enough. Arrays and tables in braces may stand inside each other up to `maxNesting` deep, and a
dotted key may have as many parts.
-/

namespace BenchConsole.Toml

/-- Takes something off the front of a text. -/
abbrev Scanner := StateT (List Char) Option

namespace Scanner

/-! ## Characters, blanks and comments -/

/-- Takes a given text, if it is there. -/
def literal? (text : List Char) : Scanner Bool := do
  match text.isPrefixOf? (← get) with
  | some rest => set rest; return true
  | none => return false

def expect (text : List Char) : Scanner Unit := do
  if ← literal? text then return else failure

/-- Takes the longest run of characters that satisfy `p`. -/
def takeWhile (p : Char → Bool) : Scanner (List Char) := do
  let (taken, rest) := (← get).span p
  set rest
  return taken

/-- Blanks and tabs. -/
def skipBlanks : Scanner Unit := do
  let _ ← takeWhile fun c => c == ' ' || c == '\t'

/-- A character that may stand in a comment or text: any but control characters, tabs excepted. -/
def isVisible (c : Char) : Bool :=
  c == '\t' || (0x20 ≤ c.toNat && c.toNat != 0x7F)

/-- The end of a line, if it is there. -/
def newline? : Scanner Bool := do
  if ← literal? ['\n'] then return true else literal? ['\r', '\n']

/-- A comment, if there is one. -/
def skipComment : Scanner Unit := do
  if ← literal? ['#'] then
    let _ ← takeWhile isVisible

/-- The rest of a line that has nothing more to say. -/
def endLine : Scanner Unit := do
  skipBlanks
  skipComment
  if (← get).isEmpty then return
  unless ← newline? do failure

/-- Blanks, comments and ends of lines between the items of a value. -/
def skipSpace : Nat → Scanner Unit
  | 0 => return
  | fuel + 1 => do
    skipBlanks
    skipComment
    if ← newline? then skipSpace fuel

/-! ## Texts -/

/-- A character by its code point; surrogates are none. -/
def charOfCode? (n : Nat) : Option Char :=
  if n < 0xD800 ∨ (0xDFFF < n ∧ n < 0x110000) then some (Char.ofNat n) else none

/-- A character written as `width` hexadecimal digits. -/
def codePoint (width : Nat) : Scanner Char := do
  let digits := (← get).take width
  if digits.length = width ∧ digits.all (isDigitOf 16) then
    set ((← get).drop width)
    match charOfCode? (digits.foldl (fun n c => n * 16 + digitValue c) 0) with
    | some c => return c
    | none => failure
  else failure

def anyChar : Scanner Char := do
  match ← get with
  | c :: rest => set rest; return c
  | [] => failure

/-- The character that an escape stands for, after its backslash. -/
def escape : Scanner Char := do
  match ← anyChar with
  | 'b' => return '\x08'
  | 't' => return '\t'
  | 'n' => return '\n'
  | 'f' => return '\x0c'
  | 'r' => return '\r'
  | 'e' => return '\x1b'
  | '"' => return '"'
  | '\\' => return '\\'
  | 'x' => codePoint 2
  | 'u' => codePoint 4
  | 'U' => codePoint 8
  | _ => failure

/-- The rest of a text in single or double quotes on one line. Escapes count only between double
quotes. -/
def quotedRest (mark : Char) : Nat → Scanner (List Char)
  | 0 => failure
  | fuel + 1 => do
    let c ← anyChar
    if c = mark then return []
    else if c = '\\' ∧ mark = '"' then
      let e ← escape
      return e :: (← quotedRest mark fuel)
    else if isVisible c then return c :: (← quotedRest mark fuel)
    else failure

/-- A backslash at the end of a line takes the line's end and all blanks after it with it. The text
after the backslash is given; nothing is taken if this is no such backslash. -/
def lineJoin? (fuel : Nat) : Scanner Bool := do
  let start ← get
  skipBlanks
  if ← newline? then
    let rec skipLines : Nat → Scanner Unit
      | 0 => return
      | fuel + 1 => do
        skipBlanks
        if ← newline? then skipLines fuel
    skipLines fuel
    return true
  else
    set start
    return false

/-- The rest of a text between triple quotes. Up to two quotes may stand before the closing ones.
Ends of lines belong to the text as they are written. -/
def multilineRest (mark : Char) : Nat → Scanner (List Char)
  | 0 => failure
  | fuel + 1 => do
    if ← literal? [mark, mark, mark] then
      if ← literal? [mark, mark] then return [mark, mark]
      else if ← literal? [mark] then return [mark]
      else return []
    else if ← literal? ['\n'] then return '\n' :: (← multilineRest mark fuel)
    else if ← literal? ['\r', '\n'] then return '\r' :: '\n' :: (← multilineRest mark fuel)
    else
      let c ← anyChar
      if c = '\\' ∧ mark = '"' then
        if ← lineJoin? fuel then multilineRest mark fuel
        else
          let e ← escape
          return e :: (← multilineRest mark fuel)
      else if isVisible c then return c :: (← multilineRest mark fuel)
      else failure

/-- A quoted text, if there is one. -/
def quoted? (fuel : Nat) (mark : Char) (multiline : Bool) : Scanner (Option String) := do
  if ← (if multiline then literal? [mark, mark, mark] else return false) then
    let _ ← newline?
    return some (String.ofList (← multilineRest mark fuel))
  else if ← literal? [mark] then return some (String.ofList (← quotedRest mark fuel))
  else return none

/-! ## Keys -/

/-- A character of a key without quotes. -/
def isBareKey (c : Char) : Bool :=
  c.isAlphanum || c == '_' || c == '-'

/-- One part of a key. -/
def simpleKey (fuel : Nat) : Scanner String := do
  if let some key ← quoted? fuel '"' false then return key
  if let some key ← quoted? fuel '\'' false then return key
  let key ← takeWhile isBareKey
  if key.isEmpty then failure else return String.ofList key

/-- The parts of a key, separated by points, with blanks around them. -/
def keyParts : Nat → Scanner (List String)
  | 0 => failure
  | fuel + 1 => do
    skipBlanks
    let key ← simpleKey fuel
    skipBlanks
    if ← literal? ['.'] then return key :: (← keyParts fuel) else return [key]

/-- The most arrays and tables in braces that may be open at once, and the most parts of a key. -/
def maxNesting : Nat := 80

/-- A key, by its parts. -/
def dottedKey (fuel : Nat) : Scanner (List String) := do
  let path ← keyParts fuel
  if maxNesting < path.length then failure else return path

/-! ## Values -/

/-- A character of a word that is no text: any but blanks, ends of lines, quotes and the marks of
arrays, tables, keys and comments. -/
def isScalarChar (c : Char) : Bool :=
  !" \t\r\n\"'#,=[]\x7b\x7d".contains c

/-- A boolean, a number, or a date or time. -/
def scalar : Scanner Value := do
  let word ← takeWhile isScalarChar
  let rest ← get
  let word ←
    match takeDate? word, rest with
    | some [], ' ' :: c :: _ =>
      if c.isDigit then do
        set rest.tail
        pure (word ++ ' ' :: (← takeWhile isScalarChar))
      else pure word
    | _, _ => pure word
  match readScalar? word with
  | some v => return v
  | none => failure

mutual

/-- A value in which `depth` arrays and tables may be open at once. -/
def value : Nat → Nat → Scanner Value
  | 0, _ => failure
  | fuel + 1, depth => do
    if let some text ← quoted? fuel '"' true then return .string text
    if let some text ← quoted? fuel '\'' true then return .string text
    if ← literal? ['['] then
      if depth = 0 then failure else return .array (← arrayRest fuel (depth - 1))
    if ← literal? ['\x7b'] then
      if depth = 0 then failure else return .table .inline (← inlineRest fuel (depth - 1) [])
    scalar

/-- The items of an array, after its opening bracket or a comma. -/
def arrayRest : Nat → Nat → Scanner (List Value)
  | 0, _ => failure
  | fuel + 1, depth => do
    skipSpace fuel
    if ← literal? [']'] then return []
    let item ← value fuel depth
    skipSpace fuel
    if ← literal? [','] then return item :: (← arrayRest fuel depth)
    expect [']']
    return [item]

/-- The entries of a table in braces, after its opening brace or a comma. -/
def inlineRest : Nat → Nat → Entries → Scanner Entries
  | 0, _, _ => failure
  | fuel + 1, depth, entries => do
    skipSpace fuel
    if ← literal? ['\x7d'] then return entries
    let path ← dottedKey fuel
    skipSpace fuel
    expect ['=']
    skipSpace fuel
    let v ← value fuel depth
    match entries.assign v true path with
    | none => failure
    | some entries =>
      skipSpace fuel
      if ← literal? [','] then inlineRest fuel depth entries
      else
        expect ['\x7d']
        return entries

end

/-! ## Documents -/

/-- What one line of a document says. -/
inductive Line where
  | blank
  | header (path : List String)
  | item (path : List String)
  | entry (path : List String) (v : Value)

/-- One line, with its end; a value may go on over several lines. -/
def line (fuel : Nat) : Scanner Line := do
  skipBlanks
  let result ←
    match ← get with
    | [] => pure Line.blank
    | '#' :: _ => pure Line.blank
    | '\n' :: _ => pure Line.blank
    | '\r' :: _ => pure Line.blank
    | '[' :: '[' :: _ => do
      expect ['[', '[']
      let path ← dottedKey fuel
      expect [']', ']']
      pure (Line.item path)
    | '[' :: _ => do
      expect ['[']
      let path ← dottedKey fuel
      expect [']']
      pure (Line.header path)
    | _ => do
      let path ← dottedKey fuel
      expect ['=']
      skipBlanks
      pure (Line.entry path (← value fuel maxNesting))
  endLine
  return result

/-- The lines of a document, each one with the table it belongs to by the headers before it. -/
def document : Nat → List String → Entries → Scanner Entries
  | 0, _, entries => return entries
  | fuel + 1, current, entries => do
    if (← get).isEmpty then return entries
    match ← line fuel with
    | .blank => document fuel current entries
    | .header path =>
      match entries.atTable (Entries.define (path.getLastD "")) path.dropLast with
      | some entries => document fuel path entries
      | none => failure
    | .item path =>
      match entries.atTable (Entries.append (path.getLastD "")) path.dropLast with
      | some entries => document fuel path entries
      | none => failure
    | .entry path v =>
      match entries.atTable (Entries.assign v true path) current with
      | some entries => document fuel current entries
      | none => failure

end Scanner

def parse? (text : String) : Option Entries :=
  let cs := text.toList
  let cs := if cs.head? = some '\uFEFF' then cs.tail else cs
  ((Scanner.document (cs.length + 1) [] []).run cs).map Prod.fst

end BenchConsole.Toml
