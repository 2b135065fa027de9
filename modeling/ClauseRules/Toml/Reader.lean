import ClauseRules.Toml.Table
import ClauseRules.Toml.Text

/-! Reading TOML text, by version 1.1 of the format. Arrays and tables in braces nest to a depth
of 80.
-/

namespace ClauseRules.Toml

namespace Reader

def fail {α : Type} : Reader α := fun _ => none

def peek : Reader (Option Char) := fun cs => some (cs.head?, cs)

/-- Changes what is left of the text. -/
def skip (f : List Char → List Char) : Reader Unit := fun cs => some ((), f cs)

def expect (c : Char) : Reader Unit := fun cs => (afterChar? c cs).map ((), ·)

/-- The longest run of characters of a class. -/
def run (isMember : Char → Bool) : Reader (List Char) := fun cs => some (cs.span isMember)

def gap : Reader Unit := skip fun cs => skipGap (cs.length + 1) cs

/-- Whether the character follows; if so it is passed. -/
def passes (c : Char) : Reader Bool := fun cs =>
  match afterChar? c cs with
  | some rest => some (true, rest)
  | none => some (false, cs)

end Reader

open Reader

/-! ### Keys -/

def isKeyChar (c : Char) : Bool := c.isAlphanum || c == '_' || c == '-'

/-- A key without dots, bare or in quotes on one line. -/
def readSimpleKey : Reader String := do
  match (← peek).bind quote? with
  | some quote => fun cs => readLine quote [] cs.length (cs.drop 1)
  | none =>
      let cs ← run isKeyChar
      if cs.isEmpty then fail else return String.ofList cs

/-- The parts of a dotted key behind the first one; `fuel` bounds their number. -/
def readKeyParts : (fuel : Nat) → Reader (List String)
  | 0 => fail
  | fuel + 1 => do
      skip skipBlanks
      if ← passes '.' then
        skip skipBlanks
        let part ← readSimpleKey
        return part :: (← readKeyParts fuel)
      else return []

/-- A key, parted into the path to its last part and this part; blanks behind it are passed. -/
def readKey : Reader (List String × String) := do
  let first ← readSimpleKey
  let more ← readKeyParts ((← get).length + 1)
  let parts := first :: more
  return (parts.dropLast, parts.getLastD first)

/-! ### Values -/

def isWordChar (c : Char) : Bool :=
  c.isAlphanum || c == '+' || c == '-' || c == '_' || c == '.' || c == ':'

/-- A value without quotes and brackets. One space may stand between a date and a time. -/
def readWord : Reader Toml := do
  let first ← run isWordChar
  let rest ← get
  let cs ←
    match rest with
    | ' ' :: c :: _ =>
        if Decimal.isDigit c && afterDate? first == some [] then
          skip (List.drop 1)
          pure (first ++ ' ' :: (← run isWordChar))
        else pure first
    | _ => pure first
  match ofWord? cs with
  | some v => return v
  | none => fail

/-- The items of an array or of a table in braces up to the closing bracket, parted by commas;
`fuel` bounds their number. -/
def readItems {α : Type} (close : Char) (item : Reader α) : (fuel : Nat) → Reader (List α)
  | 0 => fail
  | fuel + 1 => do
      gap
      if ← passes close then return []
      let v ← item
      gap
      if ← passes ',' then return v :: (← readItems close item fuel)
      expect close
      return [v]

/-- A key and its value, with an equals sign between. -/
def readEntry (value : Reader Toml) : Reader (List String × String × Toml) := do
  let (path, key) ← readKey
  expect '='
  skip skipBlanks
  return (path, key, ← value)

/-- A value in which collections nest to at most the given depth. -/
def readValue : (depth : Nat) → Reader Toml
  | 0 => do
      match (← peek).bind quote? with
      | some quote => .string <$> readString quote
      | none => readWord
  | depth + 1 => do
      let bound := (← get).length
      if ← passes '[' then .array <$> readItems ']' (readValue depth) bound
      else if ← passes '\x7b' then
        let entries ← readItems '\x7d' (readEntry (readValue depth)) bound
        match ofEntries? entries with
        | some v => return v
        | none => fail
      else readValue 0

/-- The greatest depth to which collections nest. -/
def maxDepth : Nat := 80

/-! ### Documents -/

def readHeader : Reader Statement := do
  let isElement ← passes '['
  skip skipBlanks
  let (path, key) ← readKey
  expect ']'
  if isElement then
    expect ']'
    return .elementHeader path key
  else return .header path key

def readStatement : Reader Statement := do
  if ← passes '[' then readHeader
  else
    let (path, key, value) ← readEntry (readValue maxDepth)
    return .entry path key value

/-- Statements on lines of their own; `fuel` bounds their number. -/
def readStatements : (fuel : Nat) → Reader (List Statement)
  | 0 => fail
  | fuel + 1 => do
      gap
      if (← get).isEmpty then return []
      let statement ← readStatement
      skip fun cs => skipComment (skipBlanks cs)
      let rest ← get
      if rest.isEmpty then return [statement]
      match afterLineEnd? rest with
      | some rest =>
          set rest
          return statement :: (← readStatements fuel)
      | none => fail

/-- The tree of a TOML document, or nothing if the text is none. -/
def parse? (text : String) : Option Toml := do
  let cs := text.toList
  let cs := if cs.head? == some '\ufeff' then cs.drop 1 else cs
  let (statements, _) ← readStatements (cs.length + 1) cs
  ofStatements? statements

end ClauseRules.Toml
