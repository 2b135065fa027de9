import ClauseRules.Decimal.Shortest
import ClauseRules.Json.Value
import ClauseRules.Text.Quoted

/-! Writing JSON values: on one line without spaces, or over several lines with an indentation
of two spaces a level, where empty arrays and objects stay on one line.
-/

namespace ClauseRules

namespace Json

/-- A character inside of a JSON string. -/
def stringChar (c : Char) : List Char :=
  if c == '"' || c == '\\' then ['\\', c]
  else if c == '\x08' then ['\\', 'b']
  else if c == '\x0c' then ['\\', 'f']
  else if c == '\n' then ['\\', 'n']
  else if c == '\r' then ['\\', 'r']
  else if c == '\t' then ['\\', 't']
  else if c.toNat < 0x20 then
    ['\\', 'u', '0', '0', Text.hexDigit (c.toNat / 16), Text.hexDigit (c.toNat % 16)]
  else [c]

def stringLiteral (s : String) : String :=
  String.ofList (['"'] ++ s.toList.flatMap stringChar ++ ['"'])

def Number.literal : Number → String
  | .natural n => toString n
  | .negative n => "-" ++ toString n
  | .float x => x.short

mutual

/-- The value on one line. -/
def compact : Json → String
  | .null | .unreadable _ | .broken _ => "null"
  | .bool b => if b then "true" else "false"
  | .number n => n.literal
  | .string s => stringLiteral s
  | .array items _ => "[" ++ ",".intercalate (compactItems items) ++ "]"
  | .object fields _ => "\x7b" ++ ",".intercalate (compactFields fields) ++ "\x7d"

def compactItems : List Json → List String
  | [] => []
  | v :: rest => compact v :: compactItems rest

def compactFields : List (String × Json) → List String
  | [] => []
  | (name, v) :: rest => (stringLiteral name ++ ":" ++ compact v) :: compactFields rest

end

def indent (level : Nat) : String := String.ofList (List.replicate (2 * level) ' ')

/-- The parts of an array or object, each on a line of its own. -/
def block (opening closing : String) (level : Nat) (parts : List String) : String :=
  match parts with
  | [] => opening ++ closing
  | parts =>
      opening ++ "\n" ++ ",\n".intercalate (parts.map (indent (level + 1) ++ ·)) ++ "\n"
        ++ indent level ++ closing

mutual

/-- The value over several lines, its first line continuing one at the given level. -/
def prettyAt (level : Nat) : Json → String
  | .null | .unreadable _ | .broken _ => "null"
  | .bool b => if b then "true" else "false"
  | .number n => n.literal
  | .string s => stringLiteral s
  | .array items _ => block "[" "]" level (prettyItems (level + 1) items)
  | .object fields _ => block "\x7b" "\x7d" level (prettyFields (level + 1) fields)

def prettyItems (level : Nat) : List Json → List String
  | [] => []
  | v :: rest => prettyAt level v :: prettyItems level rest

def prettyFields (level : Nat) : List (String × Json) → List String
  | [] => []
  | (name, v) :: rest =>
      (stringLiteral name ++ ": " ++ prettyAt level v) :: prettyFields level rest

end

def pretty (v : Json) : String := prettyAt 0 v

end Json

end ClauseRules
