import ClauseRules.Text.Quoted
import ClauseRules.Toml.Text

/-! Strings and arrays of strings as TOML text. A string is written in the first form that takes it
as it is, double quotes being preferred, and with escapes where there is none. Between double
quotes tabs are escaped all the same.
-/

namespace ClauseRules.Toml

/-- The length of the longest run of a character. -/
def longestRun (c : Char) (cs : List Char) : Nat :=
  (cs.foldl (fun (longest, run) d =>
    let run := if d == c then run + 1 else 0
    (max longest run, run)) (0, 0)).1

/-- A way of writing a string. -/
structure StringForm where
  quote : Quote
  /-- Whether there are three quotes on each side, and line ends between them as they are. -/
  isLong : Bool
deriving DecidableEq, Repr

namespace StringForm

/-- The number of quotes that may follow each other inside of the string. -/
def quotesAllowed (form : StringForm) : Nat := if form.isLong then 2 else 0

def isControl (c : Char) : Bool := c != '\t' && c != '\n' && !isPrintable c

/-- Whether the form takes a text without escapes. -/
def takesAsIs (form : StringForm) (cs : List Char) : Bool :=
  !cs.any isControl && longestRun form.quote.char cs ≤ form.quotesAllowed
    && (form.isLong || !cs.contains '\n') && (form.quote == .single || !cs.contains '\\')

/-- The forms in the order of preference. -/
def all : List StringForm :=
  [⟨.double, false⟩, ⟨.single, false⟩, ⟨.double, true⟩, ⟨.single, true⟩]

/-- The first form that takes a text as it is, or else double quotes. -/
def choose (cs : List Char) : StringForm :=
  (all.find? (·.takesAsIs cs)).getD ⟨.double, cs.contains '\n'⟩

/-- A character between double quotes, after `run` quotes. -/
def escaped (form : StringForm) (run : Nat) (c : Char) : List Char :=
  if c == '"' then if form.quotesAllowed ≤ run then ['\\', '"'] else ['"']
  else if c == '\\' then ['\\', '\\']
  else if c == '\x08' then ['\\', 'b']
  else if c == '\t' then ['\\', 't']
  else if c == '\x0c' then ['\\', 'f']
  else if c == '\r' then ['\\', 'r']
  else if c == '\n' then if form.isLong then ['\n'] else ['\\', 'n']
  else if isControl c then
    ['\\', 'u', '0', '0', (Text.hexDigit (c.toNat / 16)).toUpper,
      (Text.hexDigit (c.toNat % 16)).toUpper]
  else [c]

/-- The text between double quotes; `run` counts the quotes right before it that are not escaped. -/
def body (form : StringForm) (run : Nat) : List Char → List Char
  | [] => []
  | c :: rest =>
      let next := if c == '"' && run < form.quotesAllowed then run + 1 else 0
      form.escaped run c ++ form.body next rest

def quotes (form : StringForm) : List Char :=
  List.replicate (if form.isLong then 3 else 1) form.quote.char

end StringForm

/-- A string as a value. A long form starts a new line for a text of several lines. -/
def stringText (s : String) : String :=
  let cs := s.toList
  let form := StringForm.choose cs
  let start := if form.isLong && cs.contains '\n' then ['\n'] else []
  let inner := if form.quote == .single then cs else form.body 0 cs
  String.ofList (form.quotes ++ start ++ inner ++ form.quotes)

/-- An array of strings as a value. Several items stand on lines of their own. -/
def arrayText (items : List String) : String :=
  match items with
  | [] => "[]"
  | [item] => "[" ++ stringText item ++ "]"
  | items => "[\n" ++ String.join (items.map fun item => "    " ++ stringText item ++ ",\n") ++ "]"

end ClauseRules.Toml
