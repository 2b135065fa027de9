import ClauseRules.Toml.Word

/-! Strings, comments and blanks of TOML text. Control characters other than the tab may stand
nowhere, and a carriage return only in front of a line feed.
-/

namespace ClauseRules.Toml

/-- Reads from the start of a text and leaves the rest. -/
abbrev Reader := StateT (List Char) Option

def isBlank (c : Char) : Bool := c == ' ' || c == '\t'

/-- Whether a character may stand in a comment or within quotes. -/
def isPrintable (c : Char) : Bool := c == '\t' || (0x20 ≤ c.toNat && c.toNat != 0x7f)

/-- What follows a line end. -/
def afterLineEnd? : List Char → Option (List Char)
  | '\n' :: rest | '\r' :: '\n' :: rest => some rest
  | _ => none

def skipBlanks (cs : List Char) : List Char := cs.dropWhile isBlank

/-- What follows a comment, if there is one. -/
def skipComment (cs : List Char) : List Char :=
  match cs with
  | '#' :: rest => rest.dropWhile isPrintable
  | cs => cs

/-- What follows any number of blanks, comments and line ends; `fuel` bounds the lines. -/
def skipGap : (fuel : Nat) → List Char → List Char
  | 0, cs => cs
  | fuel + 1, cs =>
      let rest := skipComment (skipBlanks cs)
      match afterLineEnd? rest with
      | some rest => skipGap fuel rest
      | none => rest

/-! ### Strings -/

/-- The quote around a string. Escapes are read between double quotes only. -/
inductive Quote where
  | single
  | double
deriving DecidableEq, Repr

def Quote.char : Quote → Char
  | .single => '\''
  | .double => '"'

def isHexDigit (c : Char) : Bool := isDigitOfBase 16 c

/-- The character whose code point has the given number of hexadecimal digits. -/
def codePoint? (count : Nat) (cs : List Char) : Option (Char × List Char) :=
  let ds := cs.take count
  if ds.length == count && ds.all isHexDigit then
    let n := ds.foldl (fun n c => 16 * n + digitValue c) 0
    if n.isValidChar then some (Char.ofNat n, cs.drop count) else none
  else none

/-- The character that is written behind a backslash, and what follows it. -/
def escape? : List Char → Option (Char × List Char)
  | 'b' :: rest => some ('\x08', rest)
  | 't' :: rest => some ('\t', rest)
  | 'n' :: rest => some ('\n', rest)
  | 'f' :: rest => some ('\x0c', rest)
  | 'r' :: rest => some ('\r', rest)
  | 'e' :: rest => some ('\x1b', rest)
  | '"' :: rest => some ('"', rest)
  | '\\' :: rest => some ('\\', rest)
  | 'x' :: rest => codePoint? 2 rest
  | 'u' :: rest => codePoint? 4 rest
  | 'U' :: rest => codePoint? 8 rest
  | _ => none

/-- What follows a backslash at the end of a line: blanks and line ends count for nothing. -/
def afterJoinedLines? (cs : List Char) : Option (List Char) :=
  (afterLineEnd? (skipBlanks cs)).map fun rest =>
    rest.dropWhile fun c => isBlank c || c == '\n' || c == '\r'

/-- Reads a string on one line from behind its opening quote. `acc` holds the characters so far,
the last one first, and `fuel` bounds the characters left. -/
def readLine (quote : Quote) (acc : List Char) : (fuel : Nat) → Reader String
  | 0, _ => none
  | _, [] => none
  | fuel + 1, c :: rest =>
      if c == quote.char then some (String.ofList acc.reverse, rest)
      else if c == '\\' && quote == .double then do
        let (c, rest) ← escape? rest
        readLine quote (c :: acc) fuel rest
      else if isPrintable c then readLine quote (c :: acc) fuel rest
      else none

/-- Reads a string over several lines from behind its opening quotes. Up to two quotes may stand
in front of the three that close it. -/
def readLines (quote : Quote) (acc : List Char) : (fuel : Nat) → Reader String
  | 0, _ => none
  | _, [] => none
  | fuel + 1, c :: rest =>
      if c == quote.char then
        let run := 1 + (rest.takeWhile (· == c)).length
        if run < 3 then readLines quote (c :: acc) fuel rest
        else
          let own := min (run - 3) 2
          some (String.ofList (List.replicate own c ++ acc).reverse, rest.drop (own + 2))
      else if c == '\\' && quote == .double then
        match escape? rest with
        | some (c, rest) => readLines quote (c :: acc) fuel rest
        | none => do readLines quote acc fuel (← afterJoinedLines? rest)
      else if isPrintable c || c == '\n' || (c == '\r' && rest.head? == some '\n') then
        readLines quote (c :: acc) fuel rest
      else none

def quote? : Char → Option Quote
  | '\'' => some .single
  | '"' => some .double
  | _ => none

/-- Reads a string that starts with a quote. A line end right behind three quotes does not count. -/
def readString (quote : Quote) : Reader String := fun cs =>
  let q := quote.char
  if [q, q, q].isPrefixOf cs then
    let body := cs.drop 3
    let body := (afterLineEnd? body).getD body
    readLines quote [] body.length body
  else readLine quote [] cs.length (cs.drop 1)

end ClauseRules.Toml
