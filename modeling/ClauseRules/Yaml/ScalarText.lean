import ClauseRules.Url.Percent
import ClauseRules.Yaml.Cursor

/-! The texts of scalars. Line breaks inside of plain and quoted scalars are folded: a single one
becomes a space, of several the first is dropped. Block scalars keep theirs, or fold those between
lines that start with no blank.
-/

namespace ClauseRules.Yaml

/-- What a run of line breaks inside of a scalar becomes, given the first and the others. -/
def foldBreaks (first others : List Char) : List Char :=
  if first == ['\n'] then (if others.isEmpty then [' '] else others) else first ++ others

/-- Blanks and line breaks between two parts of a scalar. -/
structure Gap where
  blanks : List Char := []
  first : List Char := []
  others : List Char := []
  /-- Whether there is a line break, or an escaped one before. -/
  broken : Bool := false

def Gap.text (gap : Gap) : List Char :=
  if gap.broken then foldBreaks gap.first gap.others else gap.blanks

/-- Passes blanks and line breaks. In a plain scalar, a tab may not stand before the column
`tabLimit` of a line. `fuel` bounds the characters left. -/
def readGap (tabLimit : Nat) (gap : Gap) (p : Cursor) : (fuel : Nat) → Option (Gap × Cursor)
  | 0 => some (gap, p)
  | fuel + 1 =>
      match p.rest with
      | [] => some (gap, p)
      | c :: _ =>
          if isBlank c then
            if !gap.broken then
              readGap tabLimit { gap with blanks := gap.blanks ++ [c] } p.skip fuel
            else if c == '\t' && p.column < tabLimit then none
            else readGap tabLimit gap p.skip fuel
          else if isBreak c then
            let (text, next) := p.readBreak
            if gap.broken then
              readGap tabLimit { gap with others := gap.others ++ text } next fuel
            else readGap tabLimit { gap with first := text, broken := true } next fuel
          else some (gap, p)

/-! ### Plain scalars -/

def isFlowIndicator (c : Char) : Bool := [',', '[', ']', '{', '}'].contains c

/-- Whether a plain scalar ends before these characters. -/
def endsPlain (inFlow : Bool) (cs : List Char) : Bool :=
  match cs with
  | [] => true
  | c :: rest =>
      isBlank c || isBreak c || (c == ':' && Cursor.atBlankOrEnd rest)
        || (inFlow && isFlowIndicator c)

/-- Reads the characters of a plain scalar up to a blank or its end. Inside of brackets a colon may
not stand before an indicator. -/
def readPlainWord (inFlow : Bool) (acc : List Char) (p : Cursor)
    : (fuel : Nat) → Option (List Char × Cursor)
  | 0 => some (acc.reverse, p)
  | fuel + 1 =>
      match p.rest with
      | ':' :: d :: _ =>
          if inFlow && (isFlowIndicator d || d == '?') then none
          else if endsPlain inFlow p.rest then some (acc.reverse, p)
          else readPlainWord inFlow (':' :: acc) p.skip fuel
      | c :: _ =>
          if endsPlain inFlow p.rest then some (acc.reverse, p)
          else readPlainWord inFlow (c :: acc) p.skip fuel
      | [] => some (acc.reverse, p)

/-- A scalar as it was read: its text, the place behind it, and whether line breaks follow it. -/
structure ScalarText where
  text : List Char
  next : Cursor
  broken : Bool := false

/-- Reads a plain scalar whose further lines have to be indented to the column `indent`. `gap` lies
between the text so far, given backwards, and the place. -/
def readPlain (inFlow : Bool) (indent : Nat) (acc : List Char) (gap : Gap) (p : Cursor)
    : (fuel : Nat) → Option ScalarText
  | 0 => some ⟨acc.reverse, p, gap.broken⟩
  | fuel + 1 =>
      if p.atDocumentMark '-' || p.atDocumentMark '.' || p.rest.head? == some '#' then
        some ⟨acc.reverse, p, gap.broken⟩
      else do
        let (word, next) ← readPlainWord inFlow [] p (p.rest.length + 1)
        let (acc, gap) :=
          if word.isEmpty then (acc, gap) else (word.reverse ++ gap.text.reverse ++ acc, {})
        if !next.rest.isEmpty && Cursor.atBlankOrEnd next.rest then
          let (gap, next) ← readGap indent gap next (next.rest.length + 1)
          if !inFlow && next.column < indent then some ⟨acc.reverse, next, gap.broken⟩
          else readPlain inFlow indent acc gap next fuel
        else some ⟨acc.reverse, next, gap.broken⟩

/-! ### Quoted scalars -/

def escapedChar? : Char → Option Char
  | '0' => some '\x00'
  | 'a' => some '\x07'
  | 'b' => some '\x08'
  | 't' | '\t' => some '\t'
  | 'n' => some '\n'
  | 'v' => some '\x0b'
  | 'f' => some '\x0c'
  | 'r' => some '\r'
  | 'e' => some '\x1b'
  | ' ' => some ' '
  | '"' => some '"'
  | '/' => some '/'
  | '\\' => some '\\'
  | 'N' => some '\u0085'
  | '_' => some '\u00a0'
  | 'L' => some '\u2028'
  | 'P' => some '\u2029'
  | _ => none

/-- How many digits an escape by code point has. -/
def escapeLength? : Char → Option Nat
  | 'x' => some 2
  | 'u' => some 4
  | 'U' => some 8
  | _ => none

/-- Reads an escape from behind its backslash. -/
def readEscape (p : Cursor) : Option (Char × Cursor) :=
  match p.rest with
  | [] => none
  | c :: rest =>
      match escapeLength? c with
      | none => (escapedChar? c).map fun c => (c, p.skip)
      | some n => do
          let digits := rest.take n
          let values ← digits.mapM Url.hexValue?
          let code := values.foldl (fun m d => 16 * m + d) 0
          if digits.length < n || 0x110000 ≤ code || (0xd800 ≤ code && code < 0xe000) then none
          else some (Char.ofNat code, p.skipMany (n + 1))

/-- Reads the characters of a quoted scalar up to a blank, a line break or its end. The flag says
that an escaped line break came last. -/
def readQuotedWord (quote : Char) (acc : List Char) (p : Cursor)
    : (fuel : Nat) → Option (List Char × Cursor × Bool)
  | 0 => some (acc, p, false)
  | fuel + 1 =>
      match p.rest with
      | [] => some (acc, p, false)
      | c :: rest =>
          if isBlank c || isBreak c then some (acc, p, false)
          else if c == quote then
            if quote == '\'' && rest.head? == some '\'' then
              readQuotedWord quote ('\'' :: acc) (p.skipMany 2) fuel
            else some (acc, p, false)
          else if quote == '"' && c == '\\' then
            if rest.head?.any isBreak then some (acc, p.skip.skipBreak, true)
            else
              match readEscape p.skip with
              | some (d, next) => readQuotedWord quote (d :: acc) next fuel
              | none => none
          else readQuotedWord quote (c :: acc) p.skip fuel

/-- Reads a quoted scalar from behind its opening quote. `acc` holds the text so far backwards. -/
def readQuoted (quote : Char) (acc : List Char) (p : Cursor) : (fuel : Nat) → Option ScalarText
  | 0 => none
  | fuel + 1 =>
      if p.atDocumentMark '-' || p.atDocumentMark '.' || p.rest.isEmpty then none
      else do
        let (acc, next, escaped) ← readQuotedWord quote acc p (p.rest.length + 1)
        if next.rest.head? == some quote then some ⟨acc.reverse, next.skip, false⟩
        else
          let (gap, next) ← readGap 0 { broken := escaped } next (next.rest.length + 1)
          readQuoted quote (gap.text.reverse ++ acc) next fuel

/-! ### Block scalars -/

/-- What happens to the line breaks at the end of a block scalar. -/
inductive Chomping where
  | strip
  | clip
  | keep
deriving DecidableEq

def chomping? : Char → Option Chomping
  | '-' => some .strip
  | '+' => some .keep
  | _ => none

/-- A digit that says how far a block scalar is indented. -/
def indentDigit? (c : Char) : Option Nat :=
  if Decimal.isDigit c && c != '0' then some (c.toNat - 48) else none

/-- Reads the marks behind the indicator of a block scalar: how it ends and how far it is indented,
in any order. -/
def readBlockHeader (p : Cursor) : Option (Chomping × Option Nat × Cursor) :=
  let isDigitNext := fun (p : Cursor) => p.rest.head?.any Decimal.isDigit
  match p.rest with
  | [] => some (.clip, none, p)
  | c :: _ =>
      match chomping? c with
      | some chomping =>
          if isDigitNext p.skip then do
            let n ← p.skip.rest.head?.bind indentDigit?
            return (chomping, some n, p.skipMany 2)
          else some (chomping, none, p.skip)
      | none =>
          if Decimal.isDigit c then do
            let n ← indentDigit? c
            match p.skip.rest.head?.bind chomping? with
            | some chomping => return (chomping, some n, p.skipMany 2)
            | none => return (.clip, some n, p.skip)
          else some (.clip, none, p)

/-- Passes indentation and empty lines, up to the column `indent` if it is known, and gives the line
breaks and the greatest column. -/
def readEmptyLines (indent : Option Nat) (breaks : List Char) (greatest : Nat) (p : Cursor)
    : (fuel : Nat) → Option (List Char × Nat × Cursor)
  | 0 => some (breaks, greatest, p)
  | fuel + 1 =>
      let spaces := (p.rest.takeWhile (· == ' ')).length
      let wanted :=
        match indent with
        | some n => min spaces (n - p.column)
        | none => spaces
      let p := p.skipMany wanted
      let greatest := max greatest p.column
      let isShort := indent.all (p.column < ·)
      if isShort && p.rest.head? == some '\t' then none
      else if p.rest.head?.any isBreak then
        let (text, next) := p.readBreak
        readEmptyLines indent (breaks ++ text) greatest next fuel
      else some (breaks, greatest, p)

/-- The parts of a block scalar read so far, the text backwards. -/
structure BlockText where
  text : List Char := []
  /-- The break that ended the last line. -/
  lastBreak : List Char := []
  /-- The breaks of empty lines after it. -/
  emptyBreaks : List Char := []
  /-- Whether the last line started with a blank. -/
  blankStart : Bool := false

/-- The line breaks before a line that starts with a blank or not. -/
def BlockText.joint (folded : Bool) (t : BlockText) (blankStart : Bool) : List Char :=
  if folded && t.lastBreak == ['\n'] && !t.blankStart && !blankStart then
    (if t.emptyBreaks.isEmpty then [' '] else []) ++ t.emptyBreaks
  else t.lastBreak ++ t.emptyBreaks

/-- Reads the lines of a block scalar that is indented to the column `indent`. -/
def readBlockLines (folded : Bool) (indent : Nat) (t : BlockText) (p : Cursor)
    : (fuel : Nat) → Option (BlockText × Cursor)
  | 0 => some (t, p)
  | fuel + 1 =>
      if p.column != indent || p.rest.isEmpty then some (t, p)
      else do
        let blankStart := p.rest.head?.any isBlank
        let line := p.rest.takeWhile (!isBreak ·)
        let (lastBreak, next) := (p.skipMany line.length).readBreak
        let (emptyBreaks, _, next) ←
          readEmptyLines (some indent) [] 0 next (next.rest.length + 1)
        let text := line.reverse ++ (t.joint folded blankStart).reverse ++ t.text
        readBlockLines folded indent ⟨text, lastBreak, emptyBreaks, blankStart⟩ next fuel

def Chomping.ending (t : BlockText) : Chomping → List Char
  | .strip => []
  | .clip => t.lastBreak
  | .keep => t.lastBreak ++ t.emptyBreaks

/-- Reads a block scalar from behind its indicator, in a block whose lines are indented to the
column `parent`, which is negative outside of any block. -/
def readBlock (folded : Bool) (parent : Int) (p : Cursor) : Option ScalarText := do
  let (chomping, increment, p) ← readBlockHeader p
  let p ← p.skipLineEnd?
  let given := increment.map fun n => if 0 ≤ parent then parent.toNat + n else n
  let (breaks, greatest, p) ← readEmptyLines given [] 0 p (p.rest.length + 1)
  let indent := given.getD (max (max greatest (parent + 1).toNat) 1)
  let (t, p) ← readBlockLines folded indent { emptyBreaks := breaks } p (p.rest.length + 1)
  return ⟨t.text.reverse ++ chomping.ending t, p, true⟩

end ClauseRules.Yaml
