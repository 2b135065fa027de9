import ClauseRules.Decimal.Basic

/-! A place in a YAML text, and the classes of characters that its tokens are told apart by. -/

namespace ClauseRules.Yaml

/-- What is left of a text, and how much was passed. -/
structure Cursor where
  rest : List Char
  index : Nat := 0
  line : Nat := 0
  column : Nat := 0

def isBreak (c : Char) : Bool :=
  c == '\r' || c == '\n' || c == '\u0085' || c == '\u2028' || c == '\u2029'

def isBlank (c : Char) : Bool := c == ' ' || c == '\t'

def isWordChar (c : Char) : Bool := c.isAlphanum || c == '_' || c == '-'

/-- The characters that a text may hold at all. -/
def isAllowed (c : Char) : Bool :=
  let n := c.toNat
  c == '\t' || c == '\n' || c == '\r' || (0x20 ≤ n && n ≤ 0x7e) || n == 0x85
    || (0xa0 ≤ n && n != 0xfffe && n != 0xffff)

namespace Cursor

/-- Whether the text ends or a character of a class follows. -/
def endsOr (p : Char → Bool) (cs : List Char) : Bool :=
  match cs with
  | [] => true
  | c :: _ => p c

def atBreakOrEnd (cs : List Char) : Bool := endsOr isBreak cs

def atBlankOrEnd (cs : List Char) : Bool := endsOr (fun c => isBlank c || isBreak c) cs

/-- Passes one character, which ends no line. -/
def skip (p : Cursor) : Cursor :=
  match p.rest with
  | [] => p
  | _ :: rest => { p with rest, index := p.index + 1, column := p.column + 1 }

def skipMany (p : Cursor) (n : Nat) : Cursor :=
  { p with rest := p.rest.drop n, index := p.index + n, column := p.column + n }

/-- Passes the longest run of characters of a class. -/
def skipWhile (p : Cursor) (q : Char → Bool) : Cursor := p.skipMany (p.rest.takeWhile q).length

/-- Passes a line break, if one is there, and gives what it stands for in a text. -/
def readBreak (p : Cursor) : List Char × Cursor :=
  let next := fun (rest : List Char) (n : Nat) =>
    { rest, index := p.index + n, line := p.line + 1, column := 0 : Cursor }
  match p.rest with
  | '\r' :: '\n' :: rest => (['\n'], next rest 2)
  | c :: rest =>
      if c == '\u2028' || c == '\u2029' then ([c], next rest 1)
      else if isBreak c then (['\n'], next rest 1)
      else ([], p)
  | [] => ([], p)

def skipBreak (p : Cursor) : Cursor := p.readBreak.2

/-- Passes blanks and a comment; nothing else may be left of the line, which is passed too. -/
def skipLineEnd? (p : Cursor) : Option Cursor :=
  let p := p.skipWhile isBlank
  let p := if p.rest.head? == some '#' then p.skipWhile (!isBreak ·) else p
  if atBreakOrEnd p.rest then some p.skipBreak else none

/-- Whether the line starts with the mark of the start or the end of a document. -/
def atDocumentMark (p : Cursor) (c : Char) : Bool :=
  p.column == 0 && [c, c, c].isPrefixOf p.rest && atBlankOrEnd (p.rest.drop 3)

end Cursor

end ClauseRules.Yaml
