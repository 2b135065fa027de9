import ClauseRules.Yaml.ScalarText

/-! The tokens of a YAML text. Blocks are marked by tokens of their own, found from indentation; a
key on a single line is noticed only at the colon behind it, and its token is then put before the
tokens that it consists of.
-/

namespace ClauseRules.Yaml

inductive Token where
  | versionDirective (major minor : Nat)
  | tagDirective (handle lead : String)
  | documentStart
  | documentEnd
  | blockSequenceStart
  | blockMappingStart
  | blockEnd
  | flowSequenceStart
  | flowSequenceEnd
  | flowMappingStart
  | flowMappingEnd
  | blockEntry
  | flowEntry
  | key
  | value
  | alias (name : String)
  | anchor (name : String)
  | tag (handle suffix : String)
  | scalar (text : String) (plain : Bool)
deriving DecidableEq, Repr, Inhabited

/-- A token that may turn out to start a key: its place in the text and among the tokens. -/
structure KeyStart where
  place : Cursor
  token : Nat
  /-- Whether only a key can stand there. -/
  required : Bool

structure Lexer where
  place : Cursor
  tokens : Array Token := #[]
  /-- The column of the block, negative outside of any. -/
  indent : Int := -1
  /-- The columns of the blocks around it. -/
  indents : List Int := []
  /-- The possible key of the block, after those of the brackets inside of it, innermost first. -/
  keys : List (Option KeyStart) := [none]
  /-- Whether a key can start at the place. -/
  keyAllowed : Bool := true

namespace Lexer

def inFlow (l : Lexer) : Bool := 1 < l.keys.length

def emit (l : Lexer) (token : Token) : Lexer := { l with tokens := l.tokens.push token }

/-- Adds a token and passes the character that it stands for. -/
def emitChar (l : Lexer) (token : Token) : Lexer :=
  { l.emit token with place := l.place.skip }

/-! ### Keys -/

/-- Whether what started at a place is no key any more: keys end in their line, and within 1024
characters. -/
def isStale (l : Lexer) (key : KeyStart) : Bool :=
  key.place.line < l.place.line || key.place.index + 1024 < l.place.index

/-- Forgets a possible key, unless it had to be one. -/
def dropKey : Option KeyStart → Option (Option KeyStart)
  | some key => if key.required then none else some none
  | none => some none

def dropStaleKeys (l : Lexer) : Option Lexer := do
  let keys ← l.keys.mapM fun key =>
    if key.any l.isStale then dropKey key else some key
  return { l with keys }

/-- Forgets the possible key of the innermost brackets. -/
def removeKey (l : Lexer) : Option Lexer :=
  match l.keys with
  | [] => some l
  | key :: rest => do
      let key ← dropKey key
      return { l with keys := key :: rest }

/-- Notes that a key may start at the place. -/
def saveKey (l : Lexer) : Option Lexer :=
  if !l.keyAllowed then some l
  else do
    let l ← l.removeKey
    let required := !l.inFlow && l.indent == l.place.column
    return { l with keys := some ⟨l.place, l.tokens.size, required⟩ :: l.keys.drop 1 }

/-! ### Blocks -/

/-- Opens a block at a column further to the right; `token` goes to the given place among the
tokens. -/
def rollIndent (l : Lexer) (column : Nat) (at? : Option Nat) (token : Token) : Lexer :=
  if l.inFlow || (column : Int) ≤ l.indent then l
  else
    let tokens :=
      match at? with
      | none => l.tokens.push token
      | some i => l.tokens.insertIdxIfInBounds i token
    { l with tokens, indents := l.indent :: l.indents, indent := column }

/-- Closes blocks down to a column. -/
def closeBlocks (column : Int) (indent : Int) (tokens : Array Token)
    : List Int → Int × List Int × Array Token
  | [] => (indent, [], tokens)
  | outer :: rest =>
      if column < indent then closeBlocks column outer (tokens.push .blockEnd) rest
      else (indent, outer :: rest, tokens)

def unrollIndent (l : Lexer) (column : Int) : Lexer :=
  if l.inFlow then l
  else
    let (indent, indents, tokens) := closeBlocks column l.indent l.tokens l.indents
    { l with indent, indents, tokens }

/-- Ends all blocks, before a directive, a document mark or the end of the text. -/
def endBlocks (l : Lexer) : Option Lexer := do
  let l ← (l.unrollIndent (-1)).removeKey
  return { l with keyAllowed := false }

/-! ### Spaces and comments -/

/-- Passes spaces, comments and line breaks before the next token. Tabs count as spaces where no
key can start. `fuel` bounds the lines left. -/
def skipSpace (l : Lexer) : (fuel : Nat) → Lexer
  | 0 => l
  | fuel + 1 =>
      let place := l.place.skipWhile fun c => c == ' ' || (c == '\t' && (l.inFlow || !l.keyAllowed))
      let place := if place.rest.head? == some '#' then place.skipWhile (!isBreak ·) else place
      if place.rest.head?.any isBreak then
        skipSpace { l with place := place.skipBreak, keyAllowed := l.keyAllowed || !l.inFlow } fuel
      else { l with place }

/-! ### Directives -/

/-- A number of at most nine digits. -/
def readNumber? (p : Cursor) : Option (Nat × Cursor) :=
  let digits := p.rest.takeWhile Decimal.isDigit
  if digits.isEmpty || 9 < digits.length then none
  else some (Decimal.natOfDigits digits, p.skipMany digits.length)

def readVersion? (p : Cursor) : Option (Token × Cursor) := do
  let (major, p) ← readNumber? (p.skipWhile isBlank)
  if p.rest.head? != some '.' then none
  else
    let (minor, p) ← readNumber? p.skip
    return (.versionDirective major minor, p)

/-- A handle of tags: an exclamation mark, or word characters between two of them. The second one
may be missing where what was read may be something else. -/
def readHandle? (needed : Bool) (p : Cursor) : Option (List Char × Cursor) :=
  if p.rest.head? != some '!' then none
  else
    let word := p.skip.rest.takeWhile isWordChar
    let next := p.skip.skipMany word.length
    if next.rest.head? == some '!' then some ('!' :: word ++ ['!'], next.skip)
    else if needed && !word.isEmpty then none
    else some ('!' :: word, next)

def isUriChar (verbatim : Bool) (c : Char) : Bool :=
  isWordChar c
    || [';', '/', '?', ':', '@', '&', '=', '+', '$', '.', '%', '!', '~', '*', '\'', '(',
      ')'].contains c
    || (verbatim && [',', '[', ']'].contains c)

/-- Whether every percent sign is followed by two digits. -/
def hasValidEscapes : List Char → Bool
  | [] => true
  | '%' :: a :: b :: rest =>
      (Url.hexValue? a).isSome && (Url.hexValue? b).isSome && hasValidEscapes rest
  | c :: rest => c != '%' && hasValidEscapes rest

/-- The text of a tag with its escapes undone. -/
def readUri? (verbatim : Bool) (p : Cursor) : Option (List Char × Cursor) := do
  let raw := p.rest.takeWhile (isUriChar verbatim)
  if !hasValidEscapes raw then none
  else
    let text ← Url.ofUtf8? (Url.decodeBytes raw)
    return (text, p.skipMany raw.length)

def readTagDirective? (p : Cursor) : Option (Token × Cursor) := do
  let (handle, p) ← readHandle? true (p.skipWhile isBlank)
  if !p.rest.head?.any isBlank then none
  else
    let (lead, p) ← readUri? true (p.skipWhile isBlank)
    if lead.isEmpty || !Cursor.atBlankOrEnd p.rest then none
    else return (.tagDirective (String.ofList handle) (String.ofList lead), p)

/-- Reads a directive from behind its percent sign. -/
def readDirective? (p : Cursor) : Option (Token × Cursor) := do
  let name := p.rest.takeWhile isWordChar
  let next := p.skipMany name.length
  if !Cursor.atBlankOrEnd next.rest then none
  else
    let (token, next) ←
      match String.ofList name with
      | "YAML" => readVersion? next
      | "TAG" => readTagDirective? next
      | _ => none
    let next ← next.skipLineEnd?
    return (token, next)

/-! ### Anchors, aliases and tags -/

def readAnchorName? (p : Cursor) : Option (String × Cursor) :=
  let name := p.rest.takeWhile isWordChar
  let next := p.skipMany name.length
  let ends := Cursor.endsOr (fun c => isBlank c || isBreak c
    || ['?', ':', ',', ']', '}', '%', '@', '\x60'].contains c) next.rest
  if name.isEmpty || !ends then none else some (String.ofList name, next)

/-- Reads a tag. One without a handle of its own has the handle of local tags, and a lone
exclamation mark is a tag without a handle. -/
def readTag? (inFlow : Bool) (p : Cursor) : Option (Token × Cursor) := do
  let (handle, suffix, next) ←
    if p.skip.rest.head? == some '<' then do
      let (uri, next) ← readUri? true (p.skipMany 2)
      if uri.isEmpty || next.rest.head? != some '>' then none else some ([], uri, next.skip)
    else do
      let (handle, next) ← readHandle? false p
      let (uri, next) ← readUri? false next
      if 2 ≤ handle.length && handle.getLast? == some '!' then
        if uri.isEmpty then none else some (handle, uri, next)
      else
        let suffix := handle.drop 1 ++ uri
        if suffix.isEmpty then some ([], ['!'], next) else some (['!'], suffix, next)
  if Cursor.atBlankOrEnd next.rest || (inFlow && next.rest.head? == some ',') then
    return (.tag (String.ofList handle) (String.ofList suffix), next)
  else none

/-! ### Tokens -/

/-- Opens brackets. -/
def openFlow (l : Lexer) (token : Token) : Option Lexer := do
  let l ← l.saveKey
  return { l.emitChar token with keys := none :: l.keys, keyAllowed := true }

/-- Closes brackets; a closing bracket too many is left to the reader of the tokens. -/
def closeFlow (l : Lexer) (token : Token) : Option Lexer := do
  let l ← l.removeKey
  return { l.emitChar token with
    keys := if l.inFlow then l.keys.drop 1 else l.keys
    keyAllowed := false }

/-- A mark that opens a block where a key could start. -/
def blockMark (l : Lexer) (opening token : Token) (keyAllowed : Bool) : Option Lexer :=
  if !l.inFlow && !l.keyAllowed then none
  else do
    let l ← (l.rollIndent l.place.column none opening).removeKey
    return { l.emitChar token with keyAllowed }

/-- A colon behind a key, which was noticed before or has a mark of its own. -/
def valueMark (l : Lexer) : Option Lexer :=
  match l.keys with
  | some key :: rest =>
      let l := { l with
        tokens := l.tokens.insertIdxIfInBounds key.token .key
        keys := none :: rest
        keyAllowed := false }
      let l := l.rollIndent key.place.column (some key.token) .blockMappingStart
      some (l.emitChar .value)
  | _ =>
      if !l.inFlow && !l.keyAllowed then none
      else
        let l := l.rollIndent l.place.column none .blockMappingStart
        some { l.emitChar .value with keyAllowed := !l.inFlow }

/-- A token that may start a key, and the place behind it. -/
def keyToken (l : Lexer) (read : Option (Token × Cursor)) : Option Lexer := do
  let l ← l.saveKey
  let (token, place) ← read
  return { l.emit token with place, keyAllowed := false }

def quotedToken (l : Lexer) (quote : Char) : Option Lexer :=
  l.keyToken do
    let s ← readQuoted quote [] l.place.skip (l.place.rest.length + 1)
    return (.scalar (String.ofList s.text) false, s.next)

def plainToken (l : Lexer) : Option Lexer := do
  let l ← l.saveKey
  let s ← readPlain l.inFlow (l.indent + 1).toNat [] {} l.place (l.place.rest.length + 1)
  let l := l.emit (.scalar (String.ofList s.text) true)
  return { l with place := s.next, keyAllowed := s.broken }

def blockToken (l : Lexer) (folded : Bool) : Option Lexer := do
  let l ← l.removeKey
  let s ← readBlock folded l.indent l.place.skip
  let l := l.emit (.scalar (String.ofList s.text) false)
  return { l with place := s.next, keyAllowed := true }

/-- Whether a plain scalar can start with the first of these characters. -/
def startsPlain (inFlow : Bool) (c : Char) (rest : List Char) : Bool :=
  let isIndicator := ['-', '?', ':', ',', '[', ']', '{', '}', '#', '&', '*', '!', '|', '>', '\'',
    '"', '%', '@', '\x60'].contains c
  !(isBlank c || isBreak c || isIndicator)
    || (c == '-' && !rest.head?.any isBlank)
    || (!inFlow && (c == '?' || c == ':') && !Cursor.atBlankOrEnd rest)

/-- Reads a token that starts with `c`. -/
def readToken (l : Lexer) (c : Char) (rest : List Char) : Option Lexer :=
  let p := l.place
  let ends := Cursor.atBlankOrEnd rest
  if p.column == 0 && c == '%' then do
    let l ← l.endBlocks
    let (token, place) ← readDirective? p.skip
    return { l.emit token with place }
  else if p.atDocumentMark '-' then do
    return { (← l.endBlocks).emit .documentStart with place := p.skipMany 3 }
  else if p.atDocumentMark '.' then do
    return { (← l.endBlocks).emit .documentEnd with place := p.skipMany 3 }
  else if c == '[' then l.openFlow .flowSequenceStart
  else if c == '{' then l.openFlow .flowMappingStart
  else if c == ']' then l.closeFlow .flowSequenceEnd
  else if c == '}' then l.closeFlow .flowMappingEnd
  else if c == ',' then do
    return { (← l.removeKey).emitChar .flowEntry with keyAllowed := true }
  else if c == '-' && ends then l.blockMark .blockSequenceStart .blockEntry true
  else if c == '?' && (l.inFlow || ends) then l.blockMark .blockMappingStart .key (!l.inFlow)
  else if c == ':' && (l.inFlow || ends) then l.valueMark
  else if c == '*' then
    l.keyToken ((readAnchorName? p.skip).map fun (name, next) => (.alias name, next))
  else if c == '&' then
    l.keyToken ((readAnchorName? p.skip).map fun (name, next) => (.anchor name, next))
  else if c == '!' then l.keyToken (readTag? l.inFlow p)
  else if c == '|' && !l.inFlow then l.blockToken false
  else if c == '>' && !l.inFlow then l.blockToken true
  else if c == '\'' || c == '"' then l.quotedToken c
  else if startsPlain l.inFlow c rest then l.plainToken
  else none

/-- Reads all tokens; `fuel` bounds their number. -/
def readTokens (l : Lexer) : (fuel : Nat) → Option Lexer
  | 0 => none
  | fuel + 1 => do
      let l := l.skipSpace (l.place.rest.length + 1)
      let l ← l.dropStaleKeys
      let l := l.unrollIndent l.place.column
      match l.place.rest with
      | [] =>
          let place := l.place
          let column := if place.column == 0 then place.line else place.line + 1
          ({ l with place := { place with line := column, column := 0 } }).endBlocks
      | c :: rest =>
          let l ← l.readToken c rest
          readTokens l fuel

end Lexer

/-- The tokens of a text, if it has any form at all. A byte order mark may stand at its start. -/
def tokens? (text : String) : Option (List Token) :=
  let cs := text.toList
  let cs := if cs.head? == some '\ufeff' then cs.drop 1 else cs
  if !cs.all isAllowed then none
  else
    let start : Cursor := ⟨cs, 0, 0, 0⟩
    let start := if cs.head? == some '\ufeff' then start.skip else start
    (Lexer.readTokens { place := start } (cs.length + 2)).map (·.tokens.toList)

end ClauseRules.Yaml
