import ClauseRules.Json.Value

/-! Reading JSON text. Integers keep their value as long as they fit 64 bits; any other number
becomes a double from at most twenty significant digits and one scaling by a power of ten.
Arrays and objects may nest to a depth of 127.
-/

namespace ClauseRules

namespace Json

def isSpace (c : Char) : Bool := c == ' ' || c == '\n' || c == '\t' || c == '\r'

def skipSpace (cs : List Char) : List Char := cs.dropWhile isSpace

/-! ### Strings -/

/-- A string token: its text, unless half of a surrogate pair leaves it without one, and what
follows its closing quote; or the fault that ends the text. -/
inductive StringToken where
  | closed (text : Option (List Char)) (rest : List Char)
  | broken (readable : Bool) (fault : Fault)

def hexValue? (c : Char) : Option Nat :=
  if '0' ≤ c && c ≤ '9' then some (c.toNat - 48)
  else if 'a' ≤ c && c ≤ 'f' then some (c.toNat - 87)
  else if 'A' ≤ c && c ≤ 'F' then some (c.toNat - 55)
  else none

def hexValues? (cs : List Char) : Option Nat :=
  cs.foldlM (fun n c => (hexValue? c).map (16 * n + ·)) 0

/-- The four digits of an escape. They are missing, rather than wrong, when fewer than four bytes
of the text are left. -/
def readHex (cs : List Char) : Except Fault Nat :=
  let four := cs.take 4
  if four.foldl (fun n c => n + c.utf8Size) 0 < 4 then .error .truncated
  else if four.length < 4 then .error .malformed
  else
    match hexValues? four with
    | some n => .ok n
    | none => .error .malformed

def escapedChar? : Char → Option Char
  | '"' => some '"'
  | '\\' => some '\\'
  | '/' => some '/'
  | 'b' => some '\x08'
  | 'f' => some '\x0c'
  | 'n' => some '\n'
  | 'r' => some '\r'
  | 't' => some '\t'
  | _ => none

def isHighSurrogate (n : Nat) : Bool := 0xd800 ≤ n && n ≤ 0xdbff

def isLowSurrogate (n : Nat) : Bool := 0xdc00 ≤ n && n ≤ 0xdfff

def pairChar (high low : Nat) : Char :=
  Char.ofNat (0x10000 + (high - 0xd800) * 0x400 + (low - 0xdc00))

/-- The fault met when the second half of a surrogate pair is looked for in what follows the
first. A text that merely continues without it has no fault, but the string has no text. -/
def lowHalf (cs : List Char) : Except (Option Fault) (Nat × List Char) :=
  match cs with
  | [] | ['\\'] => .error (some .truncated)
  | '\\' :: 'u' :: rest =>
      match readHex rest with
      | .error f => .error (some f)
      | .ok n => if isLowSurrogate n then .ok (n, rest.drop 4) else .error none
  | _ => .error none

/-- Reads a string from behind its opening quote. `acc` holds the characters so far, the last one
first, and is `none` once the string has lost its text; `fuel` bounds the characters left. -/
def readString (acc : Option (List Char)) : (fuel : Nat) → List Char → StringToken
  | 0, _ => .broken acc.isSome .truncated
  | _, [] => .broken acc.isSome .truncated
  | _ + 1, '"' :: rest => .closed (acc.map List.reverse) rest
  | _ + 1, ['\\'] => .broken acc.isSome .truncated
  | fuel + 1, '\\' :: 'u' :: rest =>
      match readHex rest with
      | .error f => .broken acc.isSome f
      | .ok n =>
          let rest := rest.drop 4
          if isLowSurrogate n then readString none fuel rest
          else if isHighSurrogate n then
            match lowHalf rest with
            | .ok (low, rest) => readString (acc.map (pairChar n low :: ·)) fuel rest
            | .error none => readString none fuel rest
            | .error (some f) => .broken acc.isSome f
          else readString (acc.map (Char.ofNat n :: ·)) fuel rest
  | fuel + 1, '\\' :: c :: rest =>
      match escapedChar? c with
      | some c => readString (acc.map (c :: ·)) fuel rest
      | none => .broken acc.isSome .malformed
  | fuel + 1, c :: rest =>
      if c.toNat < 0x20 then .broken acc.isSome .malformed
      else readString (acc.map (c :: ·)) fuel rest

def stringToken (cs : List Char) : StringToken := readString (some []) (cs.length + 1) cs

/-! ### Numbers -/

/-- Digits and a power of ten, before they become a double. -/
structure Mantissa where
  significand : Nat
  exponent : Int

/-- Takes over digits while the significand fits 64 bits. Digits of the fraction count down the
exponent; a digit that does not fit and all after it are left to the caller. -/
def Mantissa.extend (m : Mantissa) (inFraction : Bool) : List Char → Mantissa × List Char
  | [] => (m, [])
  | c :: rest =>
      let n := 10 * m.significand + (c.toNat - 48)
      if n < Width.unsigned64 then
        Mantissa.extend ⟨n, if inFraction then m.exponent - 1 else m.exponent⟩ inFraction rest
      else (m, c :: rest)

/-- Scales by a power of ten in steps of at most `10 ^ 308`, rounding after each; `fuel` bounds the
steps. -/
def scaleByTen (x : Binary64) (exponent : Int) : (fuel : Nat) → Option Binary64
  | 0 => some x
  | fuel + 1 =>
      let power := fun (k : Nat) => Binary64.ofDecimal ⟨false, 1, k⟩
      if x.significand == 0 then some x
      else if 308 < exponent then none
      else if 0 ≤ exponent then (power exponent.toNat).bind x.mul
      else if -308 ≤ exponent then (power (-exponent).toNat).bind x.div
      else do
        let y ← (power 308).bind x.div
        scaleByTen y (exponent + 308) fuel

/-- The double for a mantissa; `none` when it is out of range. -/
def Mantissa.toBinary64 (m : Mantissa) (negative : Bool) : Option Binary64 := do
  let x ← Binary64.ofNat m.significand
  let y ← scaleByTen x m.exponent 20
  return if negative then y.neg else y

def floatValue (m : Mantissa) (negative : Bool) : Json :=
  match m.toBinary64 negative with
  | some x => .number (.float x)
  | none => .unreadable none

/-- The largest exponent that is told apart from larger ones. -/
def maxExponent : Nat := 0x7fffffff

/-- The exponent part from behind its letter. -/
def readExponent (m : Mantissa) (negative : Bool) (cs : List Char) : Json × List Char :=
  let (downwards, cs) := Decimal.splitSign cs
  let (ds, rest) := cs.span Decimal.isDigit
  if ds.isEmpty then
    (.broken (if rest.isEmpty then .cutNumber else .malformed), rest)
  else
    let e := Decimal.natOfDigits ds
    if maxExponent < e then
      if m.significand == 0 || downwards then (.number (.float (.zero negative)), rest)
      else (.unreadable none, rest)
    else
      let e : Int := if downwards then -(e : Int) else e
      (floatValue { m with exponent := m.exponent + e } negative, rest)

/-- What follows the digits of a number that is to be a double. -/
def readScale (m : Mantissa) (negative : Bool) (cs : List Char) : Json × List Char :=
  match cs with
  | 'e' :: rest | 'E' :: rest => readExponent m negative rest
  | _ => (floatValue m negative, cs)

/-- The fraction from behind its point. -/
def readFraction (m : Mantissa) (negative : Bool) (cs : List Char) : Json × List Char :=
  let (ds, rest) := cs.span Decimal.isDigit
  if ds.isEmpty then
    (.broken (if rest.isEmpty then .cutNumber else .malformed), rest)
  else readScale (m.extend true ds).1 negative rest

def integerValue (n : Nat) (negative : Bool) : Json :=
  if !negative then .number (.natural n)
  else if n ≠ 0 && n ≤ Width.signed64 then .number (.negative n)
  else floatValue ⟨n, 0⟩ true

/-- A number from behind its sign. -/
def readUnsigned (negative : Bool) (cs : List Char) : Json × List Char :=
  let (ds, rest) := cs.span Decimal.isDigit
  match ds with
  | [] => (.broken (if rest.isEmpty then .cutNumber else .malformed), rest)
  | '0' :: _ :: _ => (.broken .malformed, rest)
  | _ =>
      let (m, more) := Mantissa.extend ⟨0, 0⟩ false ds
      let m : Mantissa := ⟨m.significand, more.length⟩
      match rest with
      | '.' :: rest => readFraction m negative rest
      | 'e' :: rest | 'E' :: rest => readExponent m negative rest
      | _ =>
          if more.isEmpty then (integerValue m.significand negative, rest)
          else (floatValue m negative, rest)

def readNumber (cs : List Char) : Json × List Char :=
  match cs with
  | '-' :: rest => readUnsigned true rest
  | _ => readUnsigned false cs

/-! ### Values -/

/-- A literal from behind its first letter. -/
def readLiteral (value : Json) : (expected cs : List Char) → Json × List Char
  | [], cs => (value, cs)
  | _ :: _, [] => (.broken .cutLiteral, [])
  | e :: expected, c :: cs =>
      if e == c then readLiteral value expected cs else (.broken .malformed, cs)

/-- The greatest nesting depth of arrays and objects. -/
def maxDepth : Nat := 127

/-- A value too deep to be read is only passed over. -/
def limited (depth : Nat) (v : Json) : Json :=
  if maxDepth ≤ depth then .unreadable v.passingFault else v

/-- What stands in the place of a field's name without being a string. -/
def unnamedStop (cs : List Char) : Stop :=
  let ofValue : Json → Stop
    | .null => .unnamed .null
    | .bool b => .unnamed (.bool b)
    | .number n => .unnamed (.number n)
    | .broken f => .atName f
    | _ => .atName .malformed
  match cs with
  | [] => .atName .truncated
  | 'n' :: rest => ofValue (readLiteral .null ['u', 'l', 'l'] rest).1
  | 't' :: rest => ofValue (readLiteral (.bool true) ['r', 'u', 'e'] rest).1
  | 'f' :: rest => ofValue (readLiteral (.bool false) ['a', 'l', 's', 'e'] rest).1
  | '[' :: _ => .unnamed .sequence
  | '{' :: _ => .unnamed .map
  | c :: _ =>
      if c == '-' || Decimal.isDigit c then ofValue (readNumber cs).1 else .atName .malformed

mutual

/-- Reads a value inside of `depth` arrays and objects. After a fault what is left of the text is
of no interest. -/
def readValue (depth : Nat) : (fuel : Nat) → List Char → Json × List Char
  | 0, _ => (.broken .truncated, [])
  | fuel + 1, cs =>
      match skipSpace cs with
      | [] => (.broken .truncated, [])
      | '"' :: rest =>
          match stringToken rest with
          | .closed (some text) rest => (.string (String.ofList text), rest)
          | .closed none rest => (.unreadable none, rest)
          | .broken true f => (.broken f, [])
          | .broken false f => (.unreadable (some f), [])
      | 'n' :: rest => readLiteral .null ['u', 'l', 'l'] rest
      | 't' :: rest => readLiteral (.bool true) ['r', 'u', 'e'] rest
      | 'f' :: rest => readLiteral (.bool false) ['a', 'l', 's', 'e'] rest
      | '[' :: rest =>
          match skipSpace rest with
          | ']' :: rest => (limited depth (.array [] none), rest)
          | [] => (limited depth (.array [] (some .truncated)), [])
          | rest =>
              let (items, stop, rest) := readItems (depth + 1) fuel rest
              (limited depth (.array items stop), rest)
      | '{' :: rest =>
          match skipSpace rest with
          | '}' :: rest => (limited depth (.object [] none), rest)
          | rest =>
              let (fields, stop, rest) := readFields (depth + 1) fuel rest
              (limited depth (.object fields stop), rest)
      | c :: rest =>
          if c == '-' || Decimal.isDigit c then readNumber (c :: rest)
          else (.broken .malformed, rest)

/-- Reads the items of an array from where one is due. -/
def readItems (depth : Nat) : (fuel : Nat) → List Char → List Json × Option Fault × List Char
  | 0, _ => ([], some .truncated, [])
  | fuel + 1, cs =>
      let (item, rest) := readValue depth fuel cs
      if item.passingFault.isSome then ([item], none, [])
      else
        match skipSpace rest with
        | ']' :: rest => ([item], none, rest)
        | ',' :: rest =>
            let (items, stop, rest) := readItems depth fuel rest
            (item :: items, stop, rest)
        | [] => ([item], some .truncated, [])
        | _ => ([item], some .malformed, [])

/-- Reads the fields of an object from where a name is due. -/
def readFields (depth : Nat) :
    (fuel : Nat) → List Char → List (String × Json) × Option Stop × List Char
  | 0, _ => ([], some (.atName .truncated), [])
  | fuel + 1, cs =>
      match skipSpace cs with
      | '"' :: rest =>
          match stringToken rest with
          | .broken true f => ([], some (.atName f), [])
          | .broken false _ | .closed none _ => ([], some (.atName .malformed), [])
          | .closed (some name) rest =>
              let name := String.ofList name
              match skipSpace rest with
              | ':' :: rest =>
                  let (value, rest) := readValue depth fuel rest
                  if value.passingFault.isSome then ([(name, value)], none, [])
                  else
                    match skipSpace rest with
                    | '}' :: rest => ([(name, value)], none, rest)
                    | ',' :: rest =>
                        let (fields, stop, rest) := readFields depth fuel rest
                        ((name, value) :: fields, stop, rest)
                    | [] => ([(name, value)], some (.atSeparator .truncated), [])
                    | _ => ([(name, value)], some (.atSeparator .malformed), [])
              | [] => ([(name, .broken .truncated)], none, [])
              | _ => ([(name, .broken .malformed)], none, [])
      | rest => ([], some (unnamedStop rest), [])

end

/-- A whole text: its value, and whether anything but space follows it. -/
structure Document where
  value : Json
  trailing : Bool

/-- Reads a whole text. -/
def parse (text : String) : Document :=
  let cs := text.toList
  let (value, rest) := readValue 0 (cs.length + 1) cs
  ⟨value, !(skipSpace rest).isEmpty⟩

end Json

end ClauseRules
