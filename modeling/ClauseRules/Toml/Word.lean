import ClauseRules.Decimal.Width
import ClauseRules.Toml.Value

/-! Values without quotes and brackets: truth values, integers, floating-point numbers, dates and
times.
-/

namespace ClauseRules.Toml

open Decimal (isDigit natOfDigits splitSign)

/-- The digits of a run in which single underscores may stand between two digits. -/
def digits? (isDigit : Char → Bool) (cs : List Char) : Option (List Char) :=
  let groups := cs.splitOn '_'
  if groups.all fun group => !group.isEmpty && group.all isDigit then some groups.flatten else none

/-- Digits that start with a zero only if there is no other. -/
def wholeDigits? (cs : List Char) : Option (List Char) :=
  match digits? isDigit cs with
  | some ('0' :: _ :: _) => none
  | ds => ds

/-- Integers have to fit 64 bits, with or without a sign. -/
def integerOfNat? (negative : Bool) (n : Nat) : Option Toml :=
  if negative then if n ≤ Width.signed64 then some (.integer (-(n : Int))) else none
  else if n < Width.unsigned64 then some (.integer n)
  else none

def digitValue (c : Char) : Nat :=
  if isDigit c then c.toNat - 48 else c.toLower.toNat - 87

def isDigitOfBase (base : Nat) (c : Char) : Bool :=
  (isDigit c || ('a' ≤ c.toLower && c.toLower ≤ 'f')) && digitValue c < base

/-- An integer in a base other than ten, from behind the letter for the base. -/
def integerInBase? (base : Nat) (cs : List Char) : Option Toml := do
  let ds ← digits? (isDigitOfBase base) cs
  integerOfNat? false (ds.foldl (fun n c => base * n + digitValue c) 0)

def integer? : List Char → Option Toml
  | '0' :: 'x' :: rest => integerInBase? 16 rest
  | '0' :: 'o' :: rest => integerInBase? 8 rest
  | '0' :: 'b' :: rest => integerInBase? 2 rest
  | cs => do
      let (negative, rest) := splitSign cs
      integerOfNat? negative (natOfDigits (← wholeDigits? rest))

/-- The exponent of a number, from behind its letter. -/
def exponent? (cs : List Char) : Option Int := do
  let (negative, rest) := splitSign cs
  let n := natOfDigits (← digits? isDigit rest)
  return if negative then -(n : Int) else n

/-- A number with a fraction, an exponent or both. -/
def float? (cs : List Char) : Option Toml := do
  let (negative, rest) := splitSign cs
  if rest == "inf".toList || rest == "nan".toList then return .float none
  let (mantissa, exponentPart) := rest.span fun c => c != 'e' && c != 'E'
  let (whole, fractionPart) := mantissa.span (· != '.')
  let whole ← wholeDigits? whole
  let fraction ← match fractionPart with
    | [] => some []
    | _ :: ds => digits? isDigit ds
  let exponent ← match exponentPart with
    | [] => some 0
    | _ :: ds => exponent? ds
  if fractionPart.isEmpty && exponentPart.isEmpty then none
  let value ← Binary64.ofDecimal
    ⟨negative, natOfDigits (whole ++ fraction), exponent - fraction.length⟩
  return .float (some value)

/-! ### Dates and times -/

/-- A number of exactly `count` digits and what follows it. -/
def fixedDigits? (count : Nat) (cs : List Char) : Option (Nat × List Char) :=
  let ds := cs.take count
  if ds.length == count && ds.all isDigit then some (natOfDigits ds, cs.drop count) else none

def afterChar? (c : Char) : List Char → Option (List Char)
  | [] => none
  | d :: rest => if c == d then some rest else none

def isLeapYear (year : Nat) : Bool := year % 4 == 0 && (year % 100 != 0 || year % 400 == 0)

def daysOfMonth (year month : Nat) : Nat :=
  if month == 2 then if isLeapYear year then 29 else 28
  else if [4, 6, 9, 11].contains month then 30
  else 31

/-- What follows a date. -/
def afterDate? (cs : List Char) : Option (List Char) := do
  let (year, rest) ← fixedDigits? 4 cs
  let (month, rest) ← fixedDigits? 2 (← afterChar? '-' rest)
  let (day, rest) ← fixedDigits? 2 (← afterChar? '-' rest)
  if 1 ≤ month && month ≤ 12 && 1 ≤ day && day ≤ daysOfMonth year month then some rest else none

/-- What follows the hours and minutes of a day. -/
def afterHoursMinutes? (cs : List Char) : Option (List Char) := do
  let (hour, rest) ← fixedDigits? 2 cs
  let (minute, rest) ← fixedDigits? 2 (← afterChar? ':' rest)
  if hour ≤ 23 && minute ≤ 59 then some rest else none

/-- What follows seconds, which may be a leap second and may have a fraction. -/
def afterSeconds? (cs : List Char) : Option (List Char) := do
  let (second, rest) ← fixedDigits? 2 cs
  if 60 < second then none
  match rest with
  | '.' :: rest =>
      let (ds, rest) := rest.span isDigit
      if ds.isEmpty then none else some rest
  | rest => some rest

/-- What follows a time of day. -/
def afterTime? (cs : List Char) : Option (List Char) := do
  match ← afterHoursMinutes? cs with
  | ':' :: rest => afterSeconds? rest
  | rest => some rest

/-- Whether the text is nothing or the distance of a local time from the universal time. -/
def isOffset : List Char → Bool
  | [] => true
  | [c] => c == 'Z' || c == 'z'
  | c :: rest => (c == '+' || c == '-') && afterHoursMinutes? rest == some []

def isMoment (cs : List Char) : Bool :=
  match afterDate? cs with
  | none => afterTime? cs == some []
  | some [] => true
  | some (c :: rest) => (c == 'T' || c == 't' || c == ' ') && (afterTime? rest).any isOffset

/-- The value that is written without quotes and brackets as `cs`. -/
def ofWord? (cs : List Char) : Option Toml :=
  if cs == "true".toList then some (.boolean true)
  else if cs == "false".toList then some (.boolean false)
  else if isMoment cs then some (.moment (String.ofList cs))
  else (integer? cs).or (float? cs)

end ClauseRules.Toml
