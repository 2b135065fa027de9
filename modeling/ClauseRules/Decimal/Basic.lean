/-! Decimal numbers as digits and a power of ten, and the two ways they are written: in full,
and with an exponent once the full form grows long.
-/

namespace ClauseRules

/-- The number `digits * 10 ^ exponent`, negated if `negative`. -/
structure Decimal where
  negative : Bool
  digits : Nat
  exponent : Int
deriving DecidableEq, Repr, Inhabited

namespace Decimal

/-- The number `10 ^ n`. -/
def powerOfTen (n : Nat) : Nat := Nat.pow 10 n

def isDigit (c : Char) : Bool := '0' ≤ c && c ≤ '9'

/-- The number that a run of decimal digits spells. -/
def natOfDigits (ds : List Char) : Nat := ds.foldl (fun n c => 10 * n + (c.toNat - 48)) 0

def splitSign : List Char → Bool × List Char
  | '-' :: rest => (true, rest)
  | '+' :: rest => (false, rest)
  | cs => (false, cs)

/-- The exponent part of a literal, empty or `e` and a signed run of digits. -/
def readExponent? : List Char → Option Int
  | [] => some 0
  | c :: rest =>
      if c == 'e' || c == 'E' then
        let (negative, ds) := splitSign rest
        if ds.isEmpty || !ds.all isDigit then none
        else if negative then some (-(natOfDigits ds : Int))
        else some (natOfDigits ds)
      else none

/-- Reads an optional sign, digits with an optional point among or beside them, and an optional
exponent. At least one digit has to stand before the exponent. -/
def read? (cs : List Char) : Option Decimal :=
  let (negative, body) := splitSign cs
  let (whole, rest) := body.span isDigit
  let (fraction, rest) :=
    match rest with
    | '.' :: rest => rest.span isDigit
    | _ => ([], rest)
  if whole.isEmpty && fraction.isEmpty then none
  else
    (readExponent? rest).map fun e =>
      ⟨negative, natOfDigits (whole ++ fraction), e - fraction.length⟩

/-- Drops zeros at the end of the digits; `fuel` bounds their number. -/
def stripZeros (digits : Nat) (exponent : Int) : (fuel : Nat) → Nat × Int
  | 0 => (digits, exponent)
  | fuel + 1 =>
      if digits ≠ 0 && digits % 10 == 0 then stripZeros (digits / 10) (exponent + 1) fuel
      else (digits, exponent)

def signed (negative : Bool) (cs : List Char) : String :=
  String.ofList (if negative then '-' :: cs else cs)

/-- The digits with a point after the first `places` of them, zeros filling up on both sides. -/
def pointed (ds : List Char) (places : Int) : List Char :=
  if places ≤ 0 then ['0', '.'] ++ List.replicate (-places).toNat '0' ++ ds
  else if ds.length ≤ places.toNat then ds ++ List.replicate (places.toNat - ds.length) '0'
  else ds.take places.toNat ++ ['.'] ++ ds.drop places.toNat

/-- The number in full, without an exponent and without a needless point. -/
def plain (d : Decimal) : String :=
  if d.digits == 0 then signed d.negative ['0']
  else
    let ds := (toString d.digits).toList
    signed d.negative (pointed ds (ds.length + d.exponent))

/-- The number with an exponent when its point stands more than sixteen places to the right of
the first digit or five to the left, and with a point in any other case. -/
def short (d : Decimal) : String :=
  if d.digits == 0 then signed d.negative ['0', '.', '0']
  else
    let ds := (toString d.digits).toList
    let places : Int := ds.length + d.exponent
    if 0 ≤ d.exponent && places ≤ 16 then signed d.negative (pointed ds places ++ ['.', '0'])
    else if -5 < places && places ≤ 16 then signed d.negative (pointed ds places)
    else
      let mantissa :=
        match ds with
        | [c] => [c]
        | c :: rest => c :: '.' :: rest
        | [] => []
      signed d.negative (mantissa ++ ['e'] ++ (toString (places - 1)).toList)

end Decimal

end ClauseRules
