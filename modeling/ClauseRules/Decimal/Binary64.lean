import ClauseRules.Decimal.Basic

/-! Double-precision numbers in exact arithmetic. A number is an integer times a power of two;
every operation forms the exact quotient first and rounds it once, ties going to the even
neighbour. Results too large for the format are `none`.
-/

namespace ClauseRules

/-- The finite number `significand * 2 ^ exponent`, negated if `negative`. -/
structure Binary64 where
  negative : Bool
  significand : Nat
  exponent : Int
deriving DecidableEq, Repr, Inhabited

namespace Binary64

def zero (negative : Bool) : Binary64 := ⟨negative, 0, 0⟩

/-- The least exponent of the format. -/
def minExponent : Int := -1074

/-- The least significand of a number whose exponent is not the least. -/
def minSignificand : Nat := 0x10000000000000

/-- The greatest exponent of the format. -/
def maxExponent : Int := 971

/-- The integer nearest to a quotient, the even one if two are equally near. -/
def roundQuotient (num den : Nat) : Nat :=
  let q := num / den
  let r := num % den
  if 2 * r < den then q
  else if den < 2 * r then q + 1
  else q + q % 2

/-- The quotient `num / den` divided by `2 ^ e`, as a quotient. -/
def scaleDown (num den : Nat) (e : Int) : Nat × Nat :=
  if 0 ≤ e then (num, den <<< e.toNat) else (num <<< (-e).toNat, den)

/-- The number of the format nearest to `num / den`. -/
def ofRatio (negative : Bool) (num den : Nat) : Option Binary64 :=
  if num == 0 then some (zero negative)
  else
    let guess : Int := (Nat.log2 num : Int) - (Nat.log2 den : Int) - 52
    let (n, d) := scaleDown num den guess
    let e := max minExponent (if n < d * minSignificand then guess - 1 else guess)
    let (n, d) := scaleDown num den e
    let m := roundQuotient n d
    let (m, e) := if m == 2 * minSignificand then (minSignificand, e + 1) else (m, e)
    if m == 0 then some (zero negative)
    else if maxExponent < e then none
    else some ⟨negative, m, e⟩

/-- The absolute value as a quotient. -/
def ratio (x : Binary64) : Nat × Nat := scaleDown x.significand 1 (-x.exponent)

def mul (x y : Binary64) : Option Binary64 :=
  ofRatio (x.negative != y.negative) (x.ratio.1 * y.ratio.1) (x.ratio.2 * y.ratio.2)

/-- The quotient by a divisor other than zero. -/
def div (x y : Binary64) : Option Binary64 :=
  ofRatio (x.negative != y.negative) (x.ratio.1 * y.ratio.2) (x.ratio.2 * y.ratio.1)

def ofNat (n : Nat) : Option Binary64 := ofRatio false n 1

def neg (x : Binary64) : Binary64 := { x with negative := !x.negative }

/-- The number of the format nearest to a decimal. Decimals far outside of the format's range are
decided by their size alone. -/
def ofDecimal (d : Decimal) : Option Binary64 :=
  let places : Int := (toString d.digits).length + d.exponent
  if d.digits == 0 || places < -330 then some (zero d.negative)
  else if 310 < places then none
  else if 0 ≤ d.exponent then ofRatio d.negative (d.digits * Decimal.powerOfTen d.exponent.toNat) 1
  else ofRatio d.negative d.digits (Decimal.powerOfTen (-d.exponent).toNat)

end Binary64

end ClauseRules
