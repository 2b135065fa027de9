import ClauseRules.Decimal.Binary64

/-! The shortest decimal that reads back as a given double. All reals between the midpoints to
the two neighbours read back as the number, the midpoints themselves when its significand is
even. Of the decimals with a given count of digits only the two next to the number can be the
nearest, so the first count at which one of them falls inside decides.
-/

namespace ClauseRules

namespace Binary64

/-- Whether `10 ^ k ≤ num / den`. -/
def powTenLe (k : Int) (num den : Nat) : Bool :=
  if 0 ≤ k then Decimal.powerOfTen k.toNat * den ≤ num
  else den ≤ num * Decimal.powerOfTen (-k).toNat

/-- The largest `k` with `10 ^ k ≤ num / den`, for a quotient whose binary logarithm rounds down
to `log` or one less. -/
def floorLogTen (log : Int) (num den : Nat) : Int :=
  let guess := log * 30103 / 100000
  if powTenLe (guess + 1) num den then guess + 1
  else if powTenLe guess num den then guess
  else guess - 1

/-- The quotient `num / den` divided by `10 ^ e`, as a quotient. -/
def scaleDownTen (num den : Nat) (e : Int) : Nat × Nat :=
  if 0 ≤ e then (num, den * Decimal.powerOfTen e.toNat)
  else (num * Decimal.powerOfTen (-e).toNat, den)

/-- The integer at the exponent `e` that reads back as the number, if there is one. All bounds
are in quarters of the last binary place: the number stands at `mid`, the midpoints to its
neighbours at `low` and `mid + 2`. -/
def onGrid? (low mid : Nat) (inclusive : Bool) (unitNum unitDen : Nat) (e : Int) : Option Nat :=
  let (n, d) := scaleDownTen (mid * unitNum) unitDen e
  let (l, _) := scaleDownTen (low * unitNum) unitDen e
  let (h, _) := scaleDownTen ((mid + 2) * unitNum) unitDen e
  let inside := fun c : Nat =>
    if inclusive then l ≤ c * d && c * d ≤ h else l < c * d && c * d < h
  let below := n / d
  let near := roundQuotient n d
  let far := if near == below then below + 1 else below
  if inside near then some near
  else if inside far then some far
  else none

/-- The shortest decimal that reads back as `x`, of equally short ones the nearest. -/
def shortest (x : Binary64) : Decimal :=
  if x.significand == 0 then ⟨x.negative, 0, 0⟩
  else
    let mid := 4 * x.significand
    let low :=
      if x.significand == minSignificand && minExponent < x.exponent then mid - 1 else mid - 2
    let (unitNum, unitDen) := scaleDown 1 1 (2 - x.exponent)
    let log : Int := (Nat.log2 x.significand : Int) + x.exponent
    let k := floorLogTen log (mid * unitNum) unitDen
    let found := (List.range 17).findSome? fun (p : Nat) =>
      let e := k - p
      (onGrid? low mid (x.significand % 2 == 0) unitNum unitDen e).map fun c => (c, e)
    let (c, e) := found.getD (x.significand, 0)
    let (digits, exponent) := Decimal.stripZeros c e 20
    ⟨x.negative, digits, exponent⟩

/-- The number in full, without an exponent. -/
def plain (x : Binary64) : String := x.shortest.plain

/-- The number with a point or an exponent. -/
def short (x : Binary64) : String := x.shortest.short

end Binary64

end ClauseRules
