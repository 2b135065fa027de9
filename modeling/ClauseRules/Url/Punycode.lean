import ClauseRules.Decimal.Basic

/-! Punycode: text beyond ASCII as ASCII. The ASCII characters come first; the others are given
by the distances between their insertions, in ascending order of code points.
-/

namespace ClauseRules.Url.Punycode

def base : Nat := 36

/-- The value of a digit; upper and lower case count the same. -/
def digit? (c : Char) : Option Nat :=
  if 'a' ≤ c && c ≤ 'z' then some (c.toNat - 97)
  else if 'A' ≤ c && c ≤ 'Z' then some (c.toNat - 65)
  else if Decimal.isDigit c then some (c.toNat - 48 + 26)
  else none

/-- Brings a distance into the range from which the next bias is taken; `fuel` bounds the
steps. -/
def shrink (delta steps : Nat) : (fuel : Nat) → Nat × Nat
  | 0 => (delta, steps)
  | fuel + 1 => if 455 < delta then shrink (delta / 35) (steps + base) fuel else (delta, steps)

/-- The bias after an insertion into a text that is `length` long with it. -/
def adapt (delta length : Nat) (isFirst : Bool) : Nat :=
  let delta := if isFirst then delta / 700 else delta / 2
  let (delta, steps) := shrink (delta + delta / length) 0 64
  steps + 36 * delta / (delta + 38)

/-- The least digit that does not end a distance at the given position. -/
def threshold (position bias : Nat) : Nat :=
  if position ≤ bias then 1 else if bias + 26 ≤ position then 26 else position - bias

/-- Reads one distance. -/
def distance? (bias : Nat) (value weight position : Nat)
    : List Char → Option (Nat × List Char)
  | [] => none
  | c :: rest => do
      let d ← digit? c
      let value := value + d * weight
      let t := threshold position bias
      if 0x100000000 ≤ value then none
      else if d < t then some (value, rest)
      else distance? bias value (weight * (base - t)) (position + base) rest

/-- Carries out the insertions into `text`, the first of them when `isFirst`; `fuel` bounds their
number. -/
def insertions? (text : List Char) (code index bias : Nat) (isFirst : Bool)
    : (fuel : Nat) → List Char → Option (List Char)
  | _, [] => some text
  | 0, _ => none
  | fuel + 1, cs => do
      let (delta, rest) ← distance? bias 0 1 base cs
      let length := text.length + 1
      let place := index + delta
      let code := code + place / length
      let slot := place % length
      if 0x110000 ≤ code || (0xd800 ≤ code && code < 0xe000) then none
      else
        insertions? (text.take slot ++ Char.ofNat code :: text.drop slot) code (slot + 1)
          (adapt delta length isFirst) false fuel rest

/-- Splits behind the last hyphen, if there is one. -/
def splitBasic (cs : List Char) : List Char × List Char :=
  let tail := (cs.reverse.takeWhile (· != '-')).reverse
  (cs.take (cs.length - tail.length - 1), tail)

def decode? (cs : List Char) : Option (List Char) :=
  let (basic, tail) := splitBasic cs
  insertions? basic 0x80 0 72 true tail.length tail

end ClauseRules.Url.Punycode
