import ClauseRules.Decimal.Shortest
import ClauseRules.Decimal.Width
import ClauseRules.Url.Percent

/-! What scalars without quotes stand for: nothing, a truth value, an integer, a number or text. -/

namespace ClauseRules.Yaml

def isNullText (text : String) : Bool := ["null", "Null", "NULL", "~"].contains text

def readBool? (text : String) : Option Bool :=
  if ["true", "True", "TRUE"].contains text then some true
  else if ["false", "False", "FALSE"].contains text then some false
  else none

/-- The value of digits of a base up to sixteen. -/
def natOfDigits? (base : Nat) (ds : List Char) : Option Nat :=
  if ds.isEmpty then none
  else
    let shift := fun n c => do
      let d ← Url.hexValue? c
      if d < base then some (base * n + d) else none
    ds.foldlM shift 0

/-- An integer without its sign; a base other than ten is marked. -/
def readMagnitude? (cs : List Char) : Option Nat :=
  match cs with
  | '0' :: 'x' :: ds => natOfDigits? 16 ds
  | '0' :: 'o' :: ds => natOfDigits? 8 ds
  | '0' :: 'b' :: ds => natOfDigits? 2 ds
  | ds => natOfDigits? 10 ds

/-- Whether a scalar is a run of digits that starts with a zero, which is text. -/
def isPaddedDigits (cs : List Char) : Bool :=
  let ds := if cs.head? == some '-' || cs.head? == some '+' then cs.drop 1 else cs
  1 < ds.length && ds.head? == some '0' && ds.all Decimal.isDigit

def readInteger? (text : String) : Option Int :=
  let cs := text.toList
  if isPaddedDigits cs then none
  else
    match cs with
    | '-' :: rest => (readMagnitude? rest).map fun n => -(n : Int)
    | '+' :: rest => (readMagnitude? rest).map Int.ofNat
    | cs => (readMagnitude? cs).map Int.ofNat

/-- A number that is no integer: a finite one, an infinite one or none. -/
inductive Float where
  | finite (value : Binary64)
  | infinite (negative : Bool)
  | notANumber

def Float.text : Float → String
  | .finite x => x.plain
  | .infinite false => "inf"
  | .infinite true => "-inf"
  | .notANumber => "NaN"

def readFloat? (text : String) : Option Float :=
  if [".inf", ".Inf", ".INF", "+.inf", "+.Inf", "+.INF"].contains text then some (.infinite false)
  else if ["-.inf", "-.Inf", "-.INF"].contains text then some (.infinite true)
  else if [".nan", ".NaN", ".NAN"].contains text then some .notANumber
  else ((Decimal.read? text.toList).bind Binary64.ofDecimal).map .finite

/-- The text of an integer. Those beyond the signed 64 bits pass through a double, and those beyond
64 bits have no text. -/
def integerText? (n : Int) : Option String :=
  if n < -(Width.signed64 : Int) || (Width.unsigned64 : Int) ≤ n then none
  else if n < (Width.signed64 : Int) then some (toString n)
  else (Binary64.ofNat n.toNat).map Binary64.plain

/-- Whether an integer is in the range in which integers are told from other numbers. -/
def isIntegerRange (n : Int) : Bool :=
  -(Width.signed128 : Int) ≤ n && n < (Width.unsigned128 : Int)

/-- The text of a scalar without quotes; `none` if it stands for nothing, or for an integer without
a text. -/
def plainText? (text : String) : Option String :=
  if text.isEmpty || isNullText text then none
  else
    match readBool? text, readInteger? text with
    | some b, _ => some (if b then "true" else "false")
    | none, some n =>
        if isIntegerRange n then integerText? n
        else some (((readFloat? text).map Float.text).getD text)
    | none, none =>
        if isPaddedDigits text.toList then some text
        else some (((readFloat? text).map Float.text).getD text)

/-- The lead of the tags of the basic types. -/
def typeLead : String := "tag:yaml.org,2002:"

/-- The text of a scalar. A tag says what it has to stand for; scalars with local tags have no
text. -/
def scalarText? (text : String) (plain : Bool) : Option String → Option String
  | none => if plain then plainText? text else some text
  | some tag =>
      if tag.startsWith "!" then none
      else if tag == typeLead ++ "bool" then
        (readBool? text).map fun b => if b then "true" else "false"
      else if tag == typeLead ++ "int" then (readInteger? text).bind integerText?
      else if tag == typeLead ++ "float" then (readFloat? text).map Float.text
      else if tag == typeLead ++ "null" then none
      else some text

end ClauseRules.Yaml
