import ClauseRules.Rule.Set

/-! The binary form of rules, which their fingerprint is taken from. Texts and lists come with
their length in four bytes, the lowest first; alternatives with their number in one byte.
-/

namespace ClauseRules

namespace Bytes

def ofLength (n : Nat) : List UInt8 :=
  [n.toUInt8, (n / 256).toUInt8, (n / 65536).toUInt8, (n / 16777216).toUInt8]

def ofText (s : String) : List UInt8 :=
  let bytes := s.toUTF8.toList
  ofLength bytes.length ++ bytes

def ofBool (b : Bool) : List UInt8 := [if b then 1 else 0]

def ofOptionalText : Option String → List UInt8
  | none => [0]
  | some s => 1 :: ofText s

end Bytes

namespace Comparator

def bytes (comparator : Comparator) : List UInt8 :=
  comparator.rank.toUInt8 ::
    match comparator with
    | .unrecognised token => Bytes.ofText token
    | _ => []

end Comparator

def RulePath.bytes (path : RulePath) : List UInt8 := Bytes.ofText path.text

def Status.bytes (status : Status) : List UInt8 := [status.rank.toUInt8]

def Outcome.bytes (outcome : Outcome) : List UInt8 := [outcome.rank.toUInt8]

def PropertyTest.bytes (test : PropertyTest) : List UInt8 :=
  Bytes.ofText test.property ++ test.comparator.bytes ++ Bytes.ofText test.value
    ++ Bytes.ofText test.unit

namespace Condition

mutual

def bytes : Condition → List UInt8
  | .test t => 0 :: t.bytes
  | .status target s negated => 1 :: (target.bytes ++ s.bytes ++ Bytes.ofBool negated)
  | .not inner => 2 :: bytes inner
  | .and terms => 3 :: (Bytes.ofLength terms.length ++ bytesOfTerms terms)
  | .or terms => 4 :: (Bytes.ofLength terms.length ++ bytesOfTerms terms)
  | .forAll range consequence => 5 :: (bytes range ++ bytes consequence)
  | .forSome inner => 6 :: bytes inner
  | .forNone inner => 7 :: bytes inner
  | .result rule outcome => 8 :: (rule.bytes ++ outcome.bytes)

def bytesOfTerms : List Condition → List UInt8
  | [] => []
  | term :: rest => bytes term ++ bytesOfTerms rest

end

end Condition

def Effect.bytes : Effect → List UInt8
  | .setStatus target statuses =>
      0 :: (target.bytes ++ Bytes.ofLength statuses.length ++ statuses.flatMap Status.bytes)
  | .insertResult rule outcome => 1 :: (rule.bytes ++ outcome.bytes)

def Rule.bytes (rule : Rule) : List UInt8 :=
  Bytes.ofText rule.id ++ rule.clause.bytes ++ [rule.purpose.rank.toUInt8]
    ++ Bytes.ofOptionalText rule.entityType ++ rule.guard.bytes ++ rule.effect.bytes

/-- The binary form of a set, its rules in order. -/
def RuleSet.bytes (rules : RuleSet) : List UInt8 :=
  Bytes.ofLength rules.size ++ rules.toList.flatMap Rule.bytes

end ClauseRules
