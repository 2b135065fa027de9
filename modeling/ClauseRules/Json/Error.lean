import ClauseRules.Decimal.Shortest
import ClauseRules.Json.Value
import ClauseRules.Text.Quoted

/-! What can be wrong with a JSON text that is read as a value of a file format: it is no JSON,
or it is, but not of the expected shape.
-/

namespace ClauseRules

namespace Json

/-- How a value differs from the expected shape. -/
inductive Mismatch where
  | invalidType (found : Found) (expected : String)
  | invalidLength (length : Nat) (expected : String)
  | missingField (name : String)
  | duplicateField (name : String)
  | unknownVariant (name : String) (expected : List String)
  /-- No alternative of the named type takes the value. -/
  | noAlternative (typeName : String)
deriving DecidableEq, Repr

inductive Error where
  | fault (fault : Fault)
  | mismatch (mismatch : Mismatch)
deriving DecidableEq, Repr

/-- The three kinds of problems of a text: it is no JSON, it ends early, or it has another shape. -/
inductive Category where
  | malformed
  | truncated
  | shape
deriving DecidableEq, Repr

def Error.category : Error → Category
  | .fault .malformed => .malformed
  | .fault _ => .truncated
  | .mismatch _ => .shape

def backquoted (s : String) : String := "`" ++ s ++ "`"

def Found.text : Found → String
  | .null => "null"
  | .bool b => "boolean " ++ backquoted (if b then "true" else "false")
  | .number (.natural n) => "integer " ++ backquoted (toString n)
  | .number (.negative n) => "integer " ++ backquoted ("-" ++ toString n)
  | .number (.float x) => "floating point " ++ backquoted x.short
  | .string s => "string " ++ Text.quoted s
  | .sequence => "sequence"
  | .map => "map"
  | .unitVariant => "unit variant"

/-- The names of the variants that would have been accepted. -/
def alternatives : List String → String
  | [] => "there are no variants"
  | [a] => "expected " ++ backquoted a
  | [a, b] => "expected " ++ backquoted a ++ " or " ++ backquoted b
  | names => "expected one of " ++ ", ".intercalate (names.map backquoted)

def Mismatch.message : Mismatch → String
  | .invalidType found expected => "invalid type: " ++ found.text ++ ", expected " ++ expected
  | .invalidLength n expected => "invalid length " ++ toString n ++ ", expected " ++ expected
  | .missingField name => "missing field " ++ backquoted name
  | .duplicateField name => "duplicate field " ++ backquoted name
  | .unknownVariant name expected =>
      "unknown variant " ++ backquoted name ++ ", " ++ alternatives expected
  | .noAlternative typeName => "data did not match any variant of untagged enum " ++ typeName

end Json

end ClauseRules
