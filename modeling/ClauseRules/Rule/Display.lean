import ClauseRules.Rule.Basic
import ClauseRules.Text.Quoted

/-! Conditions as they are shown in messages: the name of each alternative with its content. -/

namespace ClauseRules

open Text (quoted)

def Comparator.display : Comparator → String
  | .equal => "Equal"
  | .lessOrEqual => "LessOrEqual"
  | .less => "Less"
  | .greater => "Greater"
  | .greaterOrEqual => "GreaterOrEqual"
  | .includes => "Includes"
  | .excludes => "Excludes"
  | .unrecognised token => "Unrecognised(" ++ quoted token ++ ")"

def RulePath.display (path : RulePath) : String := "RulePath(" ++ quoted path.text ++ ")"

def Status.display : Status → String
  | .notApplicable => "NotApplicable"
  | .applicable => "Applicable"
  | .pass => "Pass"
  | .fail => "Fail"

def Outcome.display : Outcome → String
  | .pass => "Pass"
  | .fail => "Fail"

/-- A name with named fields. -/
def displayFields (name : String) (fields : List (String × String)) : String :=
  name ++ " \x7b " ++ ", ".intercalate (fields.map fun (key, text) => key ++ ": " ++ text)
    ++ " \x7d"

def PropertyTest.display (test : PropertyTest) : String :=
  displayFields "PropertyTest" [("property", quoted test.property),
    ("comparator", test.comparator.display), ("value", quoted test.value),
    ("unit", quoted test.unit)]

namespace Condition

mutual

def display : Condition → String
  | .test t => "Property(" ++ t.display ++ ")"
  | .status target s negated =>
      displayFields "Status" [("target", target.display), ("status", s.display),
        ("negated", if negated then "true" else "false")]
  | .not inner => "Not(" ++ display inner ++ ")"
  | .and terms => "And([" ++ ", ".intercalate (displayList terms) ++ "])"
  | .or terms => "Or([" ++ ", ".intercalate (displayList terms) ++ "])"
  | .forAll range consequence =>
      displayFields "ForAll" [("condition", display range), ("consequence", display consequence)]
  | .forSome inner => "Exists(" ++ display inner ++ ")"
  | .forNone inner => "NotExists(" ++ display inner ++ ")"
  | .result rule outcome =>
      displayFields "Result" [("rule", rule.display), ("outcome", outcome.display)]

def displayList : List Condition → List String
  | [] => []
  | term :: rest => display term :: displayList rest

end

end Condition

end ClauseRules
