import ClauseRules.Json.Printer
import ClauseRules.Json.Reader
import ClauseRules.Rule.Set

/-! Rules as JSON. Alternatives with content are objects of one field, those without are bare
names; a rule that matches no entity has no entity type.
-/

namespace ClauseRules

open Json (Error list record readName readVariant)

/-- The name of a value in a list of named values, of several names the first. -/
def nameOf {α : Type} [BEq α] (names : List (String × α)) (a : α) : String :=
  ((names.find? (·.2 == a)).map (·.1)).getD ""

namespace Status

def names : List (String × Status) :=
  [("not_applicable", .notApplicable), ("applicable", .applicable), ("pass", .pass),
    ("fail", .fail)]

def toJson (status : Status) : Json := .string (nameOf names status)

def ofJson (v : Json) : Except Error Status := readName names v

end Status

namespace Outcome

def names : List (String × Outcome) := [("PASS", .pass), ("FAIL", .fail)]

/-- The name of an outcome, in JSON as in rules. -/
def name (outcome : Outcome) : String := nameOf names outcome

def toJson (outcome : Outcome) : Json := .string outcome.name

def ofJson (v : Json) : Except Error Outcome := readName names v

end Outcome

namespace Purpose

def names : List (String × Purpose) := [
  ("not_applicable", .notApplicable), ("applicable", .applicable), ("pass", .pass),
  ("fail", .fail), ("transfer_pass", .transferPass),
  ("transfer_pass_vacuous", .transferPassVacuous), ("transfer_fail", .transferFail),
  ("meta_pass", .metaPass), ("meta_pass_vacuous", .metaPassVacuous), ("meta_fail", .metaFail),
  ("document_final_pass", .documentFinalPass), ("document_final_fail", .documentFinalFail),
  ("step_pass", .stepPass), ("clause_pass", .clausePass), ("clause_fail", .clauseFail)]

def toJson (purpose : Purpose) : Json := .string (nameOf names purpose)

def ofJson (v : Json) : Except Error Purpose := readName names v

end Purpose

namespace Comparator

def names : List (String × Comparator) := [
  ("equal", .equal), ("less_or_equal", .lessOrEqual), ("less", .less), ("greater", .greater),
  ("greater_or_equal", .greaterOrEqual), ("includes", .includes), ("excludes", .excludes)]

def toJson : Comparator → Json
  | .unrecognised token => record [("unrecognised", .string token)]
  | comparator => .string (nameOf names comparator)

def ofJson (v : Json) : Except Error Comparator := do
  let variant ← readVariant v
  if variant.name == "unrecognised" then
    variant.payload "newtype variant" fun w _ => .unrecognised <$> Json.readText w
  else
    match names.lookup variant.name with
    | some comparator => variant.unit comparator
    | none =>
        throw (.mismatch (.unknownVariant variant.name (names.map (·.1) ++ ["unrecognised"])))

end Comparator

namespace RulePath

def toJson (path : RulePath) : Json := .string path.text

/-- A path is taken as it stands. -/
def ofJson (v : Json) : Except Error RulePath := RulePath.mk <$> Json.readText v

end RulePath

namespace PropertyTest

def toJson (test : PropertyTest) : Json :=
  record [("property", .string test.property), ("comparator", test.comparator.toJson),
    ("value", .string test.value), ("unit", .string test.unit)]

def ofJson (v : Json) : Except Error PropertyTest := do
  let r ← Source.fields "struct PropertyTest" ["property", "comparator", "value", "unit"] v
  r.finish (PropertyTest.mk <$> r.requiredText "property"
    <*> r.required "comparator" (fun w _ => Comparator.ofJson w)
    <*> r.requiredText "value" <*> r.requiredText "unit")

end PropertyTest

namespace Condition

mutual

def toJson : Condition → Json
  | .test t => record [("property", t.toJson)]
  | .status target s negated =>
      record [("status", record [("target", target.toJson), ("status", s.toJson),
        ("negated", .bool negated)])]
  | .not inner => record [("not", toJson inner)]
  | .and terms => record [("and", list (toJsonList terms))]
  | .or terms => record [("or", list (toJsonList terms))]
  | .forAll range consequence =>
      record [("for_all", record [("condition", toJson range),
        ("consequence", toJson consequence)])]
  | .forSome inner => record [("exists", toJson inner)]
  | .forNone inner => record [("not_exists", toJson inner)]
  | .result rule outcome =>
      record [("result", record [("rule", rule.toJson), ("outcome", outcome.toJson)])]

def toJsonList : List Condition → List Json
  | [] => []
  | term :: rest => toJson term :: toJsonList rest

end

/-- The names of the alternatives. -/
def names : List String :=
  ["property", "status", "not", "and", "or", "for_all", "exists", "not_exists", "result"]

def ofJson (v : Json) : Except Error Condition := do
  let variant ← readVariant v
  match variant.name with
  | "property" => variant.payload "newtype variant" fun w _ => .test <$> PropertyTest.ofJson w
  | "status" =>
      variant.payload "struct variant" fun w _ => do
        let r ← Source.fields "struct variant BooleanExpr::Status"
          ["target", "status", "negated"] w
        r.finish (Condition.status <$> r.required "target" (fun x _ => RulePath.ofJson x)
          <*> r.required "status" (fun x _ => Status.ofJson x)
          <*> r.required "negated" (fun x _ => Json.readBool x))
  | "not" => variant.payload "newtype variant" fun w _ => .not <$> ofJson w
  | "and" =>
      variant.payload "newtype variant" fun w _ =>
        .and <$> Source.list w fun x _ => ofJson x
  | "or" =>
      variant.payload "newtype variant" fun w _ =>
        .or <$> Source.list w fun x _ => ofJson x
  | "for_all" =>
      variant.payload "struct variant" fun w _ => do
        let r ← Source.fields "struct variant BooleanExpr::ForAll" ["condition", "consequence"] w
        r.finish (Condition.forAll <$> r.required "condition" (fun x _ => ofJson x)
          <*> r.required "consequence" (fun x _ => ofJson x))
  | "exists" => variant.payload "newtype variant" fun w _ => .forSome <$> ofJson w
  | "not_exists" => variant.payload "newtype variant" fun w _ => .forNone <$> ofJson w
  | "result" =>
      variant.payload "struct variant" fun w _ => do
        let r ← Source.fields "struct variant BooleanExpr::Result" ["rule", "outcome"] w
        r.finish (Condition.result <$> r.required "rule" (fun x _ => RulePath.ofJson x)
          <*> r.required "outcome" (fun x _ => Outcome.ofJson x))
  | name => throw (.mismatch (.unknownVariant name names))
termination_by sizeOf v
decreasing_by
  all_goals
    simp only [Nested.Below] at *
    omega

end Condition

namespace Effect

def toJson : Effect → Json
  | .setStatus target statuses =>
      record [("set_status", record [("target", target.toJson),
        ("statuses", list (statuses.map Status.toJson))])]
  | .insertResult rule outcome =>
      record [("insert_result", record [("rule", rule.toJson), ("outcome", outcome.toJson)])]

def ofJson (v : Json) : Except Error Effect := do
  let variant ← readVariant v
  match variant.name with
  | "set_status" =>
      variant.payload "struct variant" fun w _ => do
        let r ← Source.fields "struct variant Effect::SetStatus" ["target", "statuses"] w
        r.finish (Effect.setStatus <$> r.required "target" (fun x _ => RulePath.ofJson x)
          <*> r.required "statuses" (fun x _ => Source.list x fun y _ => Status.ofJson y))
  | "insert_result" =>
      variant.payload "struct variant" fun w _ => do
        let r ← Source.fields "struct variant Effect::InsertResult" ["rule", "outcome"] w
        r.finish (Effect.insertResult <$> r.required "rule" (fun x _ => RulePath.ofJson x)
          <*> r.required "outcome" (fun x _ => Outcome.ofJson x))
  | name => throw (.mismatch (.unknownVariant name ["set_status", "insert_result"]))

end Effect

namespace Rule

def toJson (rule : Rule) : Json :=
  record ([("id", .string rule.id), ("clause", rule.clause.toJson),
      ("purpose", rule.purpose.toJson)]
    ++ (rule.entityType.map fun s => ("entity_type", Json.string s)).toList
    ++ [("guard", rule.guard.toJson), ("effect", rule.effect.toJson)])

def ofJson (v : Json) : Except Error Rule := do
  let r ← Source.fields "struct CompiledRule"
    ["id", "clause", "purpose", "entity_type", "guard", "effect"] v
  r.finish (Rule.mk <$> r.requiredText "id" <*> r.required "clause" (fun w _ => RulePath.ofJson w)
    <*> r.required "purpose" (fun w _ => Purpose.ofJson w) <*> r.optionalText "entity_type"
    <*> r.required "guard" (fun w _ => Condition.ofJson w)
    <*> r.required "effect" (fun w _ => Effect.ofJson w))

end Rule

namespace RuleSet

def toJson (rules : RuleSet) : Json := list (rules.toList.map Rule.toJson)

def ofJson (v : Json) : Except Error RuleSet :=
  SortedSet.ofList <$> Source.list v fun w _ => Rule.ofJson w

/-- The rules as a JSON file. -/
def jsonText (rules : RuleSet) : String := rules.toJson.pretty ++ "\n"

/-- Reads a JSON file of rules. -/
def ofJsonText (text : String) : Except Error RuleSet := (Json.parse text).read ofJson

end RuleSet

end ClauseRules
