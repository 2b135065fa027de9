import ClauseRules.Rule.Display
import ClauseRules.Rule.Fingerprint
import ClauseRules.Rule.Json
import ClauseRules.Text.Lines

/-! Rules in the language of a forward-chaining rule engine. Conditions on the matched entity stand
inside of its pattern; quantified conditions and results become elements of their own.
-/

namespace ClauseRules

namespace Drl

/-- The class of the entities that rules match. -/
def entityClass : String := "RuleEngineComplianceObject"

/-- The class of recorded results. -/
def resultClass : String := "RuleEngineResult"

/-- Why a rule has no form in the rule language. -/
inductive RenderError where
  /-- The range or consequence of a quantifier is no condition on a single entity. -/
  | quantifiedCondition (condition : Condition)
  /-- A condition on the fields of one entity stands in the place of an element. -/
  | unexpectedConstraint (condition : Condition)
  /-- The rule sets statuses but matches no entity. -/
  | statusWithoutEntity (ruleId : String)
deriving Repr

def RenderError.message : RenderError → String
  | .quantifiedCondition condition =>
      "quantified condition is not an entity constraint: " ++ condition.display
  | .unexpectedConstraint condition =>
      "unexpected entity constraint " ++ condition.display
  | .statusWithoutEntity ruleId =>
      "rule '" ++ ruleId ++ "' sets a status without matching an entity"

def quoteChar (c : Char) : List Char := if c == '\\' || c == '"' then ['\\', c] else [c]

def quote (text : String) : String :=
  String.ofList ('"' :: text.toList.flatMap quoteChar ++ ['"'])

def statusField : Status → String
  | .notApplicable => "notApplicable"
  | .applicable => "applicable"
  | .pass => "pass"
  | .fail => "fail"

def statusSetter : Status → String
  | .notApplicable => "setNotApplicable"
  | .applicable => "setApplicable"
  | .pass => "setPass"
  | .fail => "setFail"

/-- The look-up of a property on behalf of a clause. -/
def testText (test : PropertyTest) (clause : String) : String :=
  "get(" ++ ",".intercalate
    ([test.property, test.comparator.symbol, test.value, test.unit, clause].map quote) ++ ")"

def statusText (target : RulePath) (status : Status) (negated : Bool) : String :=
  statusField status ++ (if negated then " not contains " else " contains ") ++ quote target.text

def resultText (rule : RulePath) (outcome : Outcome) : String :=
  resultClass ++ "(ruleId == " ++ quote rule.text ++ ", result == " ++ quote outcome.name ++ ")"

/-- A negation; a text that is not a look-up or in parentheses is put into some. -/
def negation (text : String) : String :=
  if text.startsWith "get(" || text.startsWith "(" then "!" ++ text else "!(" ++ text ++ ")"

/-- Parts joined by an operator, in parentheses if there are several. -/
def junction (opening operator closing empty : String) : List String → String
  | [] => empty
  | [part] => part
  | parts => opening ++ operator.intercalate parts ++ closing

mutual

/-- A condition on the fields of one entity; `none` if it is no such condition. -/
def constraint (clause : String) : Condition → Option String
  | .test t => some (testText t clause)
  | .status target status negated => some (statusText target status negated)
  | .not inner => (constraint clause inner).map negation
  | .and terms => (constraints clause terms).map (junction "(" " && " ")" "true")
  | .or terms => (constraints clause terms).map (junction "(" " || " ")" "false")
  | .forAll _ _ | .forSome _ | .forNone _ | .result _ _ => none

def constraints (clause : String) : List Condition → Option (List String)
  | [] => some []
  | term :: rest =>
      match constraint clause term, constraints clause rest with
      | some text, some texts => some (text :: texts)
      | _, _ => none

end

def entityPattern (text : String) : String := entityClass ++ "(" ++ text ++ ")"

def quantified (clause : String) (condition : Condition) : Except RenderError String :=
  match constraint clause condition with
  | some text => .ok text
  | none => .error (.quantifiedCondition condition)

mutual

/-- A condition that is no constraint, as an element of its own. -/
def elementText (clause : String) : Condition → Except RenderError String
  | .forAll range consequence => do
      let range ← quantified clause range
      let consequence ← quantified clause consequence
      return "forall ( $x: " ++ entityPattern range ++ " "
        ++ entityPattern ("this == $x, " ++ consequence) ++ " )"
  | .forSome inner =>
      match constraint clause inner with
      | some text => .ok ("exists " ++ entityPattern text)
      | none => do return "exists ( " ++ (← elementText clause inner) ++ " )"
  | .forNone inner =>
      match constraint clause inner with
      | some text => .ok ("not " ++ entityPattern text)
      | none => do return "not ( " ++ (← elementText clause inner) ++ " )"
  | .result rule outcome => .ok (resultText rule outcome)
  | .not (.result rule outcome) => .ok ("not " ++ resultText rule outcome)
  | .not inner => do return "not ( " ++ (← elementText clause inner) ++ " )"
  | .and terms => junction "( " " and " " )" "eval(true)" <$> patterns clause terms
  | .or terms => junction "( " " or " " )" "eval(false)" <$> patterns clause terms
  | .test t => .error (.unexpectedConstraint (.test t))
  | .status target status negated =>
      .error (.unexpectedConstraint (.status target status negated))

/-- Terms as elements; a constraint is one on some entity. -/
def patterns (clause : String) : List Condition → Except RenderError (List String)
  | [] => .ok []
  | term :: rest => do
      let text ←
        match constraint clause term with
        | some text => .ok ("exists " ++ entityPattern text)
        | none => elementText clause term
      return text :: (← patterns clause rest)

end

/-- The terms of a guard. -/
def terms : Condition → List Condition
  | .and terms => terms
  | guard => [guard]

/-- The lines of a rule's left-hand side. -/
def conditions (rule : Rule) : Except RenderError (List String) := do
  let clause := rule.clause.text
  let terms := terms rule.guard
  match rule.entityType with
  | none => patterns clause terms
  | some entityType =>
      let own := terms.filterMap (constraint clause)
      let others ← patterns clause (terms.filter fun t => (constraint clause t).isNone)
      let parts := ("type contains " ++ quote entityType) :: own
      return ("$entity: " ++ entityPattern (" && ".intercalate parts)) :: others

/-- A rule's right-hand side. -/
def action (rule : Rule) : Except RenderError String :=
  match rule.effect with
  | .setStatus target statuses =>
      if rule.entityType.isNone then .error (.statusWithoutEntity rule.id)
      else
        let setters := statuses.map fun s => statusSetter s ++ "(" ++ quote target.text ++ ")"
        .ok ("modify($entity) \x7b " ++ ", ".intercalate setters ++ " \x7d;")
  | .insertResult path outcome =>
      .ok ("insert(new " ++ resultClass ++ "(" ++ quote path.text ++ ", " ++ quote outcome.name
        ++ "));")

def Phase.group : Phase → String
  | .compute => "compute"
  | .summary => "summary"

/-- The lines of a rule. -/
def ruleLines (rule : Rule) : Except RenderError (List String) := do
  let conditions ← conditions rule
  let action ← action rule
  return ["rule " ++ quote rule.id ++ " agenda-group " ++ quote (Phase.group rule.purpose.phase),
      "when"] ++ conditions.map ("\t" ++ ·) ++ ["then", "\t" ++ action, "end"]

/-- A rule file: the fingerprint, the imports and the rules, each after an empty line. -/
def text (imports : List String) (rules : RuleSet) : Except RenderError String := do
  let blocks ← rules.toList.mapM fun rule => do return "" :: (← ruleLines rule)
  return Text.unlines (("// fingerprint: " ++ rules.fingerprint) :: imports ++ blocks.flatten)

end Drl

end ClauseRules
