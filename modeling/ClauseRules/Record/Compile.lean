import ClauseRules.Compile
import ClauseRules.Record.Basic
import ClauseRules.Sorted.Map

/-! Compiling clause records into rules. Every step records a result of its own; a clause passes
when none of its steps failed, and the document passes when none of its clauses failed.
-/

namespace ClauseRules

/-- What a step checks. -/
inductive Command where
  /-- Some entity has the noun as a property that is true. -/
  | is
  /-- The step that the noun names passed. -/
  | to
  /-- The rule of the paragraph that the noun names passed. -/
  | run
  /-- The document that the noun names passed. -/
  | runDocument
deriving DecidableEq, Repr

namespace Command

def ofText? (text : String) : Option Command :=
  match Text.trim text with
  | "IS" => some .is
  | "TO" => some .to
  | "RUN" => some .run
  | "XRUN" => some .runDocument
  | _ => none

def guard (command : Command) (noun : String) : Condition :=
  let passed := fun text => Condition.result (RulePath.ofText text) .pass
  match command with
  | .is => .forSome (.test ⟨Name.ofProperty noun, .equal, "true", ""⟩)
  | .to => passed noun
  | .run => passed ("Rule-Para" ++ noun ++ "-1")
  | .runDocument => passed ("Document" ++ noun)

end Command

/-- How a record goes on after a step. -/
inductive Keyword where
  | next
  | goto
deriving DecidableEq, Repr

def Keyword.ofText? (text : String) : Option Keyword :=
  match Text.trim text with
  | "NEXT" => some .next
  | "GOTO" => some .goto
  | _ => none

namespace Step

def path (step : Step) : RulePath := RulePath.ofText step.clause

/-- The id of the rule for a step. -/
def ruleId (step : Step) : String := step.path.ruleId step.number

/-- Where a step records its result. -/
def resultPath (step : Step) : RulePath := RulePath.ofText step.ruleId

def next? (step : Step) : Option Keyword := step.keyword.bind Keyword.ofText?

/-- The remarks on the keyword. -/
def warnings (step : Step) : List Warning :=
  match step.keyword with
  | none => []
  | some text =>
      if (Keyword.ofText? text).isSome then []
      else [.unrecognisedKeyword step.ruleId (Text.trim text)]

/-- Whether the step after this one waits until it has passed. -/
def chains (step : Step) : Bool :=
  Command.ofText? step.command == some .is && step.next? == some .next

/-- The rule of a step whose command is known. -/
def rule (previous : Option Step) (step : Step) (command : Command) : Rule where
  id := step.ruleId
  clause := step.path
  purpose := .stepPass
  entityType := none
  guard := .and
    ((match previous with
      | some before => if before.chains then [.result before.resultPath .pass] else []
      | none => []) ++ [command.guard step.noun])
  effect := .insertResult step.resultPath .pass

end Step

/-- The rules of steps up to one whose command is unknown, and the remarks on their keywords. -/
def stepRules (previous : Option Step) : List Step → Except CompileError (List Rule) × List Warning
  | [] => (.ok [], [])
  | step :: rest =>
      match Command.ofText? step.command with
      | none => (.error (.unknownCommand step.ruleId (Text.trim step.command)), [])
      | some command =>
          let (rules, warnings) := stepRules (some step) rest
          ((step.rule previous command :: ·) <$> rules, step.warnings ++ warnings)

/-- The rules of all steps. Steps wait for each other within a group only. -/
def groupRules : List RecordGroup → Except CompileError (List Rule) × List Warning
  | [] => (.ok [], [])
  | group :: rest =>
      match stepRules none group.steps with
      | (.error e, warnings) => (.error e, warnings)
      | (.ok rules, warnings) =>
          let (others, more) := groupRules rest
          ((rules ++ ·) <$> others, warnings ++ more)

/-- The results of the steps of each clause, in order of the clauses. -/
def clauseResults (steps : List Step) : SortedMap RulePath (List RulePath) :=
  steps.foldl (fun m step => m.alter step.path fun paths => paths.getD [] ++ [step.resultPath]) ∅

/-- A rule for the case that no part failed, and one for the case that some part did. -/
def verdictRules (path : RulePath) (parts : List RulePath) (onPass onFail : Purpose) : List Rule :=
  let failed := fun part => Condition.result part .fail
  [summaryRule path onPass (.and (parts.map fun part => .not (failed part))) .pass,
    summaryRule path onFail (.or (parts.map failed)) .fail]

/-- The verdict is to pass if no part is recorded as failed, and to fail if one is. -/
theorem mem_verdictRules {path : RulePath} {parts : List RulePath} {onPass onFail : Purpose}
    {r : Rule}
    : r ∈ verdictRules path parts onPass onFail
      ↔ r = {
            id := path.ruleId onPass.suffix
            clause := path
            purpose := onPass
            entityType := none
            guard := .and [
              .and (parts.map fun part => .not (.result part .fail)),
              .not (.result path .pass)]
            effect := .insertResult path .pass }
        ∨ r = {
            id := path.ruleId onFail.suffix
            clause := path
            purpose := onFail
            entityType := none
            guard := .and [
              .or (parts.map fun part => .result part .fail),
              .not (.result path .fail)]
            effect := .insertResult path .fail } := by
  simp only [verdictRules, summaryRule, List.mem_cons, List.not_mem_nil, or_false]

/-- Compiles clause records under the name of a document. -/
def compileRecords (document : String) (groups : List RecordGroup)
    : Except CompileError RuleSet × List Warning :=
  let (rules, warnings) := groupRules groups
  let clauses := clauseResults (groups.flatMap (·.steps))
  let verdicts := clauses.toList.flatMap fun (clause, results) =>
    verdictRules clause results .clausePass .clauseFail
  let final :=
    if clauses.toList.isEmpty then []
    else
      verdictRules (RulePath.ofText document) clauses.keys .documentFinalPass .documentFinalFail
  ((fun rules => SortedSet.ofList (rules ++ verdicts ++ final)) <$> rules, warnings)

end ClauseRules
