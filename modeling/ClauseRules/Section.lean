import ClauseRules.Node.Basic
import ClauseRules.Rule.Basic

/-! The rules of a section. Its conditions are sorted by the part that they play; from them follow
the rules that decide for each entity whether the section applies and whether it passes. Further
rules carry results over to entities of another class and sum them up.
-/

namespace ClauseRules

/-- A condition of a section: a test of the entity, or the result of a nested section. -/
inductive Operand where
  | test (test : PropertyTest)
  | nested (path : RulePath)
deriving DecidableEq, Repr

namespace Operand

def ofTag (tag : Tag) : Operand :=
  .test ⟨Name.ofProperty tag.property, tag.comparator, tag.value, tag.unit⟩

def ofContainer (container : Container) : Operand := .nested container.path

/-- The operand is satisfied. -/
def holds : Operand → Condition
  | .test t => .test t
  | .nested path => .has path .pass

/-- The operand is violated. -/
def fails : Operand → Condition
  | .test t => .not (.test t)
  | .nested path => .has path .fail

end Operand

/-- The operands of a section by the part that they play. -/
structure Operands where
  /-- All of these have to hold for the section to apply. -/
  applies : List Operand := []
  /-- One of these has to hold for the section to apply, if there are any. -/
  selects : List Operand := []
  /-- None of these may hold for the section to apply. -/
  excepts : List Operand := []
  /-- What entities have to satisfy that the section applies to. -/
  requires : List Operand := []
deriving DecidableEq, Repr

namespace Operands

def add (operands : Operands) (kind : Kind) (operand : Operand) : Operands :=
  match kind with
  | .application => { operands with applies := operands.applies ++ [operand] }
  | .selection => { operands with selects := operands.selects ++ [operand] }
  | .exception => { operands with excepts := operands.excepts ++ [operand] }
  | .requirement => { operands with requires := operands.requires ++ [operand] }

def ofTags (tags : List Tag) : Operands :=
  tags.foldl (fun operands tag => operands.add tag.kind (Operand.ofTag tag)) {}

/-- Whether the section applies to some entities only. -/
def hasConditions (operands : Operands) : Bool :=
  !(operands.applies.isEmpty && operands.selects.isEmpty && operands.excepts.isEmpty)

/-- What has to hold for the section to apply. -/
def applicabilityTerms (operands : Operands) : List Condition :=
  operands.applies.map Operand.holds ++ operands.excepts.map Operand.fails
    ++ if operands.selects.isEmpty then [] else [.or (operands.selects.map Operand.holds)]

/-- The section applies to the entity. -/
def applicability (operands : Operands) : Condition := .and operands.applicabilityTerms

/-- The section does not apply to the entity; `none` if it applies to all. -/
def inapplicability? (operands : Operands) : Option Condition :=
  if !operands.hasConditions then none
  else
    some (.or
      ((if operands.selects.isEmpty then [] else [.and (operands.selects.map Operand.fails)])
        ++ operands.applies.map Operand.fails ++ operands.excepts.map Operand.holds))

end Operands

/-- Where a section stands. -/
structure Scope where
  path : RulePath
  kind : Kind
  /-- The path of the enclosing section, if there is one. -/
  ancestor : Option RulePath
  /-- The object class of the entities that the section's rules match. -/
  entityType : String
deriving DecidableEq, Repr

namespace Scope

/-- What every rule of the section starts with: the enclosing section has not been decided yet,
and it applies if this one is its requirement. -/
def ancestorGuard (scope : Scope) : List Condition :=
  match scope.ancestor with
  | none => []
  | some ancestor =>
      [.lacks ancestor .fail, .lacks ancestor .pass]
        ++ if scope.kind == .requirement then [.has ancestor .applicable] else []

def statusRule (scope : Scope) (purpose : Purpose) (terms : List Condition)
    (statuses : List Status) : Rule where
  id := scope.path.ruleId purpose.suffix
  clause := scope.path
  purpose := purpose
  entityType := some scope.entityType
  guard := .and (scope.ancestorGuard ++ terms)
  effect := .setStatus scope.path statuses

/-- The rules that set the section's statuses. One for entities out of scope is made only if there
are conditions, and one for failing entities only if there are requirements. -/
def mainRules (scope : Scope) (operands : Operands) : List Rule :=
  let path := scope.path
  let undecided : List Condition :=
    [.lacks path .fail, .lacks path .pass, .has path .applicable]
  let notApplicable :=
    operands.inapplicability?.map fun condition =>
      scope.statusRule .notApplicable
        [.lacks path .notApplicable, .lacks path .applicable, condition]
        [.notApplicable, .pass]
  let applicable :=
    scope.statusRule .applicable
      ([.lacks path .applicable, .lacks path .notApplicable] ++ operands.applicabilityTerms)
      [.applicable]
  let pass := scope.statusRule .pass (undecided ++ operands.requires.map Operand.holds) [.pass]
  let fail :=
    if operands.requires.isEmpty then none
    else
      some (scope.statusRule .fail (undecided ++ [.or (operands.requires.map Operand.fails)])
        [.fail])
  notApplicable.toList ++ [applicable, pass] ++ fail.toList

end Scope

/-- The rules that carry a nested section's results over to the entities of the enclosing section,
which are of another class. -/
def transferRules (parent : RulePath) (entityType : String) (childId : String) (child : RulePath)
    : List Rule :=
  let rule := fun (purpose : Purpose) (guard : Condition) (status : Status) =>
    { id := parent.ruleId ("Transfer_" ++ childId ++ "_" ++ purpose.suffix)
      clause := parent
      purpose := purpose
      entityType := some entityType
      guard := guard
      effect := .setStatus child [status] : Rule }
  let applicable := Condition.has child .applicable
  [rule .transferPass (.forAll applicable (.has child .pass)) .pass,
    rule .transferPassVacuous (.forNone applicable) .pass,
    rule .transferFail (.forSome (.has child .fail)) .fail]

/-- The nested section passes for all entities that it applies to, it applies to none, or it fails
for some. Its result becomes a status of the entities of the enclosing section.
-/
theorem mem_transferRules {parent child : RulePath} {entityType childId : String} {r : Rule}
    : r ∈ transferRules parent entityType childId child
      ↔ r = {
            id := parent.ruleId ("Transfer_" ++ childId ++ "_" ++ Purpose.transferPass.suffix)
            clause := parent
            purpose := .transferPass
            entityType := some entityType
            guard := .forAll (.has child .applicable) (.has child .pass)
            effect := .setStatus child [.pass] }
        ∨ r = {
            id := parent.ruleId
              ("Transfer_" ++ childId ++ "_" ++ Purpose.transferPassVacuous.suffix)
            clause := parent
            purpose := .transferPassVacuous
            entityType := some entityType
            guard := .forNone (.has child .applicable)
            effect := .setStatus child [.pass] }
        ∨ r = {
            id := parent.ruleId ("Transfer_" ++ childId ++ "_" ++ Purpose.transferFail.suffix)
            clause := parent
            purpose := .transferFail
            entityType := some entityType
            guard := .forSome (.has child .fail)
            effect := .setStatus child [.fail] } := by
  simp only [transferRules, List.mem_cons, List.not_mem_nil, or_false]

/-- A rule that records a result once. -/
def summaryRule (path : RulePath) (purpose : Purpose) (condition : Condition) (outcome : Outcome)
    : Rule where
  id := path.ruleId purpose.suffix
  clause := path
  purpose := purpose
  entityType := none
  guard := .and [condition, .not (.result path outcome)]
  effect := .insertResult path outcome

/-- The rules that sum up a section over all entities. -/
def aggregationRules (path : RulePath) : List Rule :=
  let applicable := Condition.has path .applicable
  [summaryRule path .metaPass (.forAll applicable (.has path .pass)) .pass,
    summaryRule path .metaPassVacuous (.forNone applicable) .pass,
    summaryRule path .metaFail (.forSome (.has path .fail)) .fail]

/-- The same three cases for the section itself, whose result is recorded once. -/
theorem mem_aggregationRules {path : RulePath} {r : Rule}
    : r ∈ aggregationRules path
      ↔ r = {
            id := path.ruleId Purpose.metaPass.suffix
            clause := path
            purpose := .metaPass
            entityType := none
            guard := .and [
              .forAll (.has path .applicable) (.has path .pass),
              .not (.result path .pass)]
            effect := .insertResult path .pass }
        ∨ r = {
            id := path.ruleId Purpose.metaPassVacuous.suffix
            clause := path
            purpose := .metaPassVacuous
            entityType := none
            guard := .and [.forNone (.has path .applicable), .not (.result path .pass)]
            effect := .insertResult path .pass }
        ∨ r = {
            id := path.ruleId Purpose.metaFail.suffix
            clause := path
            purpose := .metaFail
            entityType := none
            guard := .and [.forSome (.has path .fail), .not (.result path .fail)]
            effect := .insertResult path .fail } := by
  simp only [aggregationRules, summaryRule, List.mem_cons, List.not_mem_nil, or_false]

/-- The rules for the result of a document with the given sections at its top. -/
def documentRules (document : RulePath) (sections : List RulePath) : List Rule :=
  [summaryRule document .documentFinalPass
      (.and (sections.map fun path => .forSome (.has path .pass))) .pass,
    summaryRule document .documentFinalFail
      (.or (sections.map fun path => .forSome (.has path .fail))) .fail]

/-- A document passes if every section passes for some entity, and fails if one fails for some. -/
theorem mem_documentRules {document : RulePath} {sections : List RulePath} {r : Rule}
    : r ∈ documentRules document sections
      ↔ r = {
            id := document.ruleId Purpose.documentFinalPass.suffix
            clause := document
            purpose := .documentFinalPass
            entityType := none
            guard := .and [
              .and (sections.map fun path => .forSome (.has path .pass)),
              .not (.result document .pass)]
            effect := .insertResult document .pass }
        ∨ r = {
            id := document.ruleId Purpose.documentFinalFail.suffix
            clause := document
            purpose := .documentFinalFail
            entityType := none
            guard := .and [
              .or (sections.map fun path => .forSome (.has path .fail)),
              .not (.result document .fail)]
            effect := .insertResult document .fail } := by
  simp only [documentRules, summaryRule, List.mem_cons, List.not_mem_nil, or_false]

end ClauseRules
