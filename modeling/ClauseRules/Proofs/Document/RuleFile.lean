import ClauseRules.Proofs.Document.Origins
import ClauseRules.Proofs.Document.References
import ClauseRules.Proofs.Rule.Nesting
import ClauseRules.Rule.Fingerprint

/-! Files of compiled rules are lossless. A guard may nest to any depth, but those of compiled rules
do not, however deep sections do: a section only names the ones inside of it. So all such files can
be read, and the rules stand in them in the order in which they are kept.
-/

namespace ClauseRules

open Json (Plain)

variable {env : CompileEnv} {r : Rule} {path : RulePath} {operands : Operands} {scope : Scope}

/-- The guard nests to ten levels at most, far below what can be read. -/
def Rule.Shallow (r : Rule) : Prop := Plain 10 r.guard.toJson

/-! ### Rules of sections -/

namespace Operand

theorem plain_holds (operand : Operand) : Plain 3 operand.holds.toJson := by
  cases operand with
  | test t => exact Condition.plain_test t
  | nested path => exact (Condition.plain_status path .pass false).mono (by decide)

theorem plain_fails (operand : Operand) : Plain 4 operand.fails.toJson := by
  cases operand with
  | test t => exact Condition.plain_not (Condition.plain_test t)
  | nested path => exact (Condition.plain_status path .fail false).mono (by decide)

end Operand

theorem Operands.plain_applicabilityTerms
    : ∀ c ∈ operands.applicabilityTerms, Plain 5 c.toJson := by
  simp only [applicabilityTerms, List.forall_mem_append, List.forall_mem_map]
  refine ⟨⟨fun o _ => o.plain_holds.mono (by decide), fun o _ => o.plain_fails.mono (by decide)⟩,
    ?_⟩
  split
  · exact List.forall_mem_nil _
  · refine List.forall_mem_singleton.mpr (Condition.plain_or ?_)
    exact List.forall_mem_map.mpr fun o _ => o.plain_holds

theorem Operands.plain_inapplicability {c : Condition}
    (conditional : operands.inapplicability? = some c)
    : Plain 8 c.toJson := by
  simp only [inapplicability?] at conditional
  split at conditional
  · cases conditional
  · -- The deepest part is the conjunction of violated selections, with a negated test in it.
    cases conditional
    refine Condition.plain_or ?_
    simp only [List.forall_mem_append, List.forall_mem_map]
    refine ⟨⟨?_, fun o _ => o.plain_fails.mono (by decide)⟩,
      fun o _ => o.plain_holds.mono (by decide)⟩
    split
    · exact List.forall_mem_nil _
    · refine List.forall_mem_singleton.mpr (Condition.plain_and ?_)
      exact List.forall_mem_map.mpr fun o _ => o.plain_fails

namespace Scope

theorem plain_ancestorGuard : ∀ c ∈ scope.ancestorGuard, Plain 2 c.toJson := by
  simp only [ancestorGuard]
  cases scope.ancestor with
  | none => exact List.forall_mem_nil _
  | some ancestor =>
      have status (s : Status) (negated : Bool) := Condition.plain_status ancestor s negated
      cases scope.kind == .requirement with
      | true => simpa using ⟨status .fail true, status .pass true, status .applicable false⟩
      | false => simpa using ⟨status .fail true, status .pass true⟩

theorem statusRule_shallow {purpose : Purpose} {terms : List Condition} {statuses : List Status}
    (each : ∀ c ∈ terms, Plain 8 c.toJson)
    : (scope.statusRule purpose terms statuses).Shallow := by
  refine Condition.plain_and (List.forall_mem_append.mpr ⟨fun c member => ?_, each⟩)
  exact (plain_ancestorGuard c member).mono (by decide)

theorem mainRules_shallow (member : r ∈ scope.mainRules operands) : r.Shallow := by
  have status (s : Status) (negated : Bool)
      : Plain 8 (Condition.status scope.path s negated).toJson :=
    (Condition.plain_status scope.path s negated).mono (by decide)
  have two {first second : Condition} {terms : List Condition} (a : Plain 8 first.toJson)
      (b : Plain 8 second.toJson) (rest : ∀ c ∈ terms, Plain 8 c.toJson)
      : ∀ c ∈ first :: second :: terms, Plain 8 c.toJson :=
    List.forall_mem_cons.mpr ⟨a, List.forall_mem_cons.mpr ⟨b, rest⟩⟩
  rcases mem_mainRules.mp member with ⟨c, conditional, rfl⟩ | rfl | rfl | ⟨_, rfl⟩
  · refine statusRule_shallow (two (status _ true) (status _ true) ?_)
    exact List.forall_mem_singleton.mpr (Operands.plain_inapplicability conditional)
  · refine statusRule_shallow (two (status _ true) (status _ true) fun c listed => ?_)
    exact (Operands.plain_applicabilityTerms c listed).mono (by decide)
  · refine statusRule_shallow (two (status _ true) (status _ true) ?_)
    refine List.forall_mem_cons.mpr ⟨status _ false, List.forall_mem_map.mpr fun o _ => ?_⟩
    exact o.plain_holds.mono (by decide)
  · refine statusRule_shallow (two (status _ true) (status _ true) ?_)
    refine List.forall_mem_cons.mpr ⟨status _ false, List.forall_mem_singleton.mpr ?_⟩
    have violated : ∀ c ∈ operands.requires.map Operand.fails, Plain 4 c.toJson :=
      List.forall_mem_map.mpr fun o _ => o.plain_fails
    exact (Condition.plain_or violated).mono (by decide)

end Scope

theorem plain_forAll_pass (path : RulePath)
    : Plain 4 (Condition.forAll (.has path .applicable) (.has path .pass)).toJson :=
  Condition.plain_forAll (Condition.plain_status _ _ _) (Condition.plain_status _ _ _)

theorem transferRules_shallow {child : RulePath} {object id : String}
    (member : r ∈ transferRules path object id child)
    : r.Shallow := by
  rcases mem_transferRules.mp member with rfl | rfl | rfl
  · exact (plain_forAll_pass child).mono (by decide)
  · exact (Condition.plain_forNone (Condition.plain_status _ _ _)).mono (by decide)
  · exact (Condition.plain_forSome (Condition.plain_status _ _ _)).mono (by decide)

theorem summaryRule_shallow {purpose : Purpose} {condition : Condition} {outcome : Outcome}
    (plain : Plain 8 condition.toJson)
    : (summaryRule path purpose condition outcome).Shallow := by
  refine Condition.plain_and (List.forall_mem_cons.mpr ⟨plain, List.forall_mem_singleton.mpr ?_⟩)
  exact (Condition.plain_not (Condition.plain_result path outcome)).mono (by decide)

theorem aggregationRules_shallow (member : r ∈ aggregationRules path) : r.Shallow := by
  rcases mem_aggregationRules.mp member with rfl | rfl | rfl
  · exact summaryRule_shallow ((plain_forAll_pass path).mono (by decide))
  · refine summaryRule_shallow ?_
    exact (Condition.plain_forNone (Condition.plain_status _ _ _)).mono (by decide)
  · refine summaryRule_shallow ?_
    exact (Condition.plain_forSome (Condition.plain_status _ _ _)).mono (by decide)

/-! ### Rules of documents -/

theorem documentRules_shallow {sections : List RulePath} (member : r ∈ documentRules path sections)
    : r.Shallow := by
  have some (s : Status)
      : ∀ c ∈ sections.map fun p => Condition.forSome (.has p s), Plain 3 c.toJson :=
    List.forall_mem_map.mpr fun p _ => Condition.plain_forSome (Condition.plain_status p s false)
  rcases mem_documentRules.mp member with rfl | rfl
  · exact summaryRule_shallow ((Condition.plain_and (some .pass)).mono (by decide))
  · exact summaryRule_shallow ((Condition.plain_or (some .fail)).mono (by decide))

/-- Every step of a compilation leaves the rules in their order. -/
theorem increasing_stepwise
    : Stepwise fun s t => s.rules.Increasing → t.rules.Increasing where
  refl _ increasing := increasing
  trans first second increasing := second (first increasing)
  warn _ _ increasing := increasing
  visit _ _ increasing := increasing
  addRules _ rules increasing := increasing.insertAll rules

namespace Document

variable {document : Document} {rules : RuleSet}

theorem compile_increasing (succeeds : (document.compile env).1 = .ok rules)
    : rules.Increasing := by
  obtain ⟨paths, _, rfl⟩ := compile_eq succeeds
  refine SortedSet.Increasing.insertAll ?_ _
  exact compileAll_moves increasing_stepwise document.sections SortedSet.increasing_empty

end Document

/-! ### Rules of records -/

theorem Step.rule_shallow (previous : Option Step) (step : Step) (command : Command)
    : (step.rule previous command).Shallow := by
  refine Condition.plain_and (List.forall_mem_append.mpr ⟨?_, List.forall_mem_singleton.mpr ?_⟩)
  · split
    · split
      · exact List.forall_mem_singleton.mpr ((Condition.plain_result _ _).mono (by decide))
      · exact List.forall_mem_nil _
    · exact List.forall_mem_nil _
  · cases command with
    | is => exact (Condition.plain_forSome (Condition.plain_test _)).mono (by decide)
    | _ => exact (Condition.plain_result _ _).mono (by decide)

theorem verdictRules_shallow {parts : List RulePath} {onPass onFail : Purpose}
    (member : r ∈ verdictRules path parts onPass onFail)
    : r.Shallow := by
  have failed (part : RulePath) := Condition.plain_result part .fail
  rcases mem_verdictRules.mp member with rfl | rfl
  · refine summaryRule_shallow (Condition.plain_and (List.forall_mem_map.mpr ?_))
    exact fun part _ => (Condition.plain_not (failed part)).mono (by decide)
  · refine summaryRule_shallow (Condition.plain_or (List.forall_mem_map.mpr ?_))
    exact fun part _ => (failed part).mono (by decide)

theorem Rule.Origin.shallow (origin : r.Origin) : r.Shallow := by
  cases origin with
  | main scope operands member => exact Scope.mainRules_shallow member
  | aggregation path member => exact aggregationRules_shallow member
  | transfer path child object id member => exact transferRules_shallow member
  | document path sections member => exact documentRules_shallow member
  | step previous step command same => exact same ▸ step.rule_shallow previous command
  | verdict path parts onPass onFail pass fail member => exact verdictRules_shallow member

/-! ### Files -/

namespace RuleSet

variable {rules : RuleSet}

/-- Compiled sets of rules are in order: those of records are put in order at the end. -/
theorem Compiled.increasing (compiled : rules.Compiled) : rules.Increasing := by
  cases compiled with
  | document succeeds => exact Document.compile_increasing succeeds
  | records succeeds =>
      obtain ⟨steps, _, rfl⟩ := exists_of_map succeeds
      exact SortedSet.increasing_ofList _

/-- Compiled rules are read back from the JSON file that they are written to, and so have the
fingerprint of what is read.
-/
theorem ofJsonText_jsonText (compiled : rules.Compiled)
    : ofJsonText rules.jsonText = .ok rules
      ∧ fingerprint <$> ofJsonText rules.jsonText = .ok rules.fingerprint := by
  have read : ofJsonText rules.jsonText = .ok rules :=
    ofJsonText_jsonText_of_plain compiled.increasing fun r member =>
      (compiled.origin r member).shallow.mono (by decide)
  exact ⟨read, by rw [read]; rfl⟩

/-- A section that applies to buildings with a door of a width that is told in words. -/
def roughDoors : Document where
  base := "GB/R/B/1"
  items := [
    .container { text := "k1" } "/b" .requirement [
      .container { text := "k2" } "/b" .selection [
        .tag {
          id := { text := "k3" }
          kind := .requirement
          property := "width"
          rawComparator := some "about"
          value := "0.9"
          unit := "m" }]]]
  tables := []

/-- Two steps, the second of which waits for the first and looks back at it. -/
def waitingSteps : List RecordGroup :=
  [⟨"doors", [⟨"B1", "1", "IS", "has door", some "NEXT"⟩, ⟨"B1", "2", "TO", "B1_1", none⟩]⟩]

theorem ofJsonText_jsonText_roughDoors
    : (∃ rules,
        (roughDoors.compile Document.doors).1 = .ok rules ∧ rules.size = 17
        ∧ ofJsonText rules.jsonText = .ok rules
        ∧ fingerprint <$> ofJsonText rules.jsonText = .ok rules.fingerprint)
      ∧ ∃ rules,
        (compileRecords "B" waitingSteps).1 = .ok rules ∧ rules.size = 6
        ∧ ofJsonText rules.jsonText = .ok rules
        ∧ fingerprint <$> ofJsonText rules.jsonText = .ok rules.fingerprint := by
  constructor
  · obtain ⟨rules, compiled, size⟩
        : ∃ rules, (roughDoors.compile Document.doors).1 = .ok rules ∧ rules.size = 17 := by
      refine Document.exists_of_compile (P := fun rules => rules.size = 17) ?_
      decide +kernel
    exact ⟨rules, compiled, size, ofJsonText_jsonText (.document compiled)⟩
  · have size : (compileRecords "B" waitingSteps).1.toOption.map SortedSet.size = some 6 := by
      decide +kernel
    cases compiled : (compileRecords "B" waitingSteps).1 with
    | error e =>
        rw [compiled] at size
        cases size
    | ok rules =>
        rw [compiled] at size
        exact ⟨rules, rfl, Option.some.inj size, ofJsonText_jsonText (.records compiled)⟩

end RuleSet

end ClauseRules
