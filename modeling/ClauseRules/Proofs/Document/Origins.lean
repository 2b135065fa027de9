import ClauseRules.Proofs.Document.Sequence
import ClauseRules.Proofs.Record.Origins

/-! What the rules of compiled sets are made for. Every rule is one of a section, of a document, of
a step or of a clause that steps make up, whichever input the set was compiled from.
-/

namespace ClauseRules

variable {env : CompileEnv} {r : Rule}

/-- Where a compiled rule comes from. -/
inductive Rule.Origin (r : Rule) : Prop
  | main (scope : Scope) (operands : Operands) (member : r ∈ scope.mainRules operands)
  | aggregation (path : RulePath) (member : r ∈ aggregationRules path)
  | transfer (path child : RulePath) (object id : String)
    (member : r ∈ transferRules path object id child)
  | document (path : RulePath) (sections : List RulePath)
    (member : r ∈ documentRules path sections)
  | step (previous : Option Step) (step : Step) (command : Command)
    (same : r = step.rule previous command)
  | verdict (path : RulePath) (parts : List RulePath) (onPass onFail : Purpose)
    (pass : onPass.phase = .summary) (fail : onFail.phase = .summary)
    (member : r ∈ verdictRules path parts onPass onFail)

theorem Rule.Makes.origin {paths : List RulePath} (makes : r.Makes paths) : r.Origin := by
  cases makes with
  | main scope operands listed member => exact .main scope operands member
  | summary path listed member => exact .aggregation path member
  | transfer path child object id listed below member => exact .transfer path child object id member

/-! ### Documents -/

theorem Document.compile_origin {document : Document} {rules : RuleSet}
    (succeeds : (document.compile env).1 = .ok rules)
    : ∀ r ∈ rules, r.Origin := by
  intro r member
  -- Derivations tell of every rule of a section which of the rule families it comes from.
  rcases derivation_of_compile succeeds member with ⟨c, _, y, compiles, inside⟩ | final
  · exact (compiles.makes inside).origin
  · exact .document document.path _ final

/-! ### Records -/

theorem Rule.OfRecords.origin (known : r.OfRecords) : r.Origin := by
  cases known with
  | step previous step command same => exact .step previous step command same
  | clause path parts member => exact .verdict path parts _ _ rfl rfl member
  | document path parts member => exact .verdict path parts _ _ rfl rfl member

theorem compileRecords_origin {name : String} {groups : List RecordGroup} {rules : RuleSet}
    (succeeds : (compileRecords name groups).1 = .ok rules)
    : ∀ r ∈ rules, r.Origin :=
  fun r member => (compileRecords_ofRecords succeeds r member).origin

namespace RuleSet

/-- What the compilers end with. -/
inductive Compiled : RuleSet → Prop
  | document {document : Document} {env : CompileEnv} {rules : RuleSet}
    (succeeds : (document.compile env).1 = .ok rules)
    : Compiled rules
  | records {name : String} {groups : List RecordGroup} {rules : RuleSet}
    (succeeds : (compileRecords name groups).1 = .ok rules)
    : Compiled rules

theorem Compiled.origin {rules : RuleSet} (compiled : rules.Compiled) : ∀ r ∈ rules, r.Origin := by
  cases compiled with
  | document succeeds => exact Document.compile_origin succeeds
  | records succeeds => exact compileRecords_origin succeeds

end RuleSet

end ClauseRules
