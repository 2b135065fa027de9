import ClauseRules.Comparator
import ClauseRules.Rule.Path

/-! Rules as compilation produces them. A rule is guarded by a condition over one entity, over all
entities or over results, and its effect is to record statuses or a result. Nothing here knows
the syntax of a rule language.
-/

namespace ClauseRules

/-- What a clause can mean for an entity. -/
inductive Status where
  | notApplicable
  | applicable
  | pass
  | fail
deriving DecidableEq, Repr, Inhabited

/-- The result of a clause, or of a whole document. -/
inductive Outcome where
  | pass
  | fail
deriving DecidableEq, Repr, Inhabited

/-- A test of one property of an entity. -/
structure PropertyTest where
  property : String
  comparator : Comparator
  value : String
  /-- The unit of the value, which may be empty. -/
  unit : String
deriving DecidableEq, Repr, Inhabited

/-- The guard of a rule. Tests and statuses speak of the entity that the rule matches, quantified
conditions of all entities, and results of the document. -/
inductive Condition where
  | test (test : PropertyTest)
  /-- The entity has the status for the clause, or lacks it when `negated`. -/
  | status (target : RulePath) (status : Status) (negated : Bool)
  | not (inner : Condition)
  | and (terms : List Condition)
  | or (terms : List Condition)
  /-- Every entity in the range satisfies the consequence. -/
  | forAll (range consequence : Condition)
  | forSome (inner : Condition)
  | forNone (inner : Condition)
  /-- A result with this outcome was recorded for the clause. -/
  | result (rule : RulePath) (outcome : Outcome)
deriving Repr, Inhabited

namespace Condition

def has (target : RulePath) (s : Status) : Condition := .status target s false

def lacks (target : RulePath) (s : Status) : Condition := .status target s true

mutual

/-- The truth of a condition under an interpretation of its atoms: tests, statuses that are not
negated, quantified conditions and results. -/
def evaluate (atom : Condition → Bool) : Condition → Bool
  | .not inner => !evaluate atom inner
  | .and terms => evaluateAll atom terms
  | .or terms => evaluateAny atom terms
  | .status target s true => !atom (has target s)
  | expr => atom expr

def evaluateAll (atom : Condition → Bool) : List Condition → Bool
  | [] => true
  | term :: rest => evaluate atom term && evaluateAll atom rest

def evaluateAny (atom : Condition → Bool) : List Condition → Bool
  | [] => false
  | term :: rest => evaluate atom term || evaluateAny atom rest

end

end Condition

/-- What a rule does when it fires. -/
inductive Effect where
  /-- Records statuses of the matched entity for a clause, in this order. -/
  | setStatus (target : RulePath) (statuses : List Status)
  | insertResult (rule : RulePath) (outcome : Outcome)
deriving DecidableEq, Repr, Inhabited

/-- When a rule takes part in an evaluation. -/
inductive Phase where
  | compute
  | summary
deriving DecidableEq, Repr

/-- Why a rule was made. -/
inductive Purpose where
  | notApplicable
  | applicable
  | pass
  | fail
  /-- Carries a part's result over to the entities of the whole. -/
  | transferPass
  | transferPassVacuous
  | transferFail
  /-- Sums up a clause over all entities. -/
  | metaPass
  | metaPassVacuous
  | metaFail
  | documentFinalPass
  | documentFinalFail
  /-- A step of a clause record succeeded. -/
  | stepPass
  | clausePass
  | clauseFail
deriving DecidableEq, Repr, Inhabited

namespace Purpose

/-- The suffix of a rule's id that tells its purpose. -/
def suffix : Purpose → String
  | .notApplicable => "NotApplicable"
  | .applicable => "Applicable"
  | .pass | .transferPass | .clausePass => "Pass"
  | .transferPassVacuous => "Pass2"
  | .fail | .transferFail | .clauseFail => "Fail"
  | .metaPass => "Meta_Pass"
  | .metaPassVacuous => "Meta_Pass2"
  | .metaFail => "Meta_Fail"
  | .documentFinalPass => "FINAL_PASS"
  | .documentFinalFail => "FINAL_FAIL"
  | .stepPass => "Step"

def phase : Purpose → Phase
  | .notApplicable | .applicable | .pass | .fail | .transferPass | .transferPassVacuous
  | .transferFail | .stepPass => .compute
  | .metaPass | .metaPassVacuous | .metaFail | .documentFinalPass | .documentFinalFail
  | .clausePass | .clauseFail => .summary

end Purpose

structure Rule where
  id : String
  /-- The clause that the rule belongs to. -/
  clause : RulePath
  purpose : Purpose
  /-- The object class of the entities that the rule matches, if it matches any. -/
  entityType : Option String
  guard : Condition
  effect : Effect
deriving Repr, Inhabited

end ClauseRules
