/-! Settings of a compilation. -/

namespace ClauseRules

def defaultFallbackObject : String := "Building"

def defaultImports : List String :=
  ["import org.dcom.ruleengine.core.RuleEngineComplianceObject;",
    "import org.dcom.ruleengine.core.RuleEngineResult;"]

structure Config where
  /-- The object class of the rules of sections that have none. -/
  fallbackObject : String := defaultFallbackObject
  /-- Whether an id that is met twice ends the compilation. Otherwise the second occurrence is
  passed over with a remark. -/
  rejectDuplicateNodes : Bool := false
  /-- The lines at the top of a rule file. -/
  imports : List String := defaultImports
deriving DecidableEq, Repr, Inhabited

end ClauseRules
