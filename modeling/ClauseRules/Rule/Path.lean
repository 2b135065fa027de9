import ClauseRules.Name

/-! Paths of clauses, which rules and results are named after. -/

namespace ClauseRules

/-- The path of a clause, such as `GBRegulation/b/1/s1`. -/
structure RulePath where
  text : String
deriving DecidableEq, Repr, Inhabited

namespace RulePath

/-- The path that a free text spells. -/
def ofText (text : String) : RulePath := ⟨Name.ofRule text⟩

/-- The path of a part of a document, from where it is cited and its id. -/
def ofCitation (reference id : String) : RulePath := ofText (reference ++ "/" ++ id)

/-- The id of the rule at a path for the purpose that `suffix` names. -/
def ruleId (path : RulePath) (suffix : String) : String := path.text ++ "_" ++ suffix

instance : Ord RulePath where
  compare p q := compare p.text q.text

end RulePath

end ClauseRules
