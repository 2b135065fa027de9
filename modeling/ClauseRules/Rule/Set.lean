import ClauseRules.Rule.Order
import ClauseRules.Sorted.Set

/-! Sets of rules, kept in order and without repetitions. -/

namespace ClauseRules

abbrev RuleSet := SortedSet Rule

namespace RuleSet

/-- The first rule with an id. -/
def get? (rules : RuleSet) (id : String) : Option Rule := rules.toList.find? (·.id == id)

end RuleSet

end ClauseRules
