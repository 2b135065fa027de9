import ClauseRules.Rule.Basic

/-! Conditions under an interpretation of their atoms: connectives mean what they say, and only
atoms are left to the interpretation.
-/

namespace ClauseRules.Condition

variable {atom : Condition → Bool}

theorem evaluateAll_eq_all (terms : List Condition)
    : evaluateAll atom terms = terms.all (evaluate atom) := by
  induction terms with
  | nil => rfl
  | cons term rest ih =>
      rw [List.all_cons, ← ih]
      rfl

theorem evaluateAny_eq_any (terms : List Condition)
    : evaluateAny atom terms = terms.any (evaluate atom) := by
  induction terms with
  | nil => rfl
  | cons term rest ih =>
      rw [List.any_cons, ← ih]
      rfl

@[simp]
theorem evaluate_and {terms : List Condition}
    : evaluate atom (.and terms) = true ↔ ∀ c ∈ terms, evaluate atom c = true := by
  have same : evaluate atom (.and terms) = terms.all (evaluate atom) := evaluateAll_eq_all terms
  rw [same, List.all_eq_true]

@[simp]
theorem evaluate_or {terms : List Condition}
    : evaluate atom (.or terms) = true ↔ ∃ c ∈ terms, evaluate atom c = true := by
  have same : evaluate atom (.or terms) = terms.any (evaluate atom) := evaluateAny_eq_any terms
  rw [same, List.any_eq_true]

@[simp]
theorem evaluate_not {c : Condition} : evaluate atom (.not c) = !evaluate atom c := rfl

@[simp]
theorem evaluate_test {t : PropertyTest} : evaluate atom (.test t) = atom (.test t) := rfl

@[simp]
theorem evaluate_has {path : RulePath} {s : Status}
    : evaluate atom (.has path s) = atom (.has path s) := rfl

@[simp]
theorem evaluate_lacks {path : RulePath} {s : Status}
    : evaluate atom (.lacks path s) = !atom (.has path s) := rfl

end ClauseRules.Condition
