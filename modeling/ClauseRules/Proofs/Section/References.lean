import ClauseRules.Proofs.Section.Operands
import ClauseRules.Proofs.Section.StatusRules
import Mathlib.Data.Set.Basic

/-! Which statuses the rules of a section ask for, and which they set. Rules that decide a section
ask for the results of the sections nested in it, for their own clause and for the one around it;
all other rules ask for the clauses that they are about.
-/

namespace ClauseRules

namespace Condition

mutual

/-- The statuses that a condition asks for, however deep. That one is lacking does not count. -/
def asks : Condition → List (RulePath × Status)
  | .test _ => []
  | .status target s negated => if negated then [] else [(target, s)]
  | .not inner => asks inner
  | .and terms => asksOfList terms
  | .or terms => asksOfList terms
  | .forAll range consequence => asks range ++ asks consequence
  | .forSome inner => asks inner
  | .forNone inner => asks inner
  | .result _ _ => []

def asksOfList : List Condition → List (RulePath × Status)
  | [] => []
  | term :: rest => asks term ++ asksOfList rest

end

variable {entry : RulePath × Status} {terms : List Condition}

theorem asksOfList_eq_flatMap (terms : List Condition) : asksOfList terms = terms.flatMap asks := by
  induction terms with
  | nil => rfl
  | cons term rest ih =>
      rw [List.flatMap_cons, ← ih]
      rfl

@[simp]
theorem mem_asks_and : entry ∈ asks (.and terms) ↔ ∃ c ∈ terms, entry ∈ asks c := by
  have same : asks (.and terms) = terms.flatMap asks := asksOfList_eq_flatMap terms
  rw [same, List.mem_flatMap]

@[simp]
theorem mem_asks_or : entry ∈ asks (.or terms) ↔ ∃ c ∈ terms, entry ∈ asks c := by
  have same : asks (.or terms) = terms.flatMap asks := asksOfList_eq_flatMap terms
  rw [same, List.mem_flatMap]

@[simp]
theorem asks_not {c : Condition} : asks (.not c) = asks c := rfl

@[simp]
theorem asks_test {t : PropertyTest} : asks (.test t) = [] := rfl

@[simp]
theorem asks_has {path : RulePath} {s : Status} : asks (.has path s) = [(path, s)] := rfl

@[simp]
theorem asks_lacks {path : RulePath} {s : Status} : asks (.lacks path s) = [] := rfl

@[simp]
theorem asks_forAll {range consequence : Condition}
    : asks (.forAll range consequence) = asks range ++ asks consequence := rfl

@[simp]
theorem asks_forSome {c : Condition} : asks (.forSome c) = asks c := rfl

@[simp]
theorem asks_forNone {c : Condition} : asks (.forNone c) = asks c := rfl

@[simp]
theorem asks_result {path : RulePath} {outcome : Outcome} : asks (.result path outcome) = [] :=
  rfl

end Condition

/-- The guard of the rule asks for the status of a clause. -/
def Rule.Asks (r : Rule) (path : RulePath) (s : Status) : Prop := (path, s) ∈ r.guard.asks

/-- The rule sets the status for a clause. -/
def Rule.Sets (r : Rule) (path : RulePath) (s : Status) : Prop :=
  ∃ statuses, r.effect = .setStatus path statuses ∧ s ∈ statuses

instance {r : Rule} {path : RulePath} {s : Status} : Decidable (r.Asks path s) :=
  inferInstanceAs (Decidable ((path, s) ∈ r.guard.asks))

instance {r : Rule} {path : RulePath} {s : Status} : Decidable (r.Sets path s) :=
  match effect : r.effect with
  | .setStatus target statuses =>
      decidable_of_iff (target = path ∧ s ∈ statuses) (by
        simp only [Rule.Sets, effect, Effect.setStatus.injEq]
        exact ⟨fun ⟨same, member⟩ => ⟨statuses, ⟨same, rfl⟩, member⟩,
          fun ⟨_, ⟨same, eq⟩, member⟩ => ⟨same, eq ▸ member⟩⟩)
  | .insertResult _ _ => isFalse fun ⟨_, sets, _⟩ => by
      rw [effect] at sets
      cases sets

/-- There are rules that set that the clause applies, and rules that set that it passes. -/
def Decides (rules : Set Rule) (path : RulePath) : Prop :=
  ∀ s, s = .applicable ∨ s = .pass → ∃ q ∈ rules, q.Sets path s

variable {path p : RulePath} {s : Status} {r : Rule} {operands : Operands} {scope : Scope}

theorem Decides.mono {rules more : Set Rule} (decides : Decides rules path)
    (subset : ∀ r ∈ rules, r ∈ more)
    : Decides more path := by
  intro s either
  obtain ⟨q, member, sets⟩ := decides s either
  exact ⟨q, subset q member, sets⟩

/-! ### Rules of a section -/

namespace Operand

variable {operand : Operand}

theorem asks_holds (asks : (p, s) ∈ operand.holds.asks) : operand = .nested p ∧ s = .pass := by
  cases operand with
  | test t => simp [holds] at asks
  | nested path => simpa [holds, eq_comm] using asks

theorem asks_fails (asks : (p, s) ∈ operand.fails.asks) : operand = .nested p ∧ s = .fail := by
  cases operand with
  | test t => simp [fails] at asks
  | nested path => simpa [fails, eq_comm] using asks

end Operand

namespace Operands

/-- One of the operands is the result of a nested section. -/
def Nests (operands : Operands) (p : RulePath) : Prop := ∃ k, .nested p ∈ operands.role k

theorem nests_of_holds (k : Kind)
    (asks : ∃ c ∈ (operands.role k).map Operand.holds, (p, s) ∈ c.asks)
    : operands.Nests p ∧ s ≠ .applicable := by
  obtain ⟨_, member, asks⟩ := asks
  obtain ⟨operand, listed, rfl⟩ := List.mem_map.mp member
  obtain ⟨rfl, rfl⟩ := Operand.asks_holds asks
  exact ⟨⟨k, listed⟩, nofun⟩

theorem nests_of_fails (k : Kind)
    (asks : ∃ c ∈ (operands.role k).map Operand.fails, (p, s) ∈ c.asks)
    : operands.Nests p ∧ s ≠ .applicable := by
  obtain ⟨_, member, asks⟩ := asks
  obtain ⟨operand, listed, rfl⟩ := List.mem_map.mp member
  obtain ⟨rfl, rfl⟩ := Operand.asks_fails asks
  exact ⟨⟨k, listed⟩, nofun⟩

theorem nests_of_applicability (asks : ∃ c ∈ operands.applicabilityTerms, (p, s) ∈ c.asks)
    : operands.Nests p ∧ s ≠ .applicable := by
  obtain ⟨c, member, asks⟩ := asks
  simp only [applicabilityTerms, List.mem_append] at member
  rcases member with (member | member) | member
  · exact nests_of_holds .application ⟨c, member, asks⟩
  · exact nests_of_fails .exception ⟨c, member, asks⟩
  · split at member
    · exact absurd member List.not_mem_nil
    · rw [List.mem_singleton] at member
      subst member
      exact nests_of_holds .selection (Condition.mem_asks_or.mp asks)

theorem nests_of_inapplicability {c : Condition} (conditional : operands.inapplicability? = some c)
    (asks : (p, s) ∈ c.asks)
    : operands.Nests p ∧ s ≠ .applicable := by
  simp only [inapplicability?] at conditional
  split at conditional
  · cases conditional
  · cases conditional
    obtain ⟨c, member, asks⟩ := Condition.mem_asks_or.mp asks
    simp only [List.mem_append] at member
    rcases member with (member | member) | member
    · split at member
      · exact absurd member List.not_mem_nil
      · rw [List.mem_singleton] at member
        subst member
        exact nests_of_fails .selection (Condition.mem_asks_and.mp asks)
    · exact nests_of_fails .application ⟨c, member, asks⟩
    · exact nests_of_holds .exception ⟨c, member, asks⟩

end Operands

namespace Scope

theorem asks_ancestorGuard (asks : ∃ c ∈ scope.ancestorGuard, (p, s) ∈ c.asks)
    : scope.ancestor = some p ∧ s = .applicable := by
  obtain ⟨c, member, asks⟩ := asks
  cases around : scope.ancestor with
  | none => simp [ancestorGuard, around] at member
  | some ancestor =>
      simp only [ancestorGuard, around, List.mem_append, List.mem_cons, List.not_mem_nil,
        or_false] at member
      rcases member with (rfl | rfl) | member
      · simp at asks
      · simp at asks
      · split at member
        · rw [List.mem_singleton] at member
          subst member
          simpa [eq_comm] using asks
        · exact absurd member List.not_mem_nil

theorem asks_statusRule {purpose : Purpose} {terms : List Condition} {statuses : List Status}
    (asks : (scope.statusRule purpose terms statuses).Asks p s)
    : (scope.ancestor = some p ∧ s = .applicable) ∨ ∃ c ∈ terms, (p, s) ∈ c.asks := by
  simp only [Rule.Asks, statusRule, Condition.mem_asks_and, List.mem_append, or_and_right,
    exists_or] at asks
  exact asks.imp_left asks_ancestorGuard

/-- The status rules of a section ask whether it or the section around it applies, and for the
results of sections nested in it.
-/
theorem asks_mainRules (member : r ∈ scope.mainRules operands) (asks : r.Asks p s)
    : s = .applicable ∧ (p = scope.path ∨ scope.ancestor = some p)
      ∨ operands.Nests p ∧ s ≠ .applicable := by
  rcases mem_mainRules.mp member with ⟨c, conditional, rfl⟩ | rfl | rfl | ⟨_, rfl⟩
  all_goals
    rcases asks_statusRule asks with ⟨around, rfl⟩ | asks
    · exact .inl ⟨rfl, .inr around⟩
  · simp only [List.mem_cons, List.not_mem_nil, or_false, exists_eq_or_imp, exists_eq_left,
      Condition.asks_lacks, false_or] at asks
    exact .inr (Operands.nests_of_inapplicability conditional asks)
  · simp only [List.mem_append, List.mem_cons, List.not_mem_nil, or_false, or_and_right, exists_or,
      exists_eq_left, Condition.asks_lacks, false_or] at asks
    exact .inr (Operands.nests_of_applicability asks)
  all_goals
    simp only [List.mem_append, List.mem_cons, List.not_mem_nil, or_false, or_and_right, exists_or,
      exists_eq_left, Condition.asks_lacks, false_or, Condition.asks_has, Prod.mk.injEq] at asks
    rcases asks with ⟨rfl, rfl⟩ | asks
    · exact .inl ⟨rfl, .inl rfl⟩
  · exact .inr (Operands.nests_of_holds .requirement asks)
  · exact .inr (Operands.nests_of_fails .requirement (Condition.mem_asks_or.mp asks))

theorem mainRules_decides : Decides { r | r ∈ scope.mainRules operands } scope.path := by
  rintro s (rfl | rfl)
  · exact ⟨_, mem_mainRules.mpr (.inr (.inl rfl)), _, rfl, List.mem_singleton_self _⟩
  · exact ⟨_, mem_mainRules.mpr (.inr (.inr (.inl rfl))), _, rfl, List.mem_singleton_self _⟩

end Scope

/-! ### Rules that carry results over and sum them up -/

theorem asks_transferRules {child : RulePath} {object id : String}
    (member : r ∈ transferRules path object id child) (asks : r.Asks p s)
    : p = child := by
  rcases mem_transferRules.mp member with rfl | rfl | rfl
  · have either : p = child ∧ s = .applicable ∨ p = child ∧ s = .pass := by
      simpa [Rule.Asks] using asks
    exact either.elim And.left And.left
  · exact (by simpa [Rule.Asks] using asks : p = child ∧ s = .applicable).1
  · exact (by simpa [Rule.Asks] using asks : p = child ∧ s = .fail).1

theorem asks_aggregationRules (member : r ∈ aggregationRules path) (asks : r.Asks p s)
    : p = path := by
  rcases mem_aggregationRules.mp member with rfl | rfl | rfl
  · have either : p = path ∧ s = .applicable ∨ p = path ∧ s = .pass := by
      simpa [Rule.Asks] using asks
    exact either.elim And.left And.left
  · exact (by simpa [Rule.Asks] using asks : p = path ∧ s = .applicable).1
  · exact (by simpa [Rule.Asks] using asks : p = path ∧ s = .fail).1

theorem asks_documentRules {paths : List RulePath} (member : r ∈ documentRules path paths)
    (asks : r.Asks p s)
    : p ∈ paths := by
  rcases mem_documentRules.mp member with rfl | rfl
  · obtain ⟨_, listed, rfl, _⟩ : ∃ q ∈ paths, p = q ∧ s = .pass := by
      simpa [Rule.Asks] using asks
    exact listed
  · obtain ⟨_, listed, rfl, _⟩ : ∃ q ∈ paths, p = q ∧ s = .fail := by
      simpa [Rule.Asks] using asks
    exact listed

end ClauseRules
