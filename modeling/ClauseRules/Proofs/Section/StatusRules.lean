import ClauseRules.Proofs.Section.Applicability

/-! What the status rules of a section do. Each of the four conclusions that a section comes to has
its own premises, and the rules draw exactly these conclusions.
-/

namespace ClauseRules

namespace Purpose

/-- The rule sets a status of the section it belongs to. -/
def isStatus : Purpose → Bool
  | .notApplicable | .applicable | .pass | .fail => true
  | _ => false

/-- The rule carries a result over to the entities of another class. -/
def isTransfer : Purpose → Bool
  | .transferPass | .transferPassVacuous | .transferFail => true
  | _ => false

theorem phase_of_isStatus {purpose : Purpose} (isStatus : purpose.isStatus = true)
    : purpose.phase = .compute := by
  cases purpose <;> first | rfl | cases isStatus

theorem not_isTransfer {purpose : Purpose} (isStatus : purpose.isStatus = true)
    : purpose.isTransfer = false := by
  cases purpose <;> first | rfl | cases isStatus

theorem phase_of_isTransfer {purpose : Purpose} (isTransfer : purpose.isTransfer = true)
    : purpose.phase = .compute := by
  cases purpose <;> first | rfl | cases isTransfer

end Purpose

namespace Scope

variable {atom : Condition → Bool} {scope : Scope} {operands : Operands} {r : Rule}

/-- The section may still be decided, as far as the section around it is concerned. -/
def Open (scope : Scope) (atom : Condition → Bool) : Prop :=
  ∀ c ∈ scope.ancestorGuard, c.evaluate atom = true

theorem open_iff
    : scope.Open atom
      ↔ ∀ ancestor, scope.ancestor = some ancestor →
          atom (.has ancestor .fail) = false ∧ atom (.has ancestor .pass) = false
            ∧ (scope.kind = .requirement → atom (.has ancestor .applicable) = true) := by
  cases around : scope.ancestor with
  | none => simp [Open, ancestorGuard, around]
  | some ancestor =>
      by_cases required : scope.kind = .requirement
      · simp [Open, ancestorGuard, around, required, or_imp, forall_and]
      · simp [Open, ancestorGuard, around, required]

/-- The conclusions that a section may come to, with the statuses they add. -/
inductive Concludes (scope : Scope) (operands : Operands) (atom : Condition → Bool)
    : List Status → Prop
  | notApplicable (undecided : atom (.has scope.path .notApplicable) = false)
    (unapplied : atom (.has scope.path .applicable) = false)
    (avoids : ∃ c, operands.inapplicability? = some c ∧ c.evaluate atom = true)
    : Concludes scope operands atom [.notApplicable, .pass]
  | applicable (unapplied : atom (.has scope.path .applicable) = false)
    (undecided : atom (.has scope.path .notApplicable) = false)
    (applies : ∀ c ∈ operands.applicabilityTerms, c.evaluate atom = true)
    : Concludes scope operands atom [.applicable]
  | pass (unfailed : atom (.has scope.path .fail) = false)
    (unpassed : atom (.has scope.path .pass) = false)
    (applicable : atom (.has scope.path .applicable) = true)
    (all : ∀ operand ∈ operands.requires, operand.holds.evaluate atom = true)
    : Concludes scope operands atom [.pass]
  | fail (unfailed : atom (.has scope.path .fail) = false)
    (unpassed : atom (.has scope.path .pass) = false)
    (applicable : atom (.has scope.path .applicable) = true)
    (violated : ∃ operand ∈ operands.requires, operand.fails.evaluate atom = true)
    : Concludes scope operands atom [.fail]

theorem statusRule_guard {purpose : Purpose} {terms : List Condition} {statuses : List Status}
    : (scope.statusRule purpose terms statuses).guard.evaluate atom = true
      ↔ scope.Open atom ∧ ∀ c ∈ terms, c.evaluate atom = true := by
  simp [statusRule, Open, or_imp, forall_and]

theorem mem_mainRules
    : r ∈ scope.mainRules operands
      ↔ (∃ c, operands.inapplicability? = some c
          ∧ scope.statusRule .notApplicable
            [.lacks scope.path .notApplicable, .lacks scope.path .applicable, c]
            [.notApplicable, .pass] = r)
        ∨ r = scope.statusRule .applicable
          (([.lacks scope.path .applicable, .lacks scope.path .notApplicable] : List Condition)
            ++ operands.applicabilityTerms)
          [.applicable]
        ∨ r = scope.statusRule .pass
          (([.lacks scope.path .fail, .lacks scope.path .pass, .has scope.path .applicable]
              : List Condition)
            ++ operands.requires.map Operand.holds)
          [.pass]
        ∨ operands.requires ≠ []
          ∧ scope.statusRule .fail
            (([.lacks scope.path .fail, .lacks scope.path .pass, .has scope.path .applicable]
                : List Condition)
              ++ ([.or (operands.requires.map Operand.fails)] : List Condition))
            [.fail] = r := by
  by_cases none : operands.requires = []
  · simp only [mainRules, none, List.isEmpty_nil, if_true, List.mem_append, Option.mem_toList,
      Option.map_eq_some_iff, List.mem_cons, List.not_mem_nil, reduceCtorEq, or_false, ne_eq,
      not_true_eq_false, false_and]
  · simp only [mainRules, List.isEmpty_iff, none, if_false, List.mem_append, Option.mem_toList,
      Option.map_eq_some_iff, List.mem_cons, List.not_mem_nil, Option.some.injEq, or_false,
      or_assoc, ne_eq, not_false_eq_true, true_and]

/-- Every rule of a section sets statuses of the section on entities of its class. -/
theorem mainRules_shape (member : r ∈ scope.mainRules operands)
    : r.clause = scope.path ∧ r.entityType = some scope.entityType ∧ r.purpose.isStatus = true
      ∧ ∃ statuses, r.effect = .setStatus scope.path statuses := by
  rcases mem_mainRules.mp member with ⟨c, _, rfl⟩ | rfl | rfl | ⟨_, rfl⟩
  all_goals exact ⟨rfl, rfl, rfl, _, rfl⟩

/-- A rule whose guard is true draws a conclusion whose premises are true. -/
theorem concludes_of_guard (member : r ∈ scope.mainRules operands)
    (guard : r.guard.evaluate atom = true)
    : scope.Open atom
      ∧ ∃ statuses, r.effect = .setStatus scope.path statuses
          ∧ scope.Concludes operands atom statuses := by
  rcases mem_mainRules.mp member with ⟨c, conditional, rfl⟩ | rfl | rfl | ⟨_, rfl⟩
  all_goals
    obtain ⟨isOpen, terms⟩ := statusRule_guard.mp guard
    refine ⟨isOpen, _, rfl, ?_⟩
    simp only [List.cons_append, List.nil_append, List.forall_mem_cons, List.forall_mem_map,
      Condition.evaluate_lacks, Condition.evaluate_has, Bool.not_eq_true'] at terms
  · exact .notApplicable terms.1 terms.2.1 ⟨c, conditional, terms.2.2.1⟩
  · exact .applicable terms.1 terms.2.1 terms.2.2
  · exact .pass terms.1 terms.2.1 terms.2.2.1 terms.2.2.2
  · refine .fail terms.1 terms.2.1 terms.2.2.1 ?_
    exact Operands.exists_mem_map_evaluate.mp (Condition.evaluate_or.mp terms.2.2.2.1)

/-- Every conclusion whose premises are true is drawn by a rule whose guard is true. -/
theorem exists_guard_of_concludes {statuses : List Status} (isOpen : scope.Open atom)
    (concludes : scope.Concludes operands atom statuses)
    : ∃ r ∈ scope.mainRules operands,
        r.guard.evaluate atom = true ∧ r.effect = .setStatus scope.path statuses := by
  cases concludes with
  | notApplicable undecided unapplied avoids =>
      obtain ⟨c, conditional, holds⟩ := avoids
      refine ⟨_, mem_mainRules.mpr (.inl ⟨c, conditional, rfl⟩), ?_, rfl⟩
      exact statusRule_guard.mpr ⟨isOpen, by simp [undecided, unapplied, holds]⟩
  | applicable unapplied undecided applies =>
      refine ⟨_, mem_mainRules.mpr (.inr (.inl rfl)), ?_, rfl⟩
      exact statusRule_guard.mpr ⟨isOpen, by simpa [undecided, unapplied] using applies⟩
  | pass unfailed unpassed applicable all =>
      refine ⟨_, mem_mainRules.mpr (.inr (.inr (.inl rfl))), ?_, rfl⟩
      exact statusRule_guard.mpr ⟨isOpen, by simpa [unfailed, unpassed, applicable] using all⟩
  | fail unfailed unpassed applicable violated =>
      obtain ⟨operand, member, fails⟩ := violated
      refine ⟨_, mem_mainRules.mpr (.inr (.inr (.inr ⟨List.ne_nil_of_mem member, rfl⟩))), ?_, rfl⟩
      refine statusRule_guard.mpr ⟨isOpen, ?_⟩
      have some : (Condition.or (operands.requires.map Operand.fails)).evaluate atom = true :=
        Condition.evaluate_or.mpr (Operands.exists_mem_map_evaluate.mpr ⟨operand, member, fails⟩)
      simp [unfailed, unpassed, applicable, some, -Condition.evaluate_or]

end Scope

end ClauseRules
