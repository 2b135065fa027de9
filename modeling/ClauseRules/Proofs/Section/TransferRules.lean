import ClauseRules.Proofs.Firing.Basic
import ClauseRules.Proofs.Section.StatusRules

/-! What the rules do that carry the result of a section over to another object class, and those
that sum it up.
-/

namespace ClauseRules

theorem aggregationRules_shape {path : RulePath} {r : Rule} (member : r ∈ aggregationRules path)
    : r.clause = path ∧ r.purpose.isStatus = false ∧ r.purpose.isTransfer = false
      ∧ r.purpose.phase = .summary ∧ ∃ outcome, r.effect = .insertResult path outcome := by
  rcases mem_aggregationRules.mp member with rfl | rfl | rfl
  all_goals exact ⟨rfl, rfl, rfl, rfl, _, rfl⟩

theorem transferRules_shape {path child : RulePath} {object id : String} {r : Rule}
    (member : r ∈ transferRules path object id child)
    : r.clause = path ∧ r.entityType = some object ∧ r.purpose.isStatus = false
      ∧ r.purpose.isTransfer = true ∧ ∃ s, r.effect = .setStatus child [s] := by
  rcases mem_transferRules.mp member with rfl | rfl | rfl
  all_goals exact ⟨rfl, rfl, rfl, rfl, _, rfl⟩

variable {ε : Type} [Fintype ε] [DecidableEq ε] {f : Facts ε} {focus : Option ε}

/-- What the rules find out that carry the result of a section over. -/
theorem transferRules_concludes {path child : RulePath} {object id : String} {r : Rule}
    (member : r ∈ transferRules path object id child) (holds : f.Holds focus r.guard)
    : r.effect = .setStatus child [.pass]
      ∨ r.effect = .setStatus child [.fail] ∧ ∃ e, (e, child, .fail) ∈ f.statuses := by
  rcases mem_transferRules.mp member with rfl | rfl | rfl
  · exact .inl rfl
  · exact .inl rfl
  · exact .inr ⟨rfl, by simpa using holds⟩

/-- If a section is not known to apply to anything, it is passed. -/
theorem exists_vacuous_transfer {path child : RulePath} {object id : String}
    (unknown : ∀ e, (e, child, .applicable) ∉ f.statuses)
    : ∃ r ∈ transferRules path object id child,
        r.effect = .setStatus child [.pass] ∧ f.Holds focus r.guard := by
  refine ⟨_, mem_transferRules.mpr (.inr (.inl rfl)), rfl, ?_⟩
  simpa using unknown

end ClauseRules
