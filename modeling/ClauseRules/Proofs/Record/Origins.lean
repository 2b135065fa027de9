import ClauseRules.Record.Compile
import ClauseRules.Proofs.Except
import ClauseRules.Proofs.Rule.Comparison
import ClauseRules.Proofs.Sorted.Members

/-! What the rules of clause records are made for: a step, a clause that steps make up, or the
document that the clauses make up.
-/

namespace ClauseRules

/-- Where a rule of clause records comes from. -/
inductive Rule.OfRecords (r : Rule) : Prop
  | step (previous : Option Step) (step : Step) (command : Command)
    (same : r = step.rule previous command)
  | clause (path : RulePath) (parts : List RulePath)
    (member : r ∈ verdictRules path parts .clausePass .clauseFail)
  | document (path : RulePath) (parts : List RulePath)
    (member : r ∈ verdictRules path parts .documentFinalPass .documentFinalFail)

theorem stepRules_ofRecords {steps : List Step} {previous : Option Step} {rules : List Rule}
    (succeeds : (stepRules previous steps).1 = .ok rules)
    : ∀ r ∈ rules, r.OfRecords := by
  induction steps generalizing previous rules with
  | nil => cases succeeds; exact List.forall_mem_nil _
  | cons step rest ih =>
      simp only [stepRules] at succeeds
      split at succeeds
      · cases succeeds
      case h_2 command _ =>
        obtain ⟨others, later, rfl⟩ := exists_of_map succeeds
        exact List.forall_mem_cons.mpr ⟨.step previous step command rfl, ih later⟩

theorem groupRules_ofRecords {groups : List RecordGroup} {rules : List Rule}
    (succeeds : (groupRules groups).1 = .ok rules)
    : ∀ r ∈ rules, r.OfRecords := by
  induction groups generalizing rules with
  | nil => cases succeeds; exact List.forall_mem_nil _
  | cons group rest ih =>
      simp only [groupRules] at succeeds
      split at succeeds
      · cases succeeds
      case h_2 here _ first =>
        obtain ⟨others, later, rfl⟩ := exists_of_map succeeds
        have steps : (stepRules none group.steps).1 = .ok here := by rw [first]
        exact List.forall_mem_append.mpr ⟨stepRules_ofRecords steps, ih later⟩

theorem compileRecords_ofRecords {name : String} {groups : List RecordGroup} {rules : RuleSet}
    (succeeds : (compileRecords name groups).1 = .ok rules)
    : ∀ r ∈ rules, r.OfRecords := by
  obtain ⟨steps, made, rfl⟩ := exists_of_map succeeds
  intro r member
  rw [SortedSet.mem_ofList, List.mem_append, List.mem_append] at member
  rcases member with (step | verdict) | final
  · exact groupRules_ofRecords made r step
  · obtain ⟨entry, _, verdict⟩ := List.mem_flatMap.mp verdict
    exact .clause _ _ verdict
  · split at final
    · cases final
    · exact .document _ _ final

end ClauseRules
