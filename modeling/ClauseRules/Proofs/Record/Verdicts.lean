import ClauseRules.Proofs.Firing.Course
import ClauseRules.Proofs.Record.Origins
import ClauseRules.Proofs.Section.Summaries

/-! Verdicts on clauses that steps make up. A step records at most that it passed, and a clause or a
document fails only where a part of it failed. So nothing ever fails, and every clause passes, also
if none of its steps does.
-/

namespace ClauseRules

namespace Facts

variable {ε : Type}

/-- No failure is recorded. -/
def Unfailed (f : Facts ε) : Prop := ∀ path, (path, .fail) ∉ f.results

/-- The surroundings record no failure. -/
def NoNewFailure (f g : Facts ε) : Prop :=
  ∀ path, (path, .fail) ∈ g.results → (path, .fail) ∈ f.results

variable {f g : Facts ε}

theorem Unfailed.of_noNewFailure (unfailed : f.Unfailed) (change : f.NoNewFailure g)
    : g.Unfailed :=
  fun path fails => unfailed path (change path fails)

theorem Unfailed.record [DecidableEq ε] {r : Rule} {focus : Option ε} {path : RulePath}
    (unfailed : f.Unfailed) (records : r.result? = some (path, .pass))
    : (f.record focus r.effect).Unfailed := by
  intro other fails
  rw [mem_results_record, records] at fails
  exact fails.elim (unfailed other) (by simp)

end Facts

section

variable {ε : Type} [Fintype ε] [DecidableEq ε] {f : Facts ε} {focus : Option ε} {r : Rule}

/-- As long as nothing failed, a verdict is to pass as soon as it is not recorded yet, and none is
to fail.
-/
theorem verdictRules_of_unfailed {path : RulePath} {parts : List RulePath} {onPass onFail : Purpose}
    (member : r ∈ verdictRules path parts onPass onFail) (unfailed : f.Unfailed)
    : (r.purpose = onPass ∧ r.effect = .insertResult path .pass
        ∧ ∀ focus, f.Holds focus r.guard ↔ (path, .pass) ∉ f.results)
      ∨ (r.purpose = onFail ∧ ∀ focus, ¬f.Holds focus r.guard) := by
  rcases mem_verdictRules.mp member with rfl | rfl
  · refine .inl ⟨rfl, rfl, fun focus => ?_⟩
    simp [unfailed _]
  · refine .inr ⟨rfl, fun focus holds => ?_⟩
    obtain ⟨part, _, failed⟩
        : ∃ part ∈ parts, f.Holds focus (.result part .fail) := by
      simpa using (holds_summaryRule.mp holds).1
    exact unfailed part (Facts.holds_result.mp failed)

/-- What a rule comes to as long as nothing failed. A step records that it passed, a verdict to pass
waits for nothing but itself, and a verdict to fail is not given.
-/
theorem Rule.OfRecords.cases_of_unfailed (known : r.OfRecords) (unfailed : f.Unfailed)
    : (r.purpose = .stepPass ∧ ∃ path, r.effect = .insertResult path .pass)
      ∨ ((r.purpose = .clausePass ∨ r.purpose = .documentFinalPass)
        ∧ ∃ path, r.effect = .insertResult path .pass
          ∧ ∀ focus, f.Holds focus r.guard ↔ (path, .pass) ∉ f.results)
      ∨ ((r.purpose = .clauseFail ∨ r.purpose = .documentFinalFail)
        ∧ ∀ focus, ¬f.Holds focus r.guard) := by
  cases known with
  | step previous step command same =>
      subst same
      exact .inl ⟨rfl, step.resultPath, rfl⟩
  | clause path parts member =>
      rcases verdictRules_of_unfailed member unfailed with ⟨purpose, passes⟩ | ⟨purpose, never⟩
      · exact .inr (.inl ⟨.inl purpose, path, passes⟩)
      · exact .inr (.inr ⟨.inl purpose, never⟩)
  | document path parts member =>
      rcases verdictRules_of_unfailed member unfailed with ⟨purpose, passes⟩ | ⟨purpose, never⟩
      · exact .inr (.inl ⟨.inr purpose, path, passes⟩)
      · exact .inr (.inr ⟨.inr purpose, never⟩)

/-- As long as nothing failed, what fires is to pass. -/
theorem Rule.OfRecords.passes (known : r.OfRecords) (unfailed : f.Unfailed)
    (holds : f.Holds focus r.guard)
    : (∃ path, r.result? = some (path, .pass))
      ∧ r.purpose ≠ .clauseFail ∧ r.purpose ≠ .documentFinalFail := by
  rcases known.cases_of_unfailed unfailed with
    ⟨purpose, path, effect⟩ | ⟨purpose, path, effect, _⟩ | ⟨_, never⟩
  · exact ⟨⟨path, by rw [Rule.result?, effect]⟩, by simp [purpose]⟩
  · exact ⟨⟨path, by rw [Rule.result?, effect]⟩, by rcases purpose with h | h <;> simp [h]⟩
  · exact absurd holds (never focus)

variable {g : Facts ε} {rules : Set Rule} {fired : List Rule}

/-- Where no failure is known at first, none ever is, and no verdict to fail is given. -/
theorem Facts.Course.unfailed (known : ∀ r ∈ rules, r.OfRecords)
    (course : f.Course rules NoNewFailure fired g) (unfailed : f.Unfailed)
    : g.Unfailed
      ∧ ∀ r ∈ fired,
        (∃ path, r.result? = some (path, .pass))
        ∧ r.purpose ≠ .clauseFail ∧ r.purpose ≠ .documentFinalFail := by
  induction course with
  | start => exact ⟨unfailed, List.forall_mem_nil _⟩
  | changes _ change ih => exact ⟨ih.1.of_noNewFailure change, ih.2⟩
  | @fires fired g r focus _ member _ holds ih =>
      obtain ⟨still, before⟩ := ih
      have passes := (known r member).passes still holds
      refine ⟨?_, List.forall_mem_append.mpr ⟨before, List.forall_mem_singleton.mpr passes⟩⟩
      obtain ⟨⟨path, records⟩, _⟩ := passes
      exact still.record records

end

section

variable {ε : Type} [Fintype ε] [DecidableEq ε] {f g : Facts ε} {name : String}
  {groups : List RecordGroup} {rules : RuleSet} {fired : List Rule}

/-- Clause records never fail. From facts without a failure, the rules of clause records record none
in whatever order they fire and whatever else becomes known, and all that a clause or the document
ever waits for to pass is that it did not pass before.
-/
theorem compileRecords_never_fails (succeeds : (compileRecords name groups).1 = .ok rules)
    (unfailed : f.Unfailed) (course : f.Course {r | r ∈ rules} Facts.NoNewFailure fired g)
    : g.Unfailed ∧ (∀ result ∈ resultsOf fired, result.2 = .pass)
      ∧ (∀ r ∈ fired, r.purpose ≠ .clauseFail ∧ r.purpose ≠ .documentFinalFail)
      ∧ ∀ r ∈ rules, r.purpose = .clausePass ∨ r.purpose = .documentFinalPass →
        ∃ path, r.effect = .insertResult path .pass
          ∧ ∀ focus, g.Holds focus r.guard ↔ (path, .pass) ∉ g.results := by
  have known := compileRecords_ofRecords succeeds
  obtain ⟨still, before⟩ := course.unfailed known unfailed
  refine ⟨still, ?_, fun r member => (before r member).2, ?_⟩
  · intro result recorded
    obtain ⟨r, member, records⟩ := List.mem_filterMap.mp recorded
    obtain ⟨⟨path, passes⟩, _⟩ := before r member
    rw [Option.some.inj (records.symm.trans passes)]
  · intro r member purpose
    rcases (known r member).cases_of_unfailed still with ⟨isStep, _⟩ | ⟨_, passes⟩ | ⟨fails, _⟩
    · simp [isStep] at purpose
    · exact passes
    · rcases fails with fails | fails <;> simp [fails] at purpose

/-- A clause of two steps, which look for results that no rule records. -/
def lostSteps : List RecordGroup :=
  [⟨"doors", [⟨"B1", "1", "TO", "B9", some "NEXT"⟩, ⟨"B1", "2", "RUN", "9", none⟩]⟩]

/-- Two entities of which no test is true. Another clause is known to pass. -/
def otherPassed : Facts Bool where
  isA := fun _ _ => true
  passes := fun _ _ => false
  results := {(⟨"B7"⟩, .pass)}

/-- The clause and the document pass, though neither step ever does. -/
theorem compileRecords_never_fails_lostSteps
    : ∃ rules fired g,
        (compileRecords "B" lostSteps).1 = .ok rules ∧ otherPassed.Unfailed
        ∧ otherPassed.Course {r | r ∈ rules} Facts.NoNewFailure fired g
        ∧ resultsOf fired = [(⟨"B1"⟩, .pass), (⟨"B"⟩, .pass)]
        ∧ g.Unfailed ∧ ∀ r ∈ fired, r.purpose ≠ .clauseFail ∧ r.purpose ≠ .documentFinalFail := by
  let clause := (verdictRules ⟨"B1"⟩ [⟨"B1_1"⟩, ⟨"B1_2"⟩] .clausePass .clauseFail).head nofun
  let final := (verdictRules ⟨"B"⟩ [⟨"B1"⟩] .documentFinalPass .documentFinalFail).head nofun
  have listed
      : (compileRecords "B" lostSteps).1.toOption.any (fun rules =>
          decide (clause ∈ rules ∧ final ∈ rules)) = true := by
    decide +kernel
  cases compiled : (compileRecords "B" lostSteps).1 with
  | error e => simp [compiled, Except.toOption] at listed
  | ok rules =>
      obtain ⟨hasClause, hasFinal⟩ : clause ∈ rules ∧ final ∈ rules := by
        simpa [compiled, Except.toOption] using listed
      have unfailed : otherPassed.Unfailed := by simp [Facts.Unfailed, otherPassed]
      have unfired : otherPassed.Course {r | r ∈ rules} Facts.NoNewFailure [] otherPassed := .start
      have course := (unfired.fires_alone hasClause rfl (by decide)).fires_alone hasFinal rfl
        (by decide)
      have never := compileRecords_never_fails compiled unfailed course
      exact ⟨rules, _, _, rfl, unfailed, course, rfl, never.1, never.2.2.1⟩

end

end ClauseRules
