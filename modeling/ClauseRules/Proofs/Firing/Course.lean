import ClauseRules.Proofs.Firing.Settling

/-! Evaluations with a record of the rules that fired. Between two firings the surroundings may make
changes of their own, as far as these are allowed. A rule that looks for the result that it records
before it fires records it once, whatever the other rules and the surroundings do.
-/

namespace ClauseRules

namespace Rule

/-- The result that a rule records, if it records one. -/
def result? (r : Rule) : Option (RulePath × Outcome) :=
  match r.effect with
  | .setStatus _ _ => none
  | .insertResult path outcome => some (path, outcome)

/-- The rule waits for its result to be absent, if it records one. -/
def Once (r : Rule) : Prop :=
  ∀ path outcome, r.result? = some (path, outcome) →
    ∃ terms, r.guard = .and terms ∧ .not (.result path outcome) ∈ terms

end Rule

/-- The results that rules record one after the other. -/
def resultsOf (fired : List Rule) : List (RulePath × Outcome) := fired.filterMap Rule.result?

namespace Facts

variable {ε : Type} [Fintype ε] [DecidableEq ε]

/-- The rules of a set fire one after the other, in any order and any number of times, while the
surroundings make changes.
-/
inductive Course (rules : Set Rule) (Changes : Facts ε → Facts ε → Prop) (f : Facts ε)
    : List Rule → Facts ε → Prop
  | start : Course rules Changes f [] f
  | fires {fired : List Rule} {g : Facts ε} {r : Rule} {focus : Option ε}
    (before : Course rules Changes f fired g) (member : r ∈ rules) (fits : g.Matches r focus)
    (holds : g.Holds focus r.guard)
    : Course rules Changes f (fired ++ [r]) (g.record focus r.effect)
  | changes {fired : List Rule} {g h : Facts ε} (before : Course rules Changes f fired g)
    (change : Changes g h)
    : Course rules Changes f fired h

/-- No rule can fire. -/
def Still (rules : Set Rule) (f : Facts ε) : Prop :=
  ∀ r ∈ rules, ∀ focus, f.Matches r focus → ¬f.Holds focus r.guard

/-- The surroundings leave the results alone. -/
def SameResults (f g : Facts ε) : Prop := g.results = f.results

variable {rules : Set Rule} {Changes : Facts ε → Facts ε → Prop} {f g : Facts ε}
  {fired : List Rule} {r : Rule} {focus : Option ε} {result : RulePath × Outcome}

/-- A rule that matches no entities fires. -/
theorem Course.fires_alone (before : f.Course rules Changes fired g) (member : r ∈ rules)
    (alone : r.entityType = none) (holds : g.Holds none r.guard)
    : f.Course rules Changes (fired ++ [r]) (g.record none r.effect) :=
  before.fires member alone holds

theorem exists_course (run : f.Run rules g) : ∃ fired, f.Course rules Eq fired g := by
  induction run with
  | refl => exact ⟨[], .start⟩
  | tail _ step ih =>
      obtain ⟨fired, course⟩ := ih
      obtain ⟨r, member, focus, fits, holds, rfl⟩ := step
      exact ⟨fired ++ [r], course.fires member fits holds⟩

theorem Course.mono {More : Facts ε → Facts ε → Prop} (weaker : ∀ g h, Changes g h → More g h)
    (course : f.Course rules Changes fired g)
    : f.Course rules More fired g := by
  induction course with
  | start => exact .start
  | fires _ member fits holds ih => exact ih.fires member fits holds
  | changes _ change ih => exact ih.changes (weaker _ _ change)

theorem Course.undisturbed (course : f.Course rules Eq fired g)
    : f.Course rules SameResults fired g :=
  course.mono fun g h (equal : g = h) => congrArg Facts.results equal.symm

omit [Fintype ε] in
theorem mem_results_record
    : result ∈ (f.record focus r.effect).results
      ↔ result ∈ f.results ∨ r.result? = some result := by
  cases effect : r.effect with
  | setStatus => simp [record, Rule.result?, effect]
  | insertResult => simp [record, Rule.result?, effect, or_comm, eq_comm]

omit [Fintype ε] in
/-- A rule that records a result records no status. -/
theorem statuses_record (records : r.result? = some result)
    : (f.record focus r.effect).statuses = f.statuses := by
  cases effect : r.effect with
  | setStatus => simp [Rule.result?, effect] at records
  | insertResult => rfl

theorem resultsOf_append : resultsOf (fired ++ [r]) = resultsOf fired ++ r.result?.toList := by
  cases records : r.result? <;> simp [resultsOf, records]

/-- If the surroundings leave the results alone, the rules have recorded all that is new. -/
theorem Course.mem_results (course : f.Course rules SameResults fired g)
    : result ∈ g.results ↔ result ∈ f.results ∨ result ∈ resultsOf fired := by
  induction course with
  | start => simp [resultsOf]
  | fires _ _ _ _ ih =>
      rw [mem_results_record, resultsOf_append, List.mem_append, Option.mem_toList, ih, or_assoc]
  | changes _ same ih => rw [same, ih]

/-- A rule that waits for its result to be absent fires only where it is. -/
theorem not_mem_results_of_once (once : r.Once) (holds : f.Holds focus r.guard)
    (records : r.result? = some result)
    : result ∉ f.results := by
  obtain ⟨terms, guard, listed⟩ := once result.1 result.2 records
  rw [guard, holds_and] at holds
  simpa using holds _ listed

/-- Rules that wait for their results to be absent record each of them once, and none that was
known before.
-/
theorem Course.recorded_once (once : ∀ r ∈ rules, r.Once)
    (course : f.Course rules SameResults fired g)
    : (resultsOf fired).Nodup ∧ ∀ result ∈ resultsOf fired, result ∉ f.results := by
  induction course with
  | start => exact ⟨List.nodup_nil, List.forall_mem_nil _⟩
  | changes _ _ ih => exact ih
  | @fires fired g r focus before member _ holds ih =>
      obtain ⟨distinct, new⟩ := ih
      rw [resultsOf_append]
      cases records : r.result? with
      | none => exact ⟨by simpa using distinct, by simpa using new⟩
      | some result =>
          have absent := not_mem_results_of_once (once r member) holds records
          rw [before.mem_results, not_or] at absent
          refine ⟨distinct.append (List.nodup_singleton _) ?_, ?_⟩
          · simpa using absent.2
          · exact List.forall_mem_append.mpr ⟨new, List.forall_mem_singleton.mpr absent.1⟩

/-- Where rules that record results and wait for them to be absent can add nothing, none of them can
fire at all.
-/
theorem Settled.still (settled : Settled rules f)
    (each : ∀ r ∈ rules, r.Once ∧ ∃ result, r.result? = some result)
    : f.Still rules := by
  intro r member focus fits holds
  obtain ⟨once, result, records⟩ := each r member
  have same := settled _ ⟨r, member, focus, fits, holds, rfl⟩
  refine not_mem_results_of_once once holds records ?_
  rw [← same, mem_results_record]
  exact .inr records

end Facts

end ClauseRules
