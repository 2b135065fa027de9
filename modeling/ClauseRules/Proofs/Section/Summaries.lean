import ClauseRules.Proofs.Firing.Course
import ClauseRules.Proofs.Section.TransferRules

/-! Results of sections and of documents. A section whose statuses are complete gets one result,
that it fails if it fails for some entity, and that it passes otherwise. The result of a document
does not follow from those of its sections in the same way: it passes where every section passes for
some entity, also if it fails for others.
-/

namespace ClauseRules

/-! ### Summaries -/

section

variable {ε : Type} [Fintype ε] [DecidableEq ε] {f : Facts ε} {focus : Option ε}
  {path : RulePath} {purpose : Purpose} {condition : Condition} {outcome : Outcome}

theorem once_summaryRule : (summaryRule path purpose condition outcome).Once := by
  rintro _ _ ⟨⟩
  exact ⟨_, rfl, by simp⟩

theorem holds_summaryRule
    : f.Holds focus (summaryRule path purpose condition outcome).guard
      ↔ f.Holds focus condition ∧ (path, outcome) ∉ f.results := by
  simp [summaryRule]

end

/-! ### Sections -/

namespace Facts

/-- The statuses for a section are complete: what it applies to is known to pass or to fail. -/
structure Complete {ε : Type} (f : Facts ε) (path : RulePath) : Prop where
  consistent : ∀ e, ¬((e, path, .pass) ∈ f.statuses ∧ (e, path, .fail) ∈ f.statuses)
  applicable_of_fail : ∀ e, (e, path, .fail) ∈ f.statuses → (e, path, .applicable) ∈ f.statuses
  decided
    : ∀ e, (e, path, .applicable) ∈ f.statuses →
        (e, path, .pass) ∈ f.statuses ∨ (e, path, .fail) ∈ f.statuses

variable {ε : Type} [Fintype ε] [DecidableEq ε] {f g : Facts ε} {path : RulePath}

/-- A section fails as a whole if it fails for some entity. -/
def outcome (f : Facts ε) (path : RulePath) : Outcome :=
  if ∃ e, (e, path, .fail) ∈ f.statuses then .fail else .pass

theorem outcome_of_fail {e : ε} (fails : (e, path, .fail) ∈ f.statuses)
    : f.outcome path = .fail :=
  if_pos ⟨e, fails⟩

/-- Where the section passes for all entities that it applies to, it fails for none. -/
theorem Complete.outcome_of_pass (complete : f.Complete path)
    (all : ∀ e, (e, path, .applicable) ∈ f.statuses → (e, path, .pass) ∈ f.statuses)
    : f.outcome path = .pass := by
  refine if_neg ?_
  rintro ⟨e, fails⟩
  exact complete.consistent e ⟨all e (complete.applicable_of_fail e fails), fails⟩

omit [Fintype ε] [DecidableEq ε] in
theorem Complete.of_same (complete : f.Complete path) (same : g.statuses = f.statuses)
    : g.Complete path := by
  constructor
  all_goals rw [same]
  · exact complete.consistent
  · exact complete.applicable_of_fail
  · exact complete.decided

end Facts

section

variable {ε : Type} [Fintype ε] [DecidableEq ε] {f g : Facts ε} {focus : Option ε}
  {path : RulePath} {r : Rule} {fired : List Rule}

/-- Each of the rules that sum up a section records its outcome. -/
theorem aggregationRules_result (complete : f.Complete path) (member : r ∈ aggregationRules path)
    (holds : f.Holds focus r.guard)
    : r.result? = some (path, f.outcome path) := by
  -- All pass, it applies to none, or some fail.
  rcases mem_aggregationRules.mp member with rfl | rfl | rfl
  · have all : ∀ e, (e, path, .applicable) ∈ f.statuses → (e, path, .pass) ∈ f.statuses := by
      simpa using (holds_summaryRule.mp holds).1
    rw [complete.outcome_of_pass all]
    rfl
  · have none : ∀ e, (e, path, .applicable) ∉ f.statuses := by
      simpa using (holds_summaryRule.mp holds).1
    rw [complete.outcome_of_pass fun e applies => absurd applies (none e)]
    rfl
  · have some : ∃ e, (e, path, .fail) ∈ f.statuses := by
      simpa using (holds_summaryRule.mp holds).1
    obtain ⟨e, fails⟩ := some
    rw [Facts.outcome_of_fail fails]
    rfl

/-- As long as the outcome of the section is not recorded, one of the rules can fire. -/
theorem exists_aggregation (complete : f.Complete path)
    (absent : (path, f.outcome path) ∉ f.results)
    : ∃ r ∈ aggregationRules path, f.Matches r none ∧ f.Holds none r.guard := by
  by_cases some : ∃ e, (e, path, .fail) ∈ f.statuses
  · obtain ⟨e, fails⟩ := some
    rw [Facts.outcome_of_fail fails] at absent
    refine ⟨_, mem_aggregationRules.mpr (.inr (.inr rfl)), rfl, ?_⟩
    refine holds_summaryRule.mpr ⟨?_, absent⟩
    simpa using ⟨e, fails⟩
  · have all (e : ε) (applies : (e, path, .applicable) ∈ f.statuses)
        : (e, path, .pass) ∈ f.statuses :=
      (complete.decided e applies).resolve_right fun fails => some ⟨e, fails⟩
    rw [complete.outcome_of_pass all] at absent
    refine ⟨_, mem_aggregationRules.mpr (.inl rfl), rfl, holds_summaryRule.mpr ⟨?_, absent⟩⟩
    simpa using all

theorem aggregationRules_once (member : r ∈ aggregationRules path)
    : r.Once ∧ ∃ result, r.result? = some result := by
  rcases mem_aggregationRules.mp member with rfl | rfl | rfl
  all_goals exact ⟨once_summaryRule, _, rfl⟩

/-- The rules that sum up a section leave the statuses alone, and all that they record is its
outcome.
-/
theorem Facts.Course.records_outcome (complete : f.Complete path)
    (course : f.Course {r | r ∈ aggregationRules path} Eq fired g)
    : g.statuses = f.statuses ∧ ∀ result ∈ resultsOf fired, result = (path, f.outcome path) := by
  induction course with
  | start => exact ⟨rfl, List.forall_mem_nil _⟩
  | changes _ same ih => exact same ▸ ih
  | @fires fired g r focus _ member _ holds ih =>
      obtain ⟨statuses, same⟩ := ih
      have records := aggregationRules_result (complete.of_same statuses) member holds
      rw [statuses_record records, resultsOf_append, records]
      refine ⟨statuses, List.forall_mem_append.mpr ⟨same, List.forall_mem_singleton.mpr ?_⟩⟩
      rw [Facts.outcome, statuses, Facts.outcome]

/-- In whatever order the rules fire that sum up a section, once none of them can fire any more its
outcome has been recorded, once and nothing else.
-/
theorem aggregationRules_sum_up (complete : f.Complete path) (unknown : f.results = ∅)
    (course : f.Course {r | r ∈ aggregationRules path} Eq fired g)
    (still : g.Still {r | r ∈ aggregationRules path})
    : resultsOf fired = [(path, f.outcome path)] := by
  obtain ⟨statuses, same⟩ := course.records_outcome complete
  obtain ⟨distinct, _⟩ :=
    course.undisturbed.recorded_once fun r member => (aggregationRules_once member).1
  have outcome : g.outcome path = f.outcome path := by rw [Facts.outcome, statuses, Facts.outcome]
  have recorded : (path, f.outcome path) ∈ resultsOf fired := by
    refine Classical.byContradiction fun missing => ?_
    have absent : (path, g.outcome path) ∉ g.results := by
      rw [course.undisturbed.mem_results, unknown, outcome]
      simpa using missing
    obtain ⟨r, member, fits, holds⟩ := exists_aggregation (complete.of_same statuses) absent
    exact still r member none fits holds
  refine List.perm_singleton.mp
    ((List.perm_ext_iff_of_nodup distinct (List.nodup_singleton _)).mpr fun result => ?_)
  rw [List.mem_singleton]
  exact ⟨same result, fun equal => equal ▸ recorded⟩

end

/-! ### Documents -/

section

variable {ε : Type} {f : Facts ε} {path : RulePath}

/-- The section passes for one entity and fails for another. -/
def Facts.Contested (f : Facts ε) (path : RulePath) : Prop :=
  ∃ e other, e ≠ other ∧ (e, path, .pass) ∈ f.statuses ∧ (other, path, .fail) ∈ f.statuses

variable [Fintype ε] [DecidableEq ε] {document : RulePath} {sections : List RulePath}
  {pass fail r : Rule} {focus : Option ε}

theorem documentRules_once (member : r ∈ documentRules document sections) : r.Once := by
  rcases mem_documentRules.mp member with rfl | rfl
  all_goals exact once_summaryRule

/-- A document passes where every section passes for some entity. -/
theorem holds_finalPass (member : pass ∈ documentRules document sections)
    (purpose : pass.purpose = .documentFinalPass)
    : f.Holds focus pass.guard
      ↔ (∀ path ∈ sections, ∃ e, (e, path, .pass) ∈ f.statuses)
        ∧ (document, .pass) ∉ f.results := by
  rcases mem_documentRules.mp member with rfl | rfl
  · simp
  · cases purpose

/-- A document fails where some section fails for some entity. -/
theorem holds_finalFail (member : fail ∈ documentRules document sections)
    (purpose : fail.purpose = .documentFinalFail)
    : f.Holds focus fail.guard
      ↔ (∃ path ∈ sections, ∃ e, (e, path, .fail) ∈ f.statuses)
        ∧ (document, .fail) ∉ f.results := by
  rcases mem_documentRules.mp member with rfl | rfl
  · cases purpose
  · simp

/-- A document without a result is found to pass and to fail at once exactly where every section
passes for some entity, and one of them fails for another. If no section is contested in this way, a
document with a section that fails for some entity is not found to pass.
-/
theorem documentRules_verdicts
    (consistent
      : ∀ path ∈ sections, ∀ e,
          ¬((e, path, .pass) ∈ f.statuses ∧ (e, path, .fail) ∈ f.statuses))
    (passes : pass ∈ documentRules document sections) (isPass : pass.purpose = .documentFinalPass)
    (fails : fail ∈ documentRules document sections) (isFail : fail.purpose = .documentFinalFail)
    : (f.Holds none pass.guard ∧ f.Holds none fail.guard
        ↔ (∀ path ∈ sections, ∃ e, (e, path, .pass) ∈ f.statuses)
          ∧ (∃ path ∈ sections, f.Contested path)
          ∧ (document, .pass) ∉ f.results ∧ (document, .fail) ∉ f.results)
      ∧ ((∀ path ∈ sections, ¬f.Contested path) →
        (∃ path ∈ sections, ∃ e, (e, path, .fail) ∈ f.statuses) → ¬f.Holds none pass.guard) := by
  rw [holds_finalPass passes isPass, holds_finalFail fails isFail]
  -- Where a section passes and fails, it does so for two entities.
  have contested (path : RulePath) (listed : path ∈ sections)
      (some : ∃ e, (e, path, .pass) ∈ f.statuses) (other : ∃ e, (e, path, .fail) ∈ f.statuses)
      : f.Contested path := by
    obtain ⟨e, pass⟩ := some
    obtain ⟨other, fail⟩ := other
    refine ⟨e, other, ?_, pass, fail⟩
    rintro rfl
    exact consistent path listed e ⟨pass, fail⟩
  constructor
  · constructor
    · rintro ⟨⟨all, unpassed⟩, ⟨path, listed, fail⟩, unfailed⟩
      exact ⟨all, ⟨path, listed, contested path listed (all path listed) fail⟩, unpassed, unfailed⟩
    · rintro ⟨all, ⟨path, listed, _, other, _, _, fail⟩, unpassed, unfailed⟩
      exact ⟨⟨all, unpassed⟩, ⟨path, listed, other, fail⟩, unfailed⟩
  · rintro uncontested ⟨path, listed, fail⟩ ⟨all, _⟩
    exact uncontested path listed (contested path listed (all path listed) fail)

/-! ### Two doors -/

/-- A section that applies to two doors. It fails for one, and passes for the other if that is
wide.
-/
def doorsKnown (isWide : Bool) : Facts Bool where
  isA := fun _ type => type == "door"
  passes := fun door _ => door && isWide
  statuses := Finset.univ.image (fun door => (door, ⟨"/b/s1"⟩, .applicable))
    ∪ Finset.univ.image fun door => (door, ⟨"/b/s1"⟩, if door && isWide then .pass else .fail)

/-- The rules about the result of a document that has this section only. -/
def doorRules : List Rule := documentRules ⟨"GB/R/B/1"⟩ [⟨"/b/s1"⟩]

/-- With one wide door the section is contested, without any it is not. -/
theorem documentRules_verdicts_doors
    : ∃ pass ∈ doorRules, ∃ fail ∈ doorRules,
        pass.purpose = .documentFinalPass ∧ fail.purpose = .documentFinalFail
        ∧ (∀ isWide e,
          ¬((e, ⟨"/b/s1"⟩, .pass) ∈ (doorsKnown isWide).statuses
            ∧ (e, ⟨"/b/s1"⟩, .fail) ∈ (doorsKnown isWide).statuses))
        ∧ (doorsKnown true).Contested ⟨"/b/s1"⟩
        ∧ (doorsKnown true).Holds none pass.guard ∧ (doorsKnown true).Holds none fail.guard
        ∧ ¬(doorsKnown false).Contested ⟨"/b/s1"⟩
        ∧ ¬(doorsKnown false).Holds none pass.guard := by
  have consistent (isWide : Bool)
      : ∀ path ∈ [(⟨"/b/s1"⟩ : RulePath)], ∀ e,
          ¬((e, path, .pass) ∈ (doorsKnown isWide).statuses
            ∧ (e, path, .fail) ∈ (doorsKnown isWide).statuses) := by
    decide +revert
  let pass := doorRules.get ⟨0, by decide⟩
  let fail := doorRules.get ⟨1, by decide⟩
  have passes : pass ∈ doorRules := List.get_mem _ _
  have fails : fail ∈ doorRules := List.get_mem _ _
  have contested : (doorsKnown true).Contested ⟨"/b/s1"⟩ := ⟨true, false, by decide⟩
  have uncontested : ¬(doorsKnown false).Contested ⟨"/b/s1"⟩ := by
    rintro ⟨e, _, _, wide, _⟩
    exact absurd wide (by decide +revert)
  have both := (documentRules_verdicts (consistent true) passes rfl fails rfl).1.mpr
    ⟨by decide, by simpa using contested, by decide, by decide⟩
  have unpassed := (documentRules_verdicts (consistent false) passes rfl fails rfl).2
    (by simpa using uncontested) (by decide)
  exact ⟨pass, passes, fail, fails, rfl, rfl, fun isWide => consistent isWide _ (.head _),
    contested, both.1, both.2, uncontested, unpassed⟩

/-- A wide door and a narrow one, each with one verdict, let a document pass and fail at once. -/
theorem doorRules_contradiction
    : [(⟨"/b/s1"⟩ : RulePath)] ≠ []
      ∧ (∀ path ∈ [(⟨"/b/s1"⟩ : RulePath)], ∀ e,
        ¬((e, path, .pass) ∈ (doorsKnown true).statuses
          ∧ (e, path, .fail) ∈ (doorsKnown true).statuses))
      ∧ ∃ pass ∈ documentRules ⟨"GB/R/B/1"⟩ [⟨"/b/s1"⟩],
        ∃ fail ∈ documentRules ⟨"GB/R/B/1"⟩ [⟨"/b/s1"⟩],
          pass.purpose = .documentFinalPass ∧ fail.purpose = .documentFinalFail
          ∧ (doorsKnown true).Holds none pass.guard ∧ (doorsKnown true).Holds none fail.guard := by
  decide

end

end ClauseRules
