import ClauseRules.Proofs.Document.Consistency
import ClauseRules.Proofs.Section.Summaries

/-! Results that the rules of a document record. A section gets one result, and no result is
recorded twice, however often the statuses of entities change in between.
-/

namespace ClauseRules

theorem Rule.once_of_setStatus {r : Rule} {target : RulePath} {statuses : List Status}
    (effect : r.effect = .setStatus target statuses)
    : r.Once := by
  intro path outcome records
  simp [result?, effect] at records

theorem Rule.Makes.once {r : Rule} {paths : List RulePath} (makes : r.Makes paths) : r.Once := by
  cases makes with
  | main scope operands _ member =>
      obtain ⟨_, _, _, _, effect⟩ := Scope.mainRules_shape member
      exact once_of_setStatus effect
  | summary path _ member => exact (aggregationRules_once member).1
  | transfer path child object id _ _ member =>
      obtain ⟨_, _, _, _, _, effect⟩ := transferRules_shape member
      exact once_of_setStatus effect

namespace Document

variable {document : Document} {env : CompileEnv} {rules : RuleSet}

/-- Every rule of a document that records a result waits for it to be absent. -/
theorem once_of_compile (succeeds : (document.compile env).1 = .ok rules)
    : ∀ r ∈ rules, r.Once := by
  intro r member
  rcases derivation_of_compile succeeds member with ⟨c, _, y, compiles, inside⟩ | final
  · exact (compiles.makes inside).once
  · exact documentRules_once final

variable {ε : Type} [Fintype ε] [DecidableEq ε]

/-- The rules that sum up a section whose statuses are complete come to an end, in any order with
the outcome of the section as the one result that they record. In no evaluation of the rules of a
document a result is recorded twice, whatever becomes of the statuses.
-/
theorem compile_results
    : (∀ (f : Facts ε) (path : RulePath), f.Complete path → f.results = ∅ →
        (∃ fired g,
          f.Course {r | r ∈ aggregationRules path} Eq fired g
          ∧ g.Still {r | r ∈ aggregationRules path})
        ∧ ∀ fired g, f.Course {r | r ∈ aggregationRules path} Eq fired g →
          g.Still {r | r ∈ aggregationRules path} →
            resultsOf fired = [(path, f.outcome path)] ∧ g.results = {(path, f.outcome path)})
      ∧ ∀ (document : Document) (env : CompileEnv) (rules : RuleSet),
        (document.compile env).1 = .ok rules →
          ∀ (f g : Facts ε) (fired : List Rule),
            f.Course {r | r ∈ rules} Facts.SameResults fired g →
              (resultsOf fired).Nodup ∧ ∀ result ∈ resultsOf fired, result ∉ f.results := by
  refine ⟨fun f path complete unknown => ⟨?_, fun fired g course still => ?_⟩,
    fun document env rules succeeds f g fired course => ?_⟩
  · obtain ⟨g, run, settled⟩ := Facts.exists_settled (aggregationRules path) f
    obtain ⟨fired, course⟩ := Facts.exists_course run
    exact ⟨fired, g, course, settled.still fun r member => aggregationRules_once member⟩
  · have recorded := aggregationRules_sum_up complete unknown course still
    refine ⟨recorded, Finset.ext fun result => ?_⟩
    rw [course.undisturbed.mem_results, unknown, recorded]
    simp
  · exact course.recorded_once (once_of_compile succeeds)

/-- A building passes as long as nothing is known of it, and fails once it is known to. -/
theorem exists_course_narrowDoor {rules : Set Rule}
    (own : ∀ r ∈ aggregationRules ⟨"/b/b1"⟩, r ∈ rules)
    : ∃ fired g,
        narrowDoor.Course rules Facts.SameResults fired g
        ∧ resultsOf fired = [(⟨"/b/b1"⟩, .pass), (⟨"/b/b1"⟩, .fail)] := by
  let passes := (aggregationRules ⟨"/b/b1"⟩).get ⟨1, by decide⟩
  let fails := (aggregationRules ⟨"/b/b1"⟩).get ⟨2, by decide⟩
  let passed := narrowDoor.record none passes.effect
  let failing : Facts Bool := { passed with statuses := {(false, ⟨"/b/b1"⟩, .fail)} }
  have unfired : narrowDoor.Course rules Facts.SameResults [] narrowDoor := .start
  have first : narrowDoor.Course rules Facts.SameResults [passes] passed :=
    unfired.fires_alone (own _ (List.get_mem _ _)) rfl (by decide)
  have known : narrowDoor.Course rules Facts.SameResults [passes] failing := first.changes rfl
  exact ⟨_, _, known.fires_alone (own fails (List.get_mem _ _)) rfl (by decide), rfl⟩

theorem compile_results_doors
    : (doorsKnown true).Complete ⟨"/b/s1"⟩ ∧ (doorsKnown true).results = ∅
      ∧ (∃ fired g,
        (doorsKnown true).Course {r | r ∈ aggregationRules ⟨"/b/s1"⟩} Eq fired g
        ∧ resultsOf fired = [(⟨"/b/s1"⟩, .fail)] ∧ g.results = {(⟨"/b/s1"⟩, .fail)})
      ∧ ∃ rules fired g,
        (wideDoors.compile doors).1 = .ok rules
        ∧ narrowDoor.Course {r | r ∈ rules} Facts.SameResults fired g
        ∧ resultsOf fired = [(⟨"/b/b1"⟩, .pass), (⟨"/b/b1"⟩, .fail)]
        ∧ (resultsOf fired).Nodup := by
  obtain ⟨ofSection, ofDocument⟩ := compile_results (ε := Bool)
  have complete : (doorsKnown true).Complete ⟨"/b/s1"⟩ := ⟨by decide, by decide, by decide⟩
  obtain ⟨⟨fired, g, course, still⟩, all⟩ := ofSection (doorsKnown true) ⟨"/b/s1"⟩ complete rfl
  refine ⟨complete, rfl, ⟨fired, g, course, all fired g course still⟩, ?_⟩
  obtain ⟨rules, compiled, own⟩
      : ∃ rules, (wideDoors.compile doors).1 = .ok rules
          ∧ ∀ r ∈ aggregationRules ⟨"/b/b1"⟩, r ∈ rules :=
    exists_of_compile (by decide +kernel)
  obtain ⟨fired, g, course, recorded⟩ := exists_course_narrowDoor own
  have once := ofDocument wideDoors doors rules compiled narrowDoor g fired course
  exact ⟨rules, fired, g, compiled, course, recorded, once.1⟩

end Document

end ClauseRules
