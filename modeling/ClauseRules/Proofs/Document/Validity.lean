import ClauseRules.Proofs.Compile.Failure
import ClauseRules.Proofs.Document.Transfers

/-! The check of a document before it is compiled. It looks at the tree as it was written; whatever
compilation repairs, passes over or takes out on its way, it meets no section that the check would
have refused.
-/

namespace ClauseRules

variable {env : CompileEnv} {s : CompileState} {sections : List Container} {e : CompileError}

/-! ### Failures of documents -/

theorem exists_topCall_of_failure (failed : (compileAll env s sections).2 = .error e)
    : ∃ top, TopCall env s sections top ∧ (top.outcome env).context = .error e := by
  induction sections generalizing s with
  | nil => cases failed
  | cons c rest ih =>
      cases context : (c.compile env none none s).context with
      | error problem =>
          simp only [compileAll, context, Except.error.injEq] at failed
          exact ⟨_, .here, failed ▸ context⟩
      | ok out =>
          rw [compileAll_cons_of_ok context] at failed
          cases others : (compileAll env (c.compile env none none s).state rest).2 with
          | ok paths =>
              rw [others] at failed
              cases failed
          | error problem =>
              rw [others] at failed
              cases failed
              obtain ⟨top, isTop, fails⟩ := ih others
              exact ⟨top, .later isTop, fails⟩

theorem TopCall.mem {top : Call} (isTop : TopCall env s sections top)
    : top.container ∈ sections := by
  induction isTop with
  | here => exact List.mem_cons_self
  | later _ ih => exact List.mem_cons_of_mem _ ih

namespace Document

variable {document : Document} {call : Call}

theorem Calls.mem_sections (calls : document.Calls env call)
    : ∃ c ∈ document.sections, call.container ∈ c.sections := by
  obtain ⟨top, isTop, reaches⟩ := calls
  exact ⟨top.container, isTop.mem, reaches.mem_sections⟩

/-- A document fails for its first violation, or where a call refuses its section. -/
theorem exists_fails (failed : (document.compile env).1 = .error e)
    : (∃ error rest, document.violations = error :: rest ∧ e = .invalidRoot error)
      ∨ document.violations = [] ∧ ∃ call, document.Calls env call ∧ call.Fails env e := by
  cases violations : document.violations with
  | cons error rest =>
      simp only [compile, violations, Except.error.injEq] at failed
      exact .inl ⟨error, rest, rfl, failed.symm⟩
  | nil =>
      obtain ⟨compiles, fails⟩ := compile_of_valid env violations
      cases run : (compileAll env {} document.sections).2 with
      | ok paths =>
          obtain ⟨rules, succeeds⟩ := compiles paths run
          cases succeeds.symm.trans failed
      | error problem =>
          cases (fails problem run).symm.trans failed
          obtain ⟨top, isTop, outcome⟩ := exists_topCall_of_failure run
          obtain ⟨inner, reaches, refuses⟩ := Call.exists_fails outcome
          exact .inr ⟨rfl, inner, ⟨top, isTop, reaches⟩, refuses⟩

/-- Every section that compiling a valid document meets can be repaired. -/
theorem pure_of_calls (valid : document.violations = []) (calls : document.Calls env call)
    : call.container.mixedContent? = none := by
  obtain ⟨c, listed, inside⟩ := calls.mem_sections
  exact Container.pure_of_valid (violation?_eq_none valid listed) inside

/-- A document with violations is refused for the first of them. One without is never refused as a
whole, nor for content that is mixed, as every section that it leads to can be repaired.
-/
theorem compile_validity (document : Document) (env : CompileEnv)
    : (∀ error rest, document.violations = error :: rest →
        (document.compile env).1 = .error (.invalidRoot error))
      ∧ (document.violations = [] →
        (∀ error, (document.compile env).1 ≠ .error (.invalidRoot error))
        ∧ (∀ mixed, (document.compile env).1 ≠ .error (.mixedContent mixed))
        ∧ ∀ call, document.Calls env call → ∃ repaired, call.container.normal = .ok repaired) := by
  refine ⟨fun error rest violations => by simp only [compile, violations], fun valid => ?_⟩
  -- A failure of a valid document is one of its calls.
  have origin {e : CompileError} (failed : (document.compile env).1 = .error e)
      : ∃ call, document.Calls env call ∧ call.Fails env e := by
    rcases exists_fails failed with ⟨_, _, violations, _⟩ | ⟨_, fails⟩
    · cases valid.symm.trans violations
    · exact fails
  refine ⟨fun error failed => ?_, fun mixed failed => ?_, fun call calls => ?_⟩
  · obtain ⟨_, _, fails⟩ := origin failed
    cases fails
  · obtain ⟨call, calls, fails⟩ := origin failed
    cases fails with
    | mixed _ mixed => cases (pure_of_calls valid calls).symm.trans mixed
  · exact Container.normal_of_pure (pure_of_calls valid calls)

/-- Two tags next to a section, in a section of a kind that cannot stand at the top. -/
def crowdedDocument : Document where
  base := "GB/R/B/1"
  items := [
    .container { text := "q1" } "/b" .selection [
      .tag { id := { text := "q2" }, kind := .requirement, property := "width" },
      .tag { id := { text := "q3" }, kind := .requirement, property := "height" },
      .container { text := "q4" } "/b" .requirement
        [.tag { id := { text := "q5" }, kind := .requirement, property := "depth" }]]]
  tables := []

/-- Of two violations the first is the reason; a stray tag is none, and is repaired. -/
theorem compile_validity_crowded
    : crowdedDocument.violations
        = [.notRequirement { text := "q1" } .selection, .mixedContent ⟨{ text := "q1" }, 2⟩]
      ∧ (crowdedDocument.compile DocumentEntry.openings).1
        = .error (.invalidRoot (.notRequirement { text := "q1" } .selection))
      ∧ strayDocument.violations = []
      ∧ strayDocument.Calls DocumentEntry.openings strayCall
      ∧ (∃ repaired, strayCall.container.normal = .ok repaired)
      ∧ ∀ mixed,
        (strayDocument.compile DocumentEntry.openings).1 ≠ .error (.mixedContent mixed) := by
  have violations
      : crowdedDocument.violations
        = [.notRequirement { text := "q1" } .selection, .mixedContent ⟨{ text := "q1" }, 2⟩] := by
    decide +kernel
  have valid : strayDocument.violations = [] := by decide +kernel
  have calls : strayDocument.Calls DocumentEntry.openings strayCall := ⟨strayCall, .here, .refl⟩
  obtain ⟨-, unmixed, repairs⟩ :=
    (compile_validity strayDocument DocumentEntry.openings).2 valid
  exact ⟨violations,
    (compile_validity crowdedDocument DocumentEntry.openings).1 _ _ violations, valid, calls,
    repairs strayCall calls, unmixed⟩

end Document

end ClauseRules
