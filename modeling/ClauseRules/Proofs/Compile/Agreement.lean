import ClauseRules.Proofs.Compile.Duplicates
import ClauseRules.Proofs.Document.Sequence
import Mathlib.Data.List.Forall2

/-! A compiler that refuses duplicates beside one that passes them over. As long as the first
refuses nothing, both go through the same states and come to the same outcome.
-/

namespace ClauseRules

namespace CompileEnv

/-- The same compilation, with duplicates refused or passed over. -/
def rejecting (env : CompileEnv) (reject : Bool) : CompileEnv :=
  { env with config := { env.config with rejectDuplicateNodes := reject } }

end CompileEnv

/-- A compilation refuses no duplicate: it may fail for other reasons. -/
def RefusesNone {α : Type} (outcome : Except CompileError α) : Prop :=
  ∀ id, outcome ≠ .error (.duplicateNode id)

namespace SectionCompiler

/-- Where the first compiler refuses no duplicate, the second comes to the same. -/
def Agrees (strict lenient : SectionCompiler) : Prop :=
  ∀ context ancestor s,
    RefusesNone (strict context ancestor s).context →
      lenient context ancestor s = strict context ancestor s

end SectionCompiler

/-- Two children are the same section, compiled by compilers that agree. -/
structure Child.Agrees (strict lenient : Child) : Prop where
  container : lenient.container = strict.container
  compile : strict.compile.Agrees lenient.compile

/-- No duplicate was refused so far. -/
def Progress.RefusesNone (p : Progress) : Prop := ∀ id, p.failure ≠ some (.duplicateNode id)

variable {env : CompileEnv} {path : RulePath} {kind : Kind} {p : Progress}
  {strict lenient : List Child}

/-! ### Passes -/

/-- What was refused is still refused after a pass. -/
theorem Progress.RefusesNone.before (unrefused : (compileKind path kind p strict).1.RefusesNone)
    : p.RefusesNone := by
  intro id refused
  rw [compileKind_of_failure (by simp [refused])] at unrefused
  exact unrefused id refused

theorem Progress.RefusesNone.of_add {compiled : Compiled} (running : p.failure = none)
    (unrefused : (p.add compiled).RefusesNone)
    : ClauseRules.RefusesNone compiled.context := by
  intro id refused
  apply unrefused id
  rw [failure_add running, refused]

theorem compileKind_agrees (agree : List.Forall₂ Child.Agrees strict lenient)
    (unrefused : (compileKind path kind p strict).1.RefusesNone)
    : (compileKind path kind p lenient).1 = (compileKind path kind p strict).1
      ∧ List.Forall₂ Child.Agrees (compileKind path kind p strict).2
        (compileKind path kind p lenient).2 := by
  induction agree generalizing p with
  | nil => exact ⟨rfl, .nil⟩
  | @cons first second others more here later ih =>
      cases compiled : first.container.kind == kind && p.failure.isNone with
      | false =>
          have skipped : (second.container.kind == kind && p.failure.isNone) = false := by
            rw [here.container, compiled]
          rw [compileKind_cons_of_false compiled] at unrefused
          rw [compileKind_cons_of_false compiled, compileKind_cons_of_false skipped]
          obtain ⟨same, filled⟩ := ih unrefused
          exact ⟨same, .cons here filled⟩
      | true =>
          have alike : (second.container.kind == kind && p.failure.isNone) = true := by
            rw [here.container, compiled]
          have running : p.failure = none := by
            simpa using (Bool.and_eq_true_iff.mp compiled).2
          rw [compileKind_cons_of_true compiled] at unrefused
          rw [compileKind_cons_of_true compiled, compileKind_cons_of_true alike]
          -- The child refuses nothing, as that would have ended the pass.
          have outcome :=
            here.compile p.context (some path) p.state (unrefused.before.of_add running)
          rw [outcome]
          obtain ⟨same, filled⟩ := ih unrefused
          exact ⟨same, .cons ⟨rfl, here.compile⟩ filled⟩

theorem filter_agrees (agree : List.Forall₂ Child.Agrees strict lenient)
    : List.Forall₂ Child.Agrees (strict.filter (!·.isSpent)) (lenient.filter (!·.isSpent)) := by
  refine List.rel_filter (fun first second here => ?_) agree
  simp [Child.isSpent, here.container]

theorem compileKinds_agrees (agree : List.Forall₂ Child.Agrees strict lenient)
    (unrefused : (compileKinds path p strict).1.RefusesNone)
    : (compileKinds path p lenient).1 = (compileKinds path p strict).1
      ∧ List.Forall₂ Child.Agrees (compileKinds path p strict).2
        (compileKinds path p lenient).2 := by
  simp only [compileKinds] at unrefused ⊢
  -- Nothing was refused in the end, so nothing was refused in the passes before.
  obtain ⟨same1, agree1⟩ := compileKind_agrees agree unrefused.before.before.before
  rw [same1]
  have agreeKept
      : List.Forall₂ Child.Agrees
          (if (compileKind path .application p strict).1.failure.isNone
            then (compileKind path .application p strict).2.filter (!·.isSpent)
            else (compileKind path .application p strict).2)
          (if (compileKind path .application p strict).1.failure.isNone
            then (compileKind path .application p lenient).2.filter (!·.isSpent)
            else (compileKind path .application p lenient).2) := by
    split
    · exact filter_agrees agree1
    · exact agree1
  obtain ⟨same2, agree2⟩ := compileKind_agrees agreeKept unrefused.before.before
  rw [same2]
  obtain ⟨same3, agree3⟩ := compileKind_agrees agree2 unrefused.before
  rw [same3]
  exact compileKind_agrees agree3 unrefused

/-! ### Sections -/

namespace Container

variable {c : Container}

theorem compileSections_agrees (agree : List.Forall₂ Child.Agrees strict lenient)
    : (compileSections (env.rejecting true) c strict).Agrees
        (compileSections (env.rejecting false) c lenient) := by
  intro context ancestor s unrefused
  have refused
      : (compileKinds c.path { state := s, context := context } strict).1.RefusesNone := by
    intro id failure
    apply unrefused id
    simp only [compileSections, failure]
  obtain ⟨same, filled⟩ := compileKinds_agrees agree refused
  have containers
      : (compileKinds c.path { state := s, context := context } lenient).2.map
          (·.container.toNode)
        = (compileKinds c.path { state := s, context := context } strict).2.map
          (·.container.toNode) := by
    rw [← List.forall₂_eq_eq_eq, List.forall₂_map_left_iff, List.forall₂_map_right_iff]
    exact filled.flip.imp fun _ _ here => by rw [here.container]
  simp only [compileSections, same, containers]
  rfl

/-- As long as duplicates are refused nowhere, passing them over makes no difference. -/
theorem compile_agrees (env : CompileEnv) (c : Container)
    : (c.compile (env.rejecting true)).Agrees (c.compile (env.rejecting false)) := by
  induction c using Container.inductionOnParts with
  | step c below =>
      intro context ancestor s unrefused
      by_cases met : c.id ∈ s.visited
      · exact absurd (congrArg Compiled.context (compile_of_met met)) (unrefused c.id)
      cases c.shape with
      | mixed mixed => rw [compile_of_mixed met mixed, compile_of_mixed met mixed]
      | empty bare => rw [compile_of_empty met bare, compile_of_empty met bare]
      | tagged flat tagged =>
          -- Which tags there are and what they name is all that counts.
          rw [compile_of_tagged met flat tagged, compile_of_tagged met flat tagged]
          rfl
      | nested pure nested =>
          rw [compile_of_nested met pure nested] at unrefused ⊢
          rw [compile_of_nested met pure nested]
          refine compileSections_agrees ?_ _ _ _ unrefused
          rw [List.forall₂_map_left_iff, List.forall₂_map_right_iff, List.forall₂_same]
          exact fun k listed => ⟨rfl, below k listed⟩

end Container

/-! ### Sequences of sections -/

theorem compileAll_agrees {s : CompileState} {sections : List Container}
    (unrefused : RefusesNone (compileAll (env.rejecting true) s sections).2)
    : compileAll (env.rejecting false) s sections = compileAll (env.rejecting true) s sections := by
  induction sections generalizing s with
  | nil => rfl
  | cons c others ih =>
      have agrees := c.compile_agrees env none none s
      simp only [compileAll] at unrefused ⊢
      cases context : (c.compile (env.rejecting true) none none s).context with
      | error e =>
          simp only [context] at unrefused
          rw [context] at agrees
          rw [agrees fun id refused => unrefused id (by rw [Except.error.inj refused]), context]
      | ok out =>
          simp only [context] at unrefused
          rw [context] at agrees
          have accepted : RefusesNone (.ok out : Except CompileError (Option String)) := by
            rintro id ⟨⟩
          rw [agrees accepted, context]
          simp only
          rw [ih]
          intro id refused
          apply unrefused id
          rw [refused]
          rfl

/-- Where sections compile, a compiler that refuses duplicates has met every section, each once. -/
theorem compileAll_meetsOnce (strict : env.config.rejectDuplicateNodes = true) {s : CompileState}
    {sections : List Container} {paths : List RulePath}
    (succeeds : (compileAll env s sections).2 = .ok paths)
    : Unmet s (sections.flatMap Container.ids) := by
  induction sections generalizing s paths with
  | nil => exact ⟨List.nodup_nil, List.forall_mem_nil _⟩
  | cons c others ih =>
      obtain ⟨out, rest, context, run, _⟩ := compileAll_cons succeeds
      obtain ⟨unmet, met⟩ := c.compile_meetsOnce strict none none s out context
      rw [List.flatMap_cons]
      exact unmet.append (ih run) (c.compile_growing none none s) met

/-- Sections that are all met for the first time are not refused as duplicates. -/
theorem compileAll_accepts {s : CompileState} {sections : List Container}
    (unmet : Unmet s (sections.flatMap Container.ids))
    : RefusesNone (compileAll env s sections).2 := by
  induction sections generalizing s with
  | nil => exact nofun
  | cons c others ih =>
      rw [List.flatMap_cons] at unmet
      have accepts := c.compile_accepts env none none s unmet.left
      have rest := ih (unmet.right (c.compile_meetsOnly env none none s))
      intro id refused
      simp only [compileAll] at refused
      cases context : (c.compile env none none s).context with
      | error e =>
          simp only [context] at refused
          cases refused
          exact accepts id context
      | ok out =>
          simp only [context] at refused
          cases others : (compileAll env (c.compile env none none s).state others).2 with
          | error e =>
              rw [others] at refused
              cases refused
              exact rest id others
          | ok paths =>
              rw [others] at refused
              cases refused

end ClauseRules
