import ClauseRules.Proofs.Compile.Success

/-! Compiling a section, case by case. A section of sections gives each of its parts a turn, kind by
kind, and a part starts from the progress that those before it have made.
-/

namespace ClauseRules

variable {env : CompileEnv} {path : RulePath} {p : Progress} {children : List Child}
  {c : Container} {context : Option String} {ancestor : Option RulePath} {s : CompileState}

/-! ### Turns -/

namespace Progress

/-- The progress after the turn of one more section, which is left alone once something failed. -/
def turn (path : RulePath) (p : Progress) (compile : SectionCompiler) : Progress :=
  if p.failure.isNone then p.add (compile p.context (some path) p.state) else p

/-- The progress after the turns of some sections. -/
def after (env : CompileEnv) (path : RulePath) (p : Progress) (sections : List Container)
    : Progress :=
  sections.foldl (fun p k => p.turn path (k.compile env)) p

theorem turn_of_running {compile : SectionCompiler} (running : p.failure = none)
    : p.turn path compile = p.add (compile p.context (some path) p.state) := by
  simp [turn, running]

theorem turn_of_failure {compile : SectionCompiler} {e : CompileError}
    (failed : p.failure = some e)
    : p.turn path compile = p := by
  simp [turn, failed]

@[simp]
theorem after_nil : p.after env path [] = p := rfl

@[simp]
theorem after_cons {k : Container} {sections : List Container}
    : p.after env path (k :: sections) = (p.turn path (k.compile env)).after env path sections :=
  rfl

theorem after_of_failure {e : CompileError} (failed : p.failure = some e)
    (sections : List Container)
    : p.after env path sections = p := by
  induction sections with
  | nil => rfl
  | cons k rest ih => rw [after_cons, turn_of_failure failed, ih]

/-- Where nothing failed in the end, nothing had failed before. -/
theorem running_of_after {sections : List Container}
    (running : (p.after env path sections).failure = none)
    : p.failure = none := by
  cases failed : p.failure with
  | none => rfl
  | some e =>
      rw [after_of_failure failed, failed] at running
      cases running

/-- The object class of a section of sections after these turns. -/
def object (p : Progress) (env : CompileEnv) : String := p.context.getD env.config.fallbackObject

/-- The rules that carry the results of parts over to the object class of the section. -/
def transfers (p : Progress) (env : CompileEnv) (path : RulePath) : List Rule :=
  p.results.flatMap fun (id, child, context) =>
    if context == some (p.object env) then []
    else transferRules path (p.object env) id.text child

end Progress

/-- A compiler leaves a section of the kind it was made for. -/
def SectionCompiler.Leaves (compile : SectionCompiler) (kind : Kind) : Prop :=
  ∀ context ancestor s, (compile context ancestor s).container.kind = kind

/-- A pass gives the children of its kind their turns. -/
theorem compileKind_progress (path : RulePath) (kind : Kind) (p : Progress) (children : List Child)
    : (compileKind path kind p children).1
      = (children.filter (·.container.kind == kind)).foldl
        (fun p child => p.turn path child.compile) p := by
  induction children generalizing p with
  | nil => rfl
  | cons child rest ih =>
      cases same : child.container.kind == kind with
      | false => rw [compileKind_cons_of_false (by simp [same]), ih]; simp [same]
      | true =>
          cases failed : p.failure with
          | none =>
              rw [compileKind_cons_of_true (by simp [same, failed]), ih]
              simp [same, Progress.turn_of_running failed]
          | some e =>
              -- Nothing is compiled any more, so all turns are void.
              rw [compileKind_cons_of_false (by simp [failed]), ih]
              simp [same, Progress.turn_of_failure failed]

/-- A pass leaves the children of other kinds alone, and every child of the kind that it was. -/
theorem compileKind_children (path : RulePath) (kind : Kind) (p : Progress)
    (leaves : ∀ child ∈ children, child.compile.Leaves child.container.kind)
    : (∀ other, other ≠ kind →
        (compileKind path kind p children).2.filter (·.container.kind == other)
          = children.filter (·.container.kind == other))
      ∧ ∀ child ∈ (compileKind path kind p children).2,
          child.compile.Leaves child.container.kind := by
  induction children generalizing p with
  | nil => exact ⟨fun _ _ => rfl, List.forall_mem_nil _⟩
  | cons child rest ih =>
      obtain ⟨here, later⟩ := List.forall_mem_cons.mp leaves
      cases compiled : child.container.kind == kind && p.failure.isNone with
      | false =>
          obtain ⟨others, kinds⟩ := ih p later
          rw [compileKind_cons_of_false compiled]
          refine ⟨fun other differs => ?_, List.forall_mem_cons.mpr ⟨here, kinds⟩⟩
          simp only [List.filter_cons, others other differs]
      | true =>
          obtain ⟨others, kinds⟩ :=
            ih (p.add (child.compile p.context (some path) p.state)) later
          rw [compileKind_cons_of_true compiled]
          have left := here p.context (some path) p.state
          refine ⟨fun other differs => ?_, List.forall_mem_cons.mpr ⟨?_, kinds⟩⟩
          · simp only [List.filter_cons, others other differs, left]
            have own : child.container.kind = kind :=
              beq_iff_eq.mp (Bool.and_eq_true_iff.mp compiled).1
            simp [own, differs.symm]
          · rw [left]
            exact here

/-- All passes together give the children their turns, kind by kind. -/
theorem compileKinds_progress
    (leaves : ∀ child ∈ children, child.compile.Leaves child.container.kind)
    : (compileKinds path p children).1
      = (Kind.sort (·.container.kind) children).foldl
        (fun p child => p.turn path child.compile) p := by
  rcases first : compileKind path .application p children with ⟨p1, d1⟩
  obtain ⟨kept, isKept⟩
      : ∃ kept, (if p1.failure.isNone then d1.filter (!·.isSpent) else d1) = kept := ⟨_, rfl⟩
  rcases second : compileKind path .selection p1 kept with ⟨p2, d2⟩
  rcases third : compileKind path .exception p2 d2 with ⟨p3, d3⟩
  obtain ⟨others1, leaves1⟩ := compileKind_children path .application p leaves
  rw [first] at others1 leaves1
  -- Only applications are taken out after the first pass.
  have keptOthers (k : Kind) (other : k ≠ .application)
      : kept.filter (·.container.kind == k) = children.filter (·.container.kind == k) := by
    rw [← isKept, ← others1 k other]
    split
    · exact filter_not_isSpent other
    · rfl
  have leavesKept : ∀ child ∈ kept, child.compile.Leaves child.container.kind := by
    intro child member
    rw [← isKept] at member
    split at member
    · exact leaves1 child (List.mem_filter.mp member).1
    · exact leaves1 child member
  obtain ⟨others2, leaves2⟩ := compileKind_children path .selection p1 leavesKept
  rw [second] at others2 leaves2
  obtain ⟨others3, leaves3⟩ := compileKind_children path .exception p2 leaves2
  rw [third] at others3 leaves3
  have progress1 := compileKind_progress path .application p children
  have progress2 := compileKind_progress path .selection p1 kept
  have progress3 := compileKind_progress path .exception p2 d2
  rw [first] at progress1
  rw [second, keptOthers .selection (by decide)] at progress2
  rw [third, others2 .exception (by decide), keptOthers .exception (by decide)] at progress3
  simp only [compileKinds, first, isKept, second, third]
  rw [compileKind_progress, others3 .requirement (by decide), others2 .requirement (by decide),
    keptOthers .requirement (by decide), Kind.sort_eq]
  simp only [List.foldl_append, ← progress1, ← progress2, ← progress3]

/-! ### Cases -/

namespace Container

/-- How compilation takes a section that it has not met before. -/
inductive Shape (c : Container) : Prop
  | mixed {content} (mixed : c.mixedContent? = some content)
  | nested (pure : c.mixedContent? = none) (nested : c.hasContainers = true)
  | tagged (flat : c.hasContainers = false) (tagged : c.hasTags = true)
  | empty (none : c.children = [])

theorem pure_of_flat (flat : c.hasContainers = false) : c.mixedContent? = none := by
  rw [hasContainers_eq_any] at flat
  simp [mixedContent?, Node.mixedContent?, flat]

theorem shape (c : Container) : c.Shape := by
  cases nested : c.hasContainers with
  | true =>
      cases mixed : c.mixedContent? with
      | some content => exact .mixed mixed
      | none => exact .nested mixed nested
  | false =>
      cases tagged : c.hasTags with
      | true => exact .tagged nested tagged
      | false => exact .empty (children_eq_nil nested tagged)

theorem compile_of_met (met : c.id ∈ s.visited)
    : c.compile env context ancestor s
      = if env.config.rejectDuplicateNodes then ⟨c, s, .error (.duplicateNode c.id)⟩
        else ⟨c, s.warn [.duplicateNode c.id.text], .ok context⟩ := by
  simp [compile, compileSection, met]

section

variable (new : c.id ∉ s.visited)

include new

theorem compile_of_mixed {content : MixedContent} (mixed : c.mixedContent? = some content)
    : c.compile env context ancestor s = ⟨c, s.visit c.id, .error (.mixedContent content)⟩ := by
  simp [compile, compileSection, new, mixed]

theorem compile_of_nested (pure : c.mixedContent? = none) (nested : c.hasContainers = true)
    : c.compile env context ancestor s
      = compileSections env c (c.parts.map fun k => ⟨k, k.compile env⟩) context ancestor
        (s.visit c.id) := by
  simp [compile, compileSection, new, pure, nested, childList_eq nested]

theorem compile_of_tagged (flat : c.hasContainers = false) (tagged : c.hasTags = true)
    : c.compile env context ancestor s = compileLeaf env c context ancestor (s.visit c.id) := by
  simp [compile, compileSection, new, pure_of_flat flat, flat, tagged]

theorem compile_of_empty (none : c.children = [])
    : c.compile env context ancestor s = ⟨c, s.visit c.id, .ok context⟩ := by
  have flat : c.hasContainers = false := by simp [hasContainers, containers, none]
  have bare : c.hasTags = false := by simp [hasTags, tags, none]
  simp [compile, compileSection, new, pure_of_flat flat, flat, bare]

end

/-- Compilation changes nothing of a section but what it holds. -/
theorem compile_bare (c : Container) (env : CompileEnv) (context : Option String)
    (ancestor : Option RulePath) (s : CompileState)
    : (c.compile env context ancestor s).container.bare = c.bare := by
  by_cases met : c.id ∈ s.visited
  · rw [compile_of_met met]
    split <;> rfl
  · cases c.shape with
    | mixed mixed => rw [compile_of_mixed met mixed]
    | nested pure nested =>
        rw [compile_of_nested met pure nested]
        simp only [compileSections]
        split <;> rfl
    | tagged flat tagged =>
        rw [compile_of_tagged met flat tagged]
        simp only [compileLeaf]
        split
        · rfl
        · split
          all_goals
            split <;> rfl
    | empty none => rw [compile_of_empty met none]

theorem compile_leaves (c : Container) (env : CompileEnv) : (c.compile env).Leaves c.kind :=
  fun context ancestor s => kind_of_bare (c.compile_bare env context ancestor s)

/-- The progress of a section of sections after the turns of some of its parts. -/
def progress (c : Container) (env : CompileEnv) (context : Option String) (s : CompileState)
    (parts : List Container)
    : Progress :=
  Progress.after env c.path { state := s.visit c.id, context := context } parts

/-- The parts of a section in the order of their turns. -/
def turns (c : Container) : List Container := Kind.sort (·.kind) c.parts

theorem mem_turns {k : Container} : k ∈ c.turns ↔ k ∈ c.parts := Kind.mem_sort

/-- The rules that a section of sections adds after the turns of its parts. -/
def rulesAfter (c : Container) (env : CompileEnv) (ancestor : Option RulePath) (p : Progress)
    : List Rule :=
  (Scope.mk c.path c.kind ancestor (p.object env)).mainRules p.operands ++ p.transfers env c.path
    ++ aggregationRules c.path

/-- All passes together give the parts of a section their turns. -/
theorem compileKinds_parts (c : Container) (env : CompileEnv) (context : Option String)
    (s : CompileState)
    : (compileKinds c.path { state := s.visit c.id, context := context }
        (c.parts.map fun k => ⟨k, k.compile env⟩)).1
      = c.progress env context s c.turns := by
  have leaves
      : ∀ child ∈ c.parts.map fun k => (⟨k, k.compile env⟩ : Child),
          child.compile.Leaves child.container.kind := by
    simpa using fun k _ => k.compile_leaves env
  have turns
      : Kind.sort (·.container.kind) (c.parts.map fun k => (⟨k, k.compile env⟩ : Child))
        = c.turns.map fun k => ⟨k, k.compile env⟩ := by
    simp [Container.turns, Kind.sort_eq, List.filter_map, Function.comp_def]
  rw [compileKinds_progress leaves, turns, List.foldl_map]
  rfl

/-- A section of sections fails where a turn fails. Otherwise it has the object class that the turns
have led to, and adds its own rules.
-/
theorem compile_nested (c : Container) (env : CompileEnv) (context : Option String)
    (ancestor : Option RulePath) {s : CompileState} (new : c.id ∉ s.visited)
    (pure : c.mixedContent? = none) (nested : c.hasContainers = true)
    : (∃ e, (c.progress env context s c.turns).failure = some e
        ∧ (c.compile env context ancestor s).context = .error e
        ∧ (c.compile env context ancestor s).state = (c.progress env context s c.turns).state)
      ∨ (c.progress env context s c.turns).failure = none
        ∧ (c.compile env context ancestor s).context
          = .ok (c.progress env context s c.turns).context
        ∧ (c.compile env context ancestor s).state
          = (c.progress env context s c.turns).state.addRules
            (c.rulesAfter env ancestor (c.progress env context s c.turns)) := by
  have progress := c.compileKinds_parts env context s
  rcases outcome
      : compileKinds c.path { state := s.visit c.id, context := context }
        (c.parts.map fun k => ⟨k, k.compile env⟩) with ⟨p, filled⟩
  rw [outcome] at progress
  rw [compile_of_nested new pure nested, ← progress]
  simp only [compileSections, outcome]
  cases p.failure with
  | some e => exact .inl ⟨e, rfl, rfl, rfl⟩
  | none => exact .inr ⟨rfl, rfl, rfl⟩

end Container

end ClauseRules
