import ClauseRules.Compile
import ClauseRules.Proofs.Node.Sections
import ClauseRules.Proofs.Rule.Comparison
import ClauseRules.Proofs.Sorted.Members

/-! What compiling the children of a section keeps, one child at a time. Above all it keeps what a
state has come to know: no section is forgotten and no rule is taken back, even where the
compilation fails.
-/

namespace ClauseRules

/-- Everything that a state has come to know is known to a later one. -/
structure Grows (s t : CompileState) : Prop where
  visited : ∀ id ∈ s.visited, id ∈ t.visited
  rules : ∀ r ∈ s.rules, r ∈ t.rules

namespace Grows

variable {s t u : CompileState}

theorem refl : Grows s s := ⟨fun _ known => known, fun _ member => member⟩

theorem trans (first : Grows s t) (second : Grows t u) : Grows s u where
  visited id known := second.visited id (first.visited id known)
  rules r member := second.rules r (first.rules r member)

theorem warn {warnings : List Warning} : Grows s (s.warn warnings) :=
  ⟨fun _ known => known, fun _ member => member⟩

theorem visit {id : NodeId} : Grows s (s.visit id) :=
  ⟨fun _ known => SortedSet.mem_insert.mpr (.inr known), fun _ member => member⟩

theorem addRules {rules : List Rule} : Grows s (s.addRules rules) :=
  ⟨fun _ known => known, fun _ member => SortedSet.mem_insertAll.mpr (.inr member)⟩

end Grows

variable {env : CompileEnv} {path : RulePath} {kind : Kind} {p : Progress} {children : List Child}
  {c : Container}

/-! ### Passes over the children -/

theorem compileKind_cons_of_true {child : Child}
    (compiled : (child.container.kind == kind && p.failure.isNone) = true)
    : compileKind path kind p (child :: children)
      = ((compileKind path kind (p.add (child.compile p.context (some path) p.state)) children).1,
        { child with container := (child.compile p.context (some path) p.state).container }
          :: (compileKind path kind (p.add (child.compile p.context (some path) p.state))
            children).2) := by
  simp [compileKind, compiled]

theorem compileKind_cons_of_false {child : Child}
    (skipped : (child.container.kind == kind && p.failure.isNone) = false)
    : compileKind path kind p (child :: children)
      = ((compileKind path kind p children).1, child :: (compileKind path kind p children).2) := by
  simp [compileKind, skipped]

/-- A pass changes no compiler. -/
theorem forall_compile_of_pass (P : SectionCompiler → Prop) {q : Progress} {filled : List Child}
    (run : compileKind path kind p children = (q, filled))
    (each : ∀ child ∈ children, P child.compile)
    : ∀ child ∈ filled, P child.compile := by
  induction children generalizing p q filled with
  | nil =>
      cases run
      exact List.forall_mem_nil _
  | cons first rest ih =>
      obtain ⟨here, later⟩ := List.forall_mem_cons.mp each
      cases compiled : first.container.kind == kind && p.failure.isNone with
      | true =>
          rw [compileKind_cons_of_true compiled] at run
          cases run
          exact List.forall_mem_cons.mpr ⟨here, ih rfl later⟩
      | false =>
          rw [compileKind_cons_of_false compiled] at run
          cases run
          exact List.forall_mem_cons.mpr ⟨here, ih rfl later⟩

theorem state_add (compiled : Compiled) : (p.add compiled).state = compiled.state := by
  simp only [Progress.add]
  cases compiled.context with
  | error e => rfl
  | ok found =>
      cases compiled.container.kind == Kind.application <;>
        cases compiled.container.isEmpty <;> rfl

/-- Taking over the outcome of a compiler keeps something true, wherever it is true before. -/
def SectionCompiler.Keeps (compile : SectionCompiler) (path : RulePath) (I : Progress → Prop)
    : Prop :=
  ∀ p, I p → I (p.add (compile p.context (some path) p.state))

section

variable {I : Progress → Prop}

theorem compileKind_keeps {q : Progress} {filled : List Child}
    (run : compileKind path kind p children = (q, filled))
    (step : ∀ child ∈ children, child.compile.Keeps path I) (start : I p)
    : I q := by
  induction children generalizing p q filled with
  | nil =>
      cases run
      exact start
  | cons child rest ih =>
      obtain ⟨here, later⟩ := List.forall_mem_cons.mp step
      cases compiled : child.container.kind == kind && p.failure.isNone with
      | true =>
          rw [compileKind_cons_of_true compiled] at run
          cases run
          exact ih rfl later (here p start)
      | false =>
          rw [compileKind_cons_of_false compiled] at run
          cases run
          exact ih rfl later start

/-- What every child keeps, all passes together keep. -/
theorem compileKinds_keeps (step : ∀ child ∈ children, child.compile.Keeps path I) (start : I p)
    : I (compileKinds path p children).1 := by
  rcases first : compileKind path .application p children with ⟨p1, d1⟩
  have step1 := forall_compile_of_pass (·.Keeps path I) first step
  obtain ⟨kept, isKept⟩
      : ∃ kept, (if p1.failure.isNone then d1.filter (!·.isSpent) else d1) = kept := ⟨_, rfl⟩
  have stepKept : ∀ child ∈ kept, child.compile.Keeps path I := by
    intro child member
    rw [← isKept] at member
    split at member
    · exact step1 child (List.mem_filter.mp member).1
    · exact step1 child member
  rcases second : compileKind path .selection p1 kept with ⟨p2, d2⟩
  have step2 := forall_compile_of_pass (·.Keeps path I) second stepKept
  rcases third : compileKind path .exception p2 d2 with ⟨p3, d3⟩
  have step3 := forall_compile_of_pass (·.Keeps path I) third step2
  rcases fourth : compileKind path .requirement p3 d3 with ⟨p4, d4⟩
  have start1 := compileKind_keeps first step start
  have start3 := compileKind_keeps third step2 (compileKind_keeps second stepKept start1)
  simp only [compileKinds, first, isKept, second, third, fourth]
  exact compileKind_keeps fourth step3 start3

end

namespace Node

theorem childList_eq_map (nodes : List Node) : childList env nodes = nodes.map (child env) := by
  induction nodes with
  | nil => rfl
  | cons node rest ih => simp [childList, ih]

/-- A child is compiled like a section that stands by itself. -/
theorem child_eq (node : Node) : child env node = ⟨node.part, node.part.compile env⟩ := by
  cases node with
  | tag t => rfl
  | container => rfl

end Node

namespace Container

theorem childList_eq (nested : c.hasContainers = true)
    : Node.childList env c.children = c.parts.map fun k => ⟨k, k.compile env⟩ := by
  rw [parts, if_pos nested, Node.childList_eq_map, List.map_map]
  exact List.map_congr_left fun node _ => node.child_eq

end Container

/-! ### Steps -/

/-- A relation of states to later ones that every step of a compilation satisfies. -/
structure Stepwise (R : CompileState → CompileState → Prop) : Prop where
  refl (s : CompileState) : R s s
  trans {s t u : CompileState} (first : R s t) (second : R t u) : R s u
  warn (s : CompileState) (warnings : List Warning) : R s (s.warn warnings)
  visit (s : CompileState) (id : NodeId) : R s (s.visit id)
  addRules (s : CompileState) (rules : List Rule) : R s (s.addRules rules)

/-- A compiler of a section relates the states before and after it. -/
def SectionCompiler.Moves (compile : SectionCompiler) (R : CompileState → CompileState → Prop)
    : Prop :=
  ∀ context ancestor s, R s (compile context ancestor s).state

section

variable {R : CompileState → CompileState → Prop} (steps : Stepwise R)

include steps

theorem SectionCompiler.Moves.keeps {compile : SectionCompiler} {s : CompileState}
    (moves : compile.Moves R)
    : compile.Keeps path fun q => R s q.state := by
  intro q before
  simp only [state_add]
  exact steps.trans before (moves q.context (some path) q.state)

theorem compileLeaf_moves : (compileLeaf env c).Moves R := by
  intro context ancestor s
  simp only [compileLeaf]
  split
  · exact steps.warn _ _
  · split
    all_goals
      split
      · exact steps.warn _ _
      · exact steps.trans (steps.trans (steps.warn _ _) (steps.warn _ _)) (steps.addRules _ _)

theorem compileSections_moves (moves : ∀ child ∈ children, child.compile.Moves R)
    : (compileSections env c children).Moves R := by
  intro context ancestor s
  have moved : R s (compileKinds c.path { state := s, context := context } children).1.state :=
    compileKinds_keeps (I := fun q => R s q.state)
      (fun child listed => (moves child listed).keeps steps) (steps.refl s)
  simp only [compileSections]
  split
  · exact moved
  · exact steps.trans moved (steps.addRules _ _)

/-- What every step satisfies, compiling a section does. -/
theorem Container.compile_moves (c : Container) : (c.compile env).Moves R := by
  induction c using Container.inductionOnParts with
  | step c below =>
      intro context ancestor s
      simp only [Container.compile, compileSection]
      split
      · split
        · exact steps.refl _
        · exact steps.warn _ _
      · split
        · exact steps.visit _ _
        · split
          case isTrue nested =>
            refine steps.trans (steps.visit s c.id)
              (compileSections_moves steps (fun child member => ?_) _ _ _)
            rw [childList_eq nested] at member
            obtain ⟨k, listed, rfl⟩ := List.mem_map.mp member
            exact below k listed
          · split
            · exact steps.trans (steps.visit s c.id) (compileLeaf_moves steps _ _ _)
            · exact steps.visit _ _

end

/-! ### Growth -/

/-- A compiler of a section keeps what was known before. -/
def SectionCompiler.Growing (compile : SectionCompiler) : Prop :=
  ∀ context ancestor s, Grows s (compile context ancestor s).state

theorem Grows.stepwise : Stepwise Grows where
  refl _ := .refl
  trans := .trans
  warn _ _ := .warn
  visit _ _ := .visit
  addRules _ _ := .addRules

theorem compileKind_grows {q : Progress} {filled : List Child}
    (run : compileKind path kind p children = (q, filled))
    (growing : ∀ child ∈ children, child.compile.Growing)
    : Grows p.state q.state :=
  compileKind_keeps (I := fun q => Grows p.state q.state) run
    (fun child listed => SectionCompiler.Moves.keeps Grows.stepwise (growing child listed)) .refl

theorem Container.compile_growing (c : Container) : (c.compile env).Growing :=
  c.compile_moves Grows.stepwise

end ClauseRules
