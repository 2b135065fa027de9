import ClauseRules.Proofs.Compile.Calls

/-! Compilations that fail. One of the calls that a compilation consists of then refuses its section
itself: because it was met before, because it mixes tags with sections, or because its tags have no
object class in common.
-/

namespace ClauseRules

variable {env : CompileEnv} {e : CompileError}

/-- The call refuses its section for this reason, whatever the parts of the section come to. -/
inductive Call.Fails (env : CompileEnv) (call : Call) : CompileError → Prop
  | duplicate (strict : env.config.rejectDuplicateNodes = true)
    (met : call.container.id ∈ call.state.visited)
    : Fails env call (.duplicateNode call.container.id)
  | mixed {content} (new : call.container.id ∉ call.state.visited)
    (mixed : call.container.mixedContent? = some content)
    : Fails env call (.mixedContent content)
  | unresolved {problem} (new : call.container.id ∉ call.state.visited)
    (flat : call.container.hasContainers = false)
    (unresolved : call.container.object env.vocabulary call.context = .error problem)
    : Fails env call (.resolve problem)

/-- Where something failed in the end and nothing had before, one of the turns did. -/
theorem Progress.exists_turn_of_failure {path : RulePath} {p : Progress}
    {sections : List Container} (running : p.failure = none)
    (failed : (p.after env path sections).failure = some e)
    : ∃ k q,
        Turn env path p sections k q
        ∧ (k.compile env q.context (some path) q.state).context = .error e := by
  induction sections generalizing p with
  | nil => cases running.symm.trans failed
  | cons first rest ih =>
      rw [after_cons] at failed
      have here : (p.add (first.compile env p.context (some path) p.state)).failure = _ :=
        failure_add running
      rw [← turn_of_running running] at here
      cases context : (first.compile env p.context (some path) p.state).context with
      | error problem =>
          rw [context] at here
          rw [after_of_failure here, here] at failed
          cases failed
          exact ⟨first, p, .here running, context⟩
      | ok out =>
          rw [context] at here
          obtain ⟨k, q, turn, fails⟩ := ih here failed
          exact ⟨k, q, .later turn, fails⟩

/-- A section of tags compiles if it has an object class. -/
theorem compileLeaf_context {c : Container} {context : Option String} {ancestor : Option RulePath}
    {s : CompileState}
    : (compileLeaf env c context ancestor s).context
      = match c.object env.vocabulary context with
        | .error problem => .error (.resolve problem)
        | .ok object => .ok (some object) := by
  rcases resolved
      : resolveContext env.vocabulary c.tags
        ((declaredObject? env.vocabulary c.children).map (·.2)) c.id context
    with ⟨chosen, warnings⟩
  simp only [compileLeaf, Container.object, resolved]
  cases chosen with
  | error problem => rfl
  | ok object =>
      simp only
      split
      all_goals
        split <;> rfl

namespace Call

variable {call inner : Call}

/-- A failure goes back to a call that refuses its section. -/
theorem exists_fails (failed : (call.outcome env).context = .error e)
    : ∃ inner, call.Reaches env inner ∧ inner.Fails env e := by
  obtain ⟨c, context, ancestor, s⟩ := call
  induction c using Container.inductionOnParts generalizing context ancestor s with
  | step c below =>
      rw [outcome] at failed
      by_cases met : c.id ∈ s.visited
      · rw [Container.compile_of_met met] at failed
        split at failed
        case isTrue strict =>
          cases failed
          exact ⟨_, .refl, .duplicate strict met⟩
        · cases failed
      cases c.shape with
      | mixed mixed =>
          rw [Container.compile_of_mixed met mixed] at failed
          cases failed
          exact ⟨_, .refl, .mixed met mixed⟩
      | empty none =>
          rw [Container.compile_of_empty met none] at failed
          cases failed
      | tagged flat tagged =>
          rw [Container.compile_of_tagged met flat tagged, compileLeaf_context] at failed
          cases unresolved : c.object env.vocabulary context with
          | error problem =>
              rw [unresolved] at failed
              cases failed
              exact ⟨_, .refl, .unresolved met flat unresolved⟩
          | ok object =>
              rw [unresolved] at failed
              cases failed
      | nested pure nested =>
          rcases c.compile_nested env context ancestor met pure nested with
            ⟨problem, failure, fails, _⟩ | ⟨_, ok, _⟩
          · cases fails.symm.trans failed
            obtain ⟨k, q, turn, refused⟩ := Progress.exists_turn_of_failure rfl failure
            obtain ⟨inner, reaches, fails⟩ :=
              below k (Container.mem_turns.mp turn.mem) q.context (some c.path) q.state refused
            exact ⟨inner, .head (.part met pure turn) reaches, fails⟩
          · cases ok.symm.trans failed

theorem Makes.mem_parts (makes : call.Makes env inner)
    : inner.container ∈ call.container.parts := by
  obtain ⟨_, _, turn⟩ := makes
  exact Container.mem_turns.mp turn.mem

/-- A compilation leads only to sections of its tree. -/
theorem Reaches.mem_sections (reaches : call.Reaches env inner)
    : inner.container ∈ call.container.sections := by
  induction reaches using Relation.ReflTransGen.head_induction_on with
  | refl => exact inner.container.mem_sections_self
  | head makes _ ih => exact Container.mem_sections_of_part makes.mem_parts ih

end Call

/-! ### Trees that can be repaired -/

theorem Node.violation?_of_mem {nodes : List Node} (valid : violationIn? nodes = none) {node : Node}
    (listed : node ∈ nodes)
    : node.violation? = none := by
  induction nodes with
  | nil => exact absurd listed List.not_mem_nil
  | cons first rest ih =>
      obtain ⟨here, later⟩ := Option.or_eq_none_iff.mp valid
      rcases List.mem_cons.mp listed with rfl | inRest
      · exact here
      · exact ih later inRest

namespace Container

variable {c k : Container}

/-- What a stray tag is repaired to needs no further repair. -/
theorem violation?_wrapper (t : Tag) : t.wrapper.violation? = none := rfl

theorem violation?_of_part (valid : c.violation? = none) (listed : k ∈ c.parts)
    : k.violation? = none := by
  obtain ⟨_, below⟩ := Option.or_eq_none_iff.mp valid
  simp only [parts] at listed
  split at listed
  · obtain ⟨node, child, rfl⟩ := List.mem_map.mp listed
    cases node with
    | tag t => exact violation?_wrapper t
    | container => exact Node.violation?_of_mem below child
  · exact absurd listed List.not_mem_nil

/-- Every section of a tree without a violation can be repaired, also those made by repairs. -/
theorem pure_of_valid (valid : c.violation? = none) (inside : k ∈ c.sections)
    : k.mixedContent? = none := by
  induction c using inductionOnParts with
  | step c below =>
      rw [sections_eq] at inside
      rcases List.mem_cons.mp inside with rfl | inside
      · exact (Option.or_eq_none_iff.mp valid).1
      · obtain ⟨part, listed, inside⟩ := List.mem_flatMap.mp inside
        exact below part listed (violation?_of_part valid listed) inside

theorem normal_of_pure (pure : c.mixedContent? = none) : ∃ repaired, c.normal = .ok repaired := by
  rw [normal, pure]
  exact ⟨_, rfl⟩

end Container

end ClauseRules
