import ClauseRules.Proofs.Compile.Met
import ClauseRules.Proofs.Compile.Turns

/-! Ids that are met twice. A compiler that refuses them meets every section of a tree once or fails
for that reason. Where it does not fail for that reason, a compiler that passes them over comes
to the same.
-/

namespace ClauseRules

/-- Sections with these ids are met once and for the first time from here. -/
structure Unmet (s : CompileState) (ids : List NodeId) : Prop where
  distinct : ids.Nodup
  new : ∀ id ∈ ids, id ∉ s.visited

namespace Unmet

variable {s t : CompileState} {ids more : List NodeId} {id : NodeId}

theorem cons_iff : Unmet s (id :: ids) ↔ id ∉ s.visited ∧ Unmet (s.visit id) ids := by
  constructor
  · intro unmet
    obtain ⟨apart, distinct⟩ := List.nodup_cons.mp unmet.distinct
    obtain ⟨here, later⟩ := List.forall_mem_cons.mp unmet.new
    refine ⟨here, distinct, fun other member known => ?_⟩
    rcases SortedSet.mem_insert.mp known with same | before
    · exact apart (same ▸ member)
    · exact later other member before
  · intro ⟨here, unmet⟩
    refine ⟨List.nodup_cons.mpr ⟨fun member => ?_, unmet.distinct⟩,
      List.forall_mem_cons.mpr ⟨here, fun other member known => ?_⟩⟩
    · exact unmet.new id member (SortedSet.mem_insert.mpr (.inl rfl))
    · exact unmet.new other member (SortedSet.mem_insert.mpr (.inr known))

theorem left (unmet : Unmet s (ids ++ more)) : Unmet s ids where
  distinct := (List.nodup_append.mp unmet.distinct).1
  new id member := unmet.new id (List.mem_append_left more member)

/-- What has met only the first sections has not met the others. -/
theorem right (unmet : Unmet s (ids ++ more))
    (only : ∀ id ∈ t.visited, id ∈ s.visited ∨ id ∈ ids)
    : Unmet t more := by
  obtain ⟨_, distinct, apart⟩ := List.nodup_append.mp unmet.distinct
  refine ⟨distinct, fun id member known => ?_⟩
  rcases only id known with before | first
  · exact unmet.new id (List.mem_append_right ids member) before
  · exact apart id first id member rfl

/-- Sections that are unmet after the first ones were met differ from those. -/
theorem append (first : Unmet s ids) (second : Unmet t more) (grows : Grows s t)
    (met : ∀ id ∈ ids, id ∈ t.visited)
    : Unmet s (ids ++ more) where
  distinct := by
    refine List.nodup_append.mpr ⟨first.distinct, second.distinct, ?_⟩
    rintro id member _ also rfl
    exact second.new id also (met id member)
  new id member := by
    rcases List.mem_append.mp member with here | there
    · exact first.new id here
    · exact fun known => second.new id there (grows.visited id known)

theorem perm (unmet : Unmet s ids) (same : ids.Perm more) : Unmet s more where
  distinct := same.nodup_iff.mp unmet.distinct
  new id member := unmet.new id (same.mem_iff.mpr member)

end Unmet

variable {env : CompileEnv} {path : RulePath} {p : Progress} {c : Container}
  {sections : List Container}

/-! ### What is met -/

/-- The compiler makes no sections known but those with these ids, whether it succeeds or not. -/
def SectionCompiler.MeetsOnly (compile : SectionCompiler) (ids : List NodeId) : Prop :=
  ∀ context ancestor s,
    ∀ id ∈ (compile context ancestor s).state.visited, id ∈ s.visited ∨ id ∈ ids

theorem compileLeaf_visited {context : Option String} {ancestor : Option RulePath}
    {s : CompileState}
    : (compileLeaf env c context ancestor s).state.visited = s.visited := by
  simp only [compileLeaf]
  split
  · rfl
  · split
    all_goals
      split <;> rfl

namespace Progress

theorem failure_add {compiled : Compiled} (running : p.failure = none)
    : (p.add compiled).failure
      = match compiled.context with
        | .ok _ => none
        | .error e => some e := by
  simp only [add]
  cases compiled.context with
  | error e => rfl
  | ok found =>
      cases compiled.container.kind == Kind.application <;>
        cases compiled.container.isEmpty <;> exact running

theorem state_turn {compile : SectionCompiler} (running : p.failure = none)
    : (p.turn path compile).state = (compile p.context (some path) p.state).state := by
  rw [turn_of_running running, state_add]

/-- A turn that does not fail is one of a compiler that succeeds. -/
theorem ok_of_turn {compile : SectionCompiler} (running : (p.turn path compile).failure = none)
    : p.failure = none ∧ ∃ out, (compile p.context (some path) p.state).context = .ok out := by
  cases failed : p.failure with
  | some e =>
      rw [turn_of_failure failed, failed] at running
      cases running
  | none =>
      rw [turn_of_running failed] at running
      exact ⟨rfl, (running_of_add running).2⟩

theorem grows_turn {compile : SectionCompiler} (growing : compile.Growing)
    : Grows p.state (p.turn path compile).state := by
  cases failed : p.failure with
  | some e => rw [turn_of_failure failed]; exact .refl
  | none =>
      rw [state_turn failed]
      exact growing p.context (some path) p.state

theorem grows_after : Grows p.state (p.after env path sections).state := by
  induction sections generalizing p with
  | nil => exact .refl
  | cons k rest ih => exact (grows_turn k.compile_growing).trans ih

theorem visited_turn {compile : SectionCompiler} {ids : List NodeId}
    (meets : compile.MeetsOnly ids)
    : ∀ id ∈ (p.turn path compile).state.visited, id ∈ p.state.visited ∨ id ∈ ids := by
  cases failed : p.failure with
  | some e =>
      rw [turn_of_failure failed]
      exact fun id known => .inl known
  | none =>
      rw [state_turn failed]
      exact meets p.context (some path) p.state

/-- Turns make no more known than the compilers do whose turns they are. -/
theorem visited_after (each : ∀ k ∈ sections, (k.compile env).MeetsOnly k.ids)
    : ∀ id ∈ (p.after env path sections).state.visited,
        id ∈ p.state.visited ∨ id ∈ sections.flatMap Container.ids := by
  induction sections generalizing p with
  | nil => exact fun id known => .inl known
  | cons k rest ih =>
      obtain ⟨here, later⟩ := List.forall_mem_cons.mp each
      intro id known
      rw [after_cons] at known
      rw [List.flatMap_cons, List.mem_append]
      rcases ih later id known with before | listed
      · exact (visited_turn here id before).imp_right .inl
      · exact .inr (.inr listed)

end Progress

namespace Container

theorem turns_ids_perm (c : Container)
    : (c.turns.flatMap Container.ids).Perm (c.parts.flatMap Container.ids) :=
  Kind.sort_perm.flatMap_right _

theorem compile_meetsOnly (env : CompileEnv) (c : Container) : (c.compile env).MeetsOnly c.ids := by
  induction c using Container.inductionOnParts with
  | step c below =>
      intro context ancestor s id known
      by_cases met : c.id ∈ s.visited
      · rw [compile_of_met met] at known
        cases reject : env.config.rejectDuplicateNodes <;> simp only [reject] at known <;>
          exact .inl known
      have visit (known : id ∈ (s.visit c.id).visited) : id ∈ s.visited ∨ id ∈ c.ids := by
        rcases SortedSet.mem_insert.mp known with rfl | before
        · exact .inr id_mem_ids
        · exact .inl before
      cases c.shape with
      | mixed mixed =>
          rw [compile_of_mixed met mixed] at known
          exact visit known
      | tagged flat tagged =>
          rw [compile_of_tagged met flat tagged, compileLeaf_visited] at known
          exact visit known
      | empty none =>
          rw [compile_of_empty met none] at known
          exact visit known
      | nested pure nested =>
          have state : id ∈ (c.progress env context s c.turns).state.visited := by
            rcases c.compile_nested env context ancestor met pure nested with
              ⟨_, _, _, same⟩ | ⟨_, _, same⟩
            · rwa [same] at known
            · rwa [same] at known
          rcases Progress.visited_after (fun k listed => below k (mem_turns.mp listed)) id state
            with before | inside
          · exact visit before
          · rw [ids_eq c]
            exact .inr (List.mem_cons_of_mem _ (c.turns_ids_perm.mem_iff.mp inside))

end Container

/-! ### Compilers that refuse duplicates -/

/-- Where the compiler succeeds, it has met sections with these ids for the first time. -/
def SectionCompiler.MeetsOnce (compile : SectionCompiler) (ids : List NodeId) : Prop :=
  ∀ context ancestor s out,
    (compile context ancestor s).context = .ok out
      → Unmet s ids ∧ ∀ id ∈ ids, id ∈ (compile context ancestor s).state.visited

theorem Progress.meetsOnce_after (each : ∀ k ∈ sections, (k.compile env).MeetsOnce k.ids)
    (running : (p.after env path sections).failure = none)
    : Unmet p.state (sections.flatMap Container.ids)
      ∧ ∀ id ∈ sections.flatMap Container.ids,
          id ∈ (p.after env path sections).state.visited := by
  induction sections generalizing p with
  | nil => exact ⟨⟨List.nodup_nil, List.forall_mem_nil _⟩, List.forall_mem_nil _⟩
  | cons k rest ih =>
      obtain ⟨here, later⟩ := List.forall_mem_cons.mp each
      rw [after_cons] at running ⊢
      obtain ⟨start, out, context⟩ := ok_of_turn (running_of_after running)
      obtain ⟨unmet, met⟩ := here _ _ _ _ context
      rw [← state_turn start] at met
      obtain ⟨unmetRest, metRest⟩ := ih later running
      rw [List.flatMap_cons]
      refine ⟨unmet.append unmetRest (grows_turn k.compile_growing) met, ?_⟩
      intro id member
      rcases List.mem_append.mp member with first | second
      · exact grows_after.visited id (met id first)
      · exact metRest id second

/-- A compiler that refuses duplicates and succeeds has met every section of the tree, each once. -/
theorem Container.compile_meetsOnce (strict : env.config.rejectDuplicateNodes = true)
    (c : Container)
    : (c.compile env).MeetsOnce c.ids := by
  induction c using Container.inductionOnParts with
  | step c below =>
      intro context ancestor s out succeeds
      by_cases met : c.id ∈ s.visited
      · simp [compile_of_met met, strict] at succeeds
      have known : c.id ∈ (s.visit c.id).visited := SortedSet.mem_insert.mpr (.inl rfl)
      -- A section without parts is met when it is visited.
      have alone (flat : c.hasContainers = false) : Unmet s c.ids ∧ c.ids = [c.id] := by
        have ids : c.ids = [c.id] := by simp [ids_eq c, parts, flat]
        rw [ids]
        exact ⟨Unmet.cons_iff.mpr ⟨met, List.nodup_nil, List.forall_mem_nil _⟩, rfl⟩
      cases c.shape with
      | mixed mixed => simp [compile_of_mixed met mixed] at succeeds
      | tagged flat tagged =>
          obtain ⟨unmet, ids⟩ := alone flat
          rw [compile_of_tagged met flat tagged, compileLeaf_visited, ids]
          exact ⟨ids ▸ unmet, List.forall_mem_singleton.mpr known⟩
      | empty none =>
          obtain ⟨unmet, ids⟩ := alone (by simp [hasContainers, containers, none])
          rw [compile_of_empty met none, ids]
          exact ⟨ids ▸ unmet, List.forall_mem_singleton.mpr known⟩
      | nested pure nested =>
          rcases c.compile_nested env context ancestor met pure nested with
            ⟨_, _, fails, _⟩ | ⟨running, _, state⟩
          · cases fails.symm.trans succeeds
          obtain ⟨unmet, all⟩ :=
            Progress.meetsOnce_after (fun k listed => below k (mem_turns.mp listed)) running
          rw [ids_eq c]
          refine ⟨Unmet.cons_iff.mpr ⟨met, unmet.perm c.turns_ids_perm⟩, ?_⟩
          rw [state]
          refine List.forall_mem_cons.mpr ⟨Progress.grows_after.visited _ known, ?_⟩
          exact fun id inside => all id (c.turns_ids_perm.mem_iff.mpr inside)

/-- Where sections are met for the first time, the compiler does not refuse any. -/
def SectionCompiler.Accepts (compile : SectionCompiler) (ids : List NodeId) : Prop :=
  ∀ context ancestor s,
    Unmet s ids → ∀ id, (compile context ancestor s).context ≠ .error (.duplicateNode id)

theorem Progress.accepts_after (each : ∀ k ∈ sections, (k.compile env).Accepts k.ids)
    (unmet : Unmet p.state (sections.flatMap Container.ids))
    (accepted : ∀ id, p.failure ≠ some (.duplicateNode id))
    : ∀ id, (p.after env path sections).failure ≠ some (.duplicateNode id) := by
  induction sections generalizing p with
  | nil => exact accepted
  | cons k rest ih =>
      obtain ⟨here, later⟩ := List.forall_mem_cons.mp each
      rw [List.flatMap_cons] at unmet
      cases failed : p.failure with
      | some e =>
          rw [after_of_failure failed]
          exact accepted
      | none =>
          rw [after_cons]
          have meets := k.compile_meetsOnly env
          refine ih later (unmet.right (visited_turn meets)) fun id refused => ?_
          -- Only the compiler whose turn it is could have refused.
          rw [turn_of_running failed, failure_add failed] at refused
          have accepts := here p.context (some path) p.state unmet.left id
          split at refused
          · cases refused
          case h_2 e context =>
            cases refused
            exact accepts context

theorem Container.compile_accepts (env : CompileEnv) (c : Container)
    : (c.compile env).Accepts c.ids := by
  induction c using Container.inductionOnParts with
  | step c below =>
      intro context ancestor s unmet id refused
      rw [ids_eq c] at unmet
      obtain ⟨new, unmet⟩ := Unmet.cons_iff.mp unmet
      cases c.shape with
      | mixed mixed => simp [compile_of_mixed new mixed] at refused
      | empty none => simp [compile_of_empty new none] at refused
      | tagged flat tagged =>
          rw [compile_of_tagged new flat tagged] at refused
          simp only [compileLeaf] at refused
          split at refused
          · cases refused
          · split at refused
            all_goals
              split at refused <;> cases refused
      | nested pure nested =>
          have accepts
              : ∀ id, (c.progress env context s c.turns).failure ≠ some (.duplicateNode id) :=
            Progress.accepts_after (fun k listed => below k (mem_turns.mp listed))
              (unmet.perm c.turns_ids_perm.symm) fun id => (Option.some_ne_none _).symm
          rcases c.compile_nested env context ancestor new pure nested with
            ⟨e, failure, fails, _⟩ | ⟨_, ok, _⟩
          · cases fails.symm.trans refused
            exact accepts id failure
          · cases ok.symm.trans refused

end ClauseRules
