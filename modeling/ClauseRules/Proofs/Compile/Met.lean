import ClauseRules.Proofs.Compile.References

/-! What became of the sections that a successful compilation has met. Of the sections with an id
that is known in the end, one was compiled, and the others were passed over.
-/

namespace ClauseRules

/-- One of the sections with the id was compiled: it has no rules, or they are in the state. -/
def Settled (vocabulary : Vocabulary) (sections : List Container) (s : CompileState) (id : NodeId)
    : Prop :=
  ∃ k ∈ sections, k.id = id ∧ (k.Silent vocabulary ∨ Decides { r | r ∈ s.rules } k.path)

theorem Settled.mono {vocabulary : Vocabulary} {sections more : List Container}
    {s t : CompileState} {id : NodeId} (settled : Settled vocabulary sections s id)
    (subset : ∀ k ∈ sections, k ∈ more) (grows : Grows s t)
    : Settled vocabulary more t id := by
  obtain ⟨k, inside, same, outcome⟩ := settled
  exact ⟨k, subset k inside, same, outcome.imp_right fun decides => decides.mono grows.rules⟩

/-- Where a compiler succeeds, all that it has met is settled by the given sections. -/
def SectionCompiler.Settles (compile : SectionCompiler) (vocabulary : Vocabulary)
    (sections : List Container) : Prop :=
  ∀ context ancestor s out,
    (compile context ancestor s).context = .ok out →
      ∀ id ∈ (compile context ancestor s).state.visited,
        id ∈ s.visited ∨ Settled vocabulary sections (compile context ancestor s).state id

variable {env : CompileEnv} {c : Container} {p : Progress}

theorem running_of_add {compiled : Compiled} (running : (p.add compiled).failure = none)
    : p.failure = none ∧ ∃ out, compiled.context = .ok out := by
  simp only [Progress.add] at running
  cases context : compiled.context with
  | error e => simp [context] at running
  | ok out =>
      refine ⟨?_, out, rfl⟩
      simp only [context] at running
      cases application : compiled.container.kind == Kind.application <;>
        cases spent : compiled.container.isEmpty <;> simpa [application, spent] using running

/-- Unless something failed, all that was met since a state is settled. -/
def Progress.SettledSince (q : Progress) (vocabulary : Vocabulary) (sections : List Container)
    (s : CompileState) : Prop :=
  q.failure = none → ∀ id ∈ q.state.visited, id ∈ s.visited ∨ Settled vocabulary sections q.state id

theorem SectionCompiler.Settles.keeps {compile : SectionCompiler} {vocabulary : Vocabulary}
    {sections more : List Container} {path : RulePath} {s : CompileState}
    (settles : compile.Settles vocabulary sections) (growing : compile.Growing)
    (subset : ∀ k ∈ sections, k ∈ more)
    : compile.Keeps path (·.SettledSince vocabulary more s) := by
  intro q before running id known
  obtain ⟨runningBefore, out, context⟩ := running_of_add running
  rw [state_add] at known ⊢
  have grows := growing q.context (some path) q.state
  rcases settles _ _ _ _ context id known with old | settled
  · exact (before runningBefore id old).imp_right fun settled =>
      settled.mono (fun _ inside => inside) grows
  · exact .inr (settled.mono subset .refl)

theorem compileSections_settles (nested : c.hasContainers = true)
    (below : ∀ k ∈ c.parts, (k.compile env).Settles env.vocabulary k.sections)
    : (compileSections env c (Node.childList env c.children)).Settles env.vocabulary
        c.sections := by
  intro context ancestor s out succeeds
  have keeps
      : ∀ child ∈ Node.childList env c.children,
          child.compile.Keeps c.path (·.SettledSince env.vocabulary c.sections s) := by
    rw [Container.childList_eq nested]
    intro child member
    obtain ⟨k, listed, rfl⟩ := List.mem_map.mp member
    exact (below k listed).keeps k.compile_growing fun _ inside =>
      Container.mem_sections_of_part listed inside
  have settled :=
    compileKinds_keeps (p := { state := s, context := context }) keeps fun _ _ known => .inl known
  rcases outcome
      : compileKinds c.path { state := s, context := context } (Node.childList env c.children)
    with ⟨q, children⟩
  rw [outcome] at settled
  simp only [compileSections, outcome] at succeeds ⊢
  cases failure : q.failure with
  | some e => simp [failure] at succeeds
  | none =>
      intro id known
      exact (settled failure id known).imp_right fun settled =>
        settled.mono (fun _ inside => inside) .addRules

theorem compileSections_decides {children : List Child} {context out : Option String}
    {ancestor : Option RulePath} {s : CompileState}
    (succeeds : (compileSections env c children context ancestor s).context = .ok out)
    : Decides { r | r ∈ (compileSections env c children context ancestor s).state.rules }
        c.path := by
  rcases outcome
      : compileKinds c.path { state := s, context := context } children with ⟨q, filled⟩
  simp only [compileSections, outcome] at succeeds ⊢
  cases failure : q.failure with
  | some e => simp [failure] at succeeds
  | none =>
      have main
          : Decides
              { r | r
                ∈ (Scope.mk c.path c.kind ancestor
                  (q.context.getD env.config.fallbackObject)).mainRules q.operands }
              c.path :=
        Scope.mainRules_decides
      refine main.mono fun r member => SortedSet.mem_insertAll.mpr (.inl ?_)
      exact List.mem_append_left _ (List.mem_append_left _ member)

theorem compileLeaf_settles (flat : c.hasContainers = false) {context out : Option String}
    {ancestor : Option RulePath} {s : CompileState}
    (succeeds : (compileLeaf env c context ancestor s).context = .ok out)
    : (∀ id ∈ (compileLeaf env c context ancestor s).state.visited, id ∈ s.visited)
      ∧ (c.Silent env.vocabulary
        ∨ Decides { r | r ∈ (compileLeaf env c context ancestor s).state.rules } c.path) := by
  obtain ⟨rules, compiles, gain⟩ := compileLeaf_derives (fun _ => False) flat succeeds
  refine ⟨fun id known => (gain.visited id known).resolve_right List.not_mem_nil, ?_⟩
  rcases compiles.decides with never | ⟨silent, _⟩ | decides
  · exact never.elim
  · exact .inl silent
  · exact .inr (decides.mono fun r member => (gain.rules r).mpr (.inr member))

/-- Where the compilation of a section succeeds, all that it has met is settled. -/
theorem Container.compile_settles (c : Container)
    : (c.compile env).Settles env.vocabulary c.sections := by
  induction c using Container.inductionOnParts with
  | step c below =>
      intro context ancestor s out succeeds id known
      simp only [Container.compile, compileSection] at succeeds known ⊢
      cases seen : s.visited.contains c.id with
      | true =>
          cases rejects : env.config.rejectDuplicateNodes with
          | true => simp [seen, rejects] at succeeds
          | false =>
              simp only [seen, rejects, if_true, Bool.false_eq_true, if_false] at known
              exact .inl known
      | false =>
          have visited (id : NodeId) (known : id ∈ (s.visit c.id).visited)
              : id = c.id ∨ id ∈ s.visited :=
            SortedSet.mem_insert.mp known
          simp only [seen, Bool.false_eq_true, if_false] at succeeds known ⊢
          cases mixed : c.mixedContent? with
          | some mixed => simp [mixed] at succeeds
          | none =>
              simp only [mixed] at succeeds known ⊢
              cases nested : c.hasContainers with
              | true =>
                  simp only [nested, if_true] at succeeds known ⊢
                  -- The parts settle all that was met below. The rules added last settle the root.
                  rcases compileSections_settles nested below _ _ _ _ succeeds id known
                    with early | settled
                  · refine (visited id early).symm.imp_right fun same => ?_
                    exact ⟨c, c.mem_sections_self, same.symm,
                      .inr (compileSections_decides succeeds)⟩
                  · exact .inr settled
              | false =>
                  simp only [nested, Bool.false_eq_true, if_false] at succeeds known ⊢
                  cases tagged : c.hasTags with
                  | true =>
                      simp only [tagged, if_true] at succeeds known ⊢
                      obtain ⟨met, outcome⟩ := compileLeaf_settles nested succeeds
                      refine (visited id (met id known)).symm.imp_right fun same => ?_
                      exact ⟨c, c.mem_sections_self, same.symm, outcome⟩
                  | false =>
                      simp only [tagged, Bool.false_eq_true, if_false] at known ⊢
                      refine (visited id known).symm.imp_right fun same => ?_
                      exact ⟨c, c.mem_sections_self, same.symm,
                        .inl (silent_of_children (children_eq_nil nested tagged))⟩

end ClauseRules
