import ClauseRules.Proofs.Compile.Passes

/-! Every successful compilation of a section has a derivation. -/

namespace ClauseRules

variable {env : CompileEnv} {repeats : NodeId → Prop} {c : Container}

namespace Container

theorem children_of_flat (flat : c.hasContainers = false)
    : ∀ node ∈ c.children, ∃ t, node = .tag t := by
  intro node member
  cases node with
  | tag t => exact ⟨t, rfl⟩
  | container id reference kind children =>
      rw [hasContainers_eq_any, List.any_eq_false] at flat
      exact absurd rfl (flat _ member)

theorem flat_of_tags (tags : ∀ node ∈ c.children, ∃ t, node = .tag t)
    : c.hasContainers = false := by
  rw [hasContainers_eq_any, List.any_eq_false]
  intro node member
  obtain ⟨t, rfl⟩ := tags node member
  exact nofun

/-- Without sections, the operands are the tags. -/
theorem operands_of_flat (flat : c.hasContainers = false) : c.operands = .ofTags c.tags := by
  have each := children_of_flat flat
  simp only [operands, Operands.ofNodes, tags, Operands.ofTags, Operands.addAll]
  generalize c.children = nodes at each
  generalize ({} : Operands) = start
  induction nodes generalizing start with
  | nil => rfl
  | cons node rest ih =>
      obtain ⟨⟨t, rfl⟩, others⟩ := List.forall_mem_cons.mp each
      exact ih others _

theorem undeclared_flat {vocabulary : Vocabulary} (flat : c.hasContainers = false)
    : (c.undeclared vocabulary).hasContainers = false := by
  refine flat_of_tags fun node member => ?_
  simp only [undeclared] at member
  split at member
  · exact children_of_flat flat node ((List.eraseIdx_sublist _ _).subset member)
  · exact children_of_flat flat node member

theorem id_mem_ids : c.id ∈ c.ids := by simp [ids_eq c]

theorem children_eq_nil (flat : c.hasContainers = false) (bare : c.hasTags = false)
    : c.children = [] := by
  rw [List.eq_nil_iff_forall_not_mem]
  intro node member
  obtain ⟨t, rfl⟩ := children_of_flat flat node member
  have listed : t ∈ c.tags := List.mem_filterMap.mpr ⟨_, member, rfl⟩
  simp only [hasTags, Bool.not_eq_false', List.isEmpty_iff] at bare
  simp [bare] at listed

end Container

/-- Once its object class is chosen, a section of tags keeps the tags that do not declare it, and
gains its own rules when any are left.
-/
theorem compileLeaf_eq {context : Option String} {ancestor : Option RulePath} {s : CompileState}
    {object : String} {warnings : List Warning} (flat : c.hasContainers = false)
    (outcome
      : resolveContext env.vocabulary c.tags ((declaredObject? env.vocabulary c.children).map (·.2))
          c.id context
        = (.ok object, warnings))
    : compileLeaf env c context ancestor s
      = if (c.undeclared env.vocabulary).isEmpty then
          ⟨c.undeclared env.vocabulary, s.warn warnings, .ok (some object)⟩
        else
          ⟨c.undeclared env.vocabulary,
            ((s.warn warnings).warn
              ((c.undeclared env.vocabulary).tags.flatMap Tag.warnings)).addRules
                (c.ownRules ancestor object (c.undeclared env.vocabulary)),
            .ok (some object)⟩ := by
  have operands := (c.undeclared env.vocabulary).operands_of_flat (c.undeclared_flat flat)
  simp only [compileLeaf, outcome, Container.ownRules, operands]
  cases declared : declaredObject? env.vocabulary c.children with
  | none => simp [Container.undeclared, declared]
  | some place => simp [Container.undeclared, declared]; rfl

/-- Compiling a section of tags derives it from its object class. -/
theorem compileLeaf_derives (repeats : NodeId → Prop) {context out : Option String}
    {ancestor : Option RulePath} {s : CompileState} (flat : c.hasContainers = false)
    (succeeds : (compileLeaf env c context ancestor s).context = .ok out)
    : ∃ rules,
        Compiles env repeats ancestor context c
          ⟨(compileLeaf env c context ancestor s).container, out, rules⟩
        ∧ Gain s (compileLeaf env c context ancestor s).state [] rules := by
  rcases outcome
      : resolveContext env.vocabulary c.tags ((declaredObject? env.vocabulary c.children).map (·.2))
        c.id context with ⟨chosen, warnings⟩
  obtain ⟨object, rfl⟩ : ∃ object, chosen = .ok object := by
    cases chosen with
    | error e => simp [compileLeaf, outcome] at succeeds
    | ok object => exact ⟨object, rfl⟩
  have resolved : c.object env.vocabulary context = .ok object := by
    rw [Container.object, outcome]
  have derivation : Compiles env repeats ancestor context c _ := .tags flat resolved
  rw [compileLeaf_eq flat outcome] at succeeds ⊢
  refine ⟨if (c.undeclared env.vocabulary).isEmpty then []
    else c.ownRules ancestor object (c.undeclared env.vocabulary), ?_⟩
  cases bare : (c.undeclared env.vocabulary).isEmpty with
  | true =>
      simp only [bare, if_true, Except.ok.injEq] at succeeds ⊢
      subst succeeds
      exact ⟨by simpa [bare] using derivation, .warn⟩
  | false =>
      simp only [bare, Bool.false_eq_true, if_false, Except.ok.injEq] at succeeds ⊢
      subst succeeds
      exact ⟨by simpa [bare] using derivation, (Gain.warn.trans .warn).trans .addRules⟩

namespace CompiledPart

variable {parts : List CompiledPart}

theorem mem_operands {part : CompiledPart}
    : part ∈ operands parts ↔ part ∈ parts ∧ part.isSpent = false := by
  simp [operands]

theorem mem_transfers {path : RulePath} {object : String} {r : Rule}
    : r ∈ transfers path object parts
      ↔ ∃ part ∈ parts,
          part.isSpent = false ∧ part.context ≠ some object
          ∧ r ∈ transferRules path object part.left.id.text part.left.path := by
  simp only [transfers, List.mem_flatMap, mem_operands, beq_iff_eq, and_assoc]
  refine exists_congr fun part => and_congr_right fun _ => and_congr_right fun _ => ?_
  by_cases same : part.context = some object
  · simp [same]
  · simp [same]

theorem mem_transfers_sort {path : RulePath} {object : String} {r : Rule}
    : r ∈ transfers path object (Kind.sort (·.kind) parts) ↔ r ∈ transfers path object parts := by
  simp only [mem_transfers, Kind.mem_sort]

/-- The operands of a section are those that its parts were added as, one kind after the other. -/
theorem operands_eq (c : Container)
    : Operands.addAll (·.kind) (Operand.ofContainer ·.left) {} (operands (Kind.sort (·.kind) parts))
      = { c with children := (operands parts).map (·.left.toNode) : Container }.operands := by
  refine Operands.ext_role fun k => ?_
  have sorted
      : (operands (Kind.sort (·.kind) parts)).filter (·.kind == k)
        = (operands parts).filter (·.kind == k) := by
    simp only [operands, List.filter_filter, Bool.and_comm (_ == k)]
    rw [← List.filter_filter, Kind.filter_sort, List.filter_filter]
  simp only [Container.operands, Operands.ofNodes, Operands.role_addAll, sorted, List.filter_map,
    List.map_map]
  rfl

end CompiledPart

/-- Compiling a section of sections derives it from its parts. -/
theorem compileSections_derives {context out : Option String} {ancestor : Option RulePath}
    {s : CompileState} (nested : c.hasContainers = true)
    (below : ∀ k ∈ c.parts, (k.compile env).Derives env repeats k)
    (fresh
      : Fresh repeats s
        (compileSections env c (Node.childList env c.children) context ancestor s).state
        (c.parts.flatMap Container.ids))
    (succeeds
      : (compileSections env c (Node.childList env c.children) context ancestor s).context
        = .ok out)
    : ∃ rules,
        Compiles env repeats ancestor context c
          ⟨(compileSections env c (Node.childList env c.children) context ancestor s).container,
            out, rules⟩
        ∧ Gain s (compileSections env c (Node.childList env c.children) context ancestor s).state
          (c.parts.flatMap Container.ids) rules := by
  rw [Container.childList_eq nested] at succeeds fresh ⊢
  rcases outcome
      : compileKinds c.path { state := s, context := context }
        (c.parts.map fun k => ⟨k, k.compile env⟩) with ⟨p, children⟩
  simp only [compileSections, outcome] at succeeds fresh ⊢
  cases failure : p.failure with
  | some e => simp [failure] at succeeds
  | none =>
      simp only [failure, Except.ok.injEq] at succeeds fresh ⊢
      subst succeeds
      have fresh : Fresh repeats s p.state (c.parts.flatMap Container.ids) := fresh
      have derives
          : ∀ child ∈ c.parts.map fun k => (⟨k, k.compile env⟩ : Child),
              child.compile.Derives env repeats child.container := by
        simpa using below
      have growing
          : ∀ child ∈ c.parts.map fun k => (⟨k, k.compile env⟩ : Child),
              child.compile.Growing := by
        simpa using fun k _ => k.compile_growing
      obtain ⟨parts, origins, left, advance, each⟩ :=
        compileKinds_derives rfl (by rw [outcome]; exact failure) derives growing
          (by simpa [outcome, List.flatMap_map] using fresh)
      simp only [outcome] at left advance
      simp only [List.map_map] at origins
      have origins : parts.map (·.origin) = c.parts := by
        rw [origins]; simp [Function.comp_def]
      have children_eq
          : children.map (·.container.toNode)
            = (CompiledPart.operands parts).map (·.left.toNode) := by
        have same := congrArg (List.map Container.toNode) left
        simpa only [List.map_map, Function.comp_def] using same
      have operands := advance.operands.trans (CompiledPart.operands_eq c)
      have context_eq := advance.context
      rw [children_eq, context_eq, operands]
      generalize declared
        : (CompiledPart.contextAfter context (Kind.sort (·.kind) parts)).getD
          env.config.fallbackObject = object
      refine ⟨_, .sections nested origins advance.entered each declared rfl, ?_⟩
      refine (advance.gain.trans .addRules).of_subset ?_ ?_
      · intro id member
        simp only [List.append_nil, List.mem_flatMap, Kind.mem_sort] at member
        rw [← origins, List.flatMap_map]
        exact List.mem_flatMap.mpr member
      · intro r
        have transfers
            : ((CompiledPart.operands (Kind.sort (·.kind) parts)).flatMap fun part =>
                if part.context == some object then []
                else transferRules c.path object part.left.id.text part.left.path)
              = CompiledPart.transfers c.path object (Kind.sort (·.kind) parts) := rfl
        simp only [advance.results, List.nil_append, List.flatMap_map, transfers,
          Container.ownRules, List.mem_append, List.mem_flatMap, Kind.mem_sort,
          CompiledPart.mem_transfers_sort]
        rw [or_assoc, or_assoc, or_right_comm, or_assoc]

/-- Wherever compilation succeeds, what it does has a derivation. -/
theorem Container.compile_derives (c : Container) : (c.compile env).Derives env repeats c := by
  induction c using Container.inductionOnParts with
  | step c below =>
      intro context ancestor s out succeeds fresh
      simp only [Container.compile, compileSection] at succeeds fresh ⊢
      cases seen : s.visited.contains c.id with
      | true =>
          -- A fresh section was not met before, unless sections may repeat.
          have known : c.id ∈ s.visited := SortedSet.contains_iff.mp seen
          have growing : (c.compile env).Growing := c.compile_growing
          have met := (growing context ancestor s).visited c.id known
          have allowed : repeats c.id := Classical.byContradiction fun unrepeated =>
            (fresh c.id id_mem_ids met unrepeated).2 known
          cases rejects : env.config.rejectDuplicateNodes with
          | true => simp [seen, rejects] at succeeds
          | false =>
              simp only [seen, rejects, if_true, Bool.false_eq_true, if_false, Except.ok.injEq]
                at succeeds ⊢
              subst succeeds
              exact ⟨[], .repeated allowed,
                Gain.warn.of_subset (List.forall_mem_nil _) fun _ => Iff.rfl⟩
      | false =>
          have visit : Gain s (s.visit c.id) [c.id] [] := .visit
          simp only [seen, Bool.false_eq_true, if_false] at succeeds fresh ⊢
          cases mixed : c.mixedContent? with
          | some mixed => simp [mixed] at succeeds
          | none =>
              simp only [mixed] at succeeds fresh ⊢
              cases nested : c.hasContainers with
              | true =>
                  simp only [nested, if_true] at succeeds fresh ⊢
                  rw [ids_eq c] at fresh ⊢
                  obtain ⟨rules, compiles, gain⟩ :=
                    compileSections_derives nested below (Fresh.right fresh visit) succeeds
                  exact ⟨rules, compiles, visit.trans gain⟩
              | false =>
                  simp only [nested, Bool.false_eq_true, if_false] at succeeds ⊢
                  have visitOnly : ∀ id ∈ [c.id], id ∈ c.ids :=
                    List.forall_mem_singleton.mpr id_mem_ids
                  cases tagged : c.hasTags with
                  | true =>
                      simp only [tagged, if_true] at succeeds ⊢
                      obtain ⟨rules, compiles, gain⟩ := compileLeaf_derives repeats nested succeeds
                      refine ⟨rules, compiles, (visit.trans gain).of_subset ?_ fun _ => Iff.rfl⟩
                      simpa using visitOnly
                  | false =>
                      simp only [tagged, Bool.false_eq_true, if_false, Except.ok.injEq]
                        at succeeds ⊢
                      subst succeeds
                      exact ⟨[], .empty (children_eq_nil nested tagged),
                        visit.of_subset visitOnly fun _ => Iff.rfl⟩

/-- Wherever the compiler of a section succeeds, the outcome has a derivation, in which either every
section may repeat or none.
-/
def SectionCompiler.Yields (compile : SectionCompiler) (env : CompileEnv) (repeats : Prop)
    (c : Container) : Prop :=
  ∀ context ancestor s out,
    (compile context ancestor s).context = .ok out
      → (¬repeats → c.ids.Nodup ∧ ∀ id ∈ c.ids, id ∉ s.visited)
      → ∃ rules,
          Compiles env (fun _ => repeats) ancestor context c
            ⟨(compile context ancestor s).container, out, rules⟩
          ∧ Gain s (compile context ancestor s).state c.ids rules

theorem Container.compile_yields {repeats : Prop} (c : Container)
    : (c.compile env).Yields env repeats c := by
  intro context ancestor s out succeeds fresh
  refine c.compile_derives context ancestor s out succeeds fun id member met unrepeated => ?_
  obtain ⟨distinct, new⟩ := fresh unrepeated
  exact ⟨List.count_eq_one_of_mem distinct member, new id member⟩

end ClauseRules
