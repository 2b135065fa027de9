import ClauseRules.Proofs.Compile.Clauses

/-! The sections of a document are compiled one after the other by one compiler, which knows at each
of them what those before it have made known.
-/

namespace ClauseRules

variable {env : CompileEnv} {s : CompileState} {c : Container} {before after : List Container}
  {paths : List RulePath} {r : Rule}

theorem compileAll_cons_of_ok {out : Option String}
    (context : (c.compile env none none s).context = .ok out)
    : compileAll env s (c :: after)
      = ((compileAll env (c.compile env none none s).state after).1,
        (c.path :: ·) <$> (compileAll env (c.compile env none none s).state after).2) := by
  simp only [compileAll, context]

/-- Where sections compile, the first one does, and the others do from there. -/
theorem compileAll_cons (succeeds : (compileAll env s (c :: after)).2 = .ok paths)
    : ∃ out rest,
        (c.compile env none none s).context = .ok out
        ∧ (compileAll env (c.compile env none none s).state after).2 = .ok rest
        ∧ (compileAll env s (c :: after)).1
          = (compileAll env (c.compile env none none s).state after).1 := by
  cases context : (c.compile env none none s).context with
  | error e => simp [compileAll, context] at succeeds
  | ok out =>
      rw [compileAll_cons_of_ok context] at succeeds ⊢
      cases others : (compileAll env (c.compile env none none s).state after).2 with
      | error e => simp [others] at succeeds
      | ok rest => exact ⟨out, rest, rfl, rfl, rfl⟩

theorem compileAll_append (succeeds : (compileAll env s (before ++ after)).2 = .ok paths)
    : ∃ first rest,
        (compileAll env s before).2 = .ok first
        ∧ (compileAll env (compileAll env s before).1 after).2 = .ok rest
        ∧ (compileAll env s (before ++ after)).1
          = (compileAll env (compileAll env s before).1 after).1 := by
  induction before generalizing s paths with
  | nil => exact ⟨[], paths, rfl, succeeds, rfl⟩
  | cons c others ih =>
      rw [List.cons_append] at succeeds ⊢
      obtain ⟨out, rest, context, succeeds, moved⟩ := compileAll_cons succeeds
      obtain ⟨first, rest, run, runAfter, ends⟩ := ih succeeds
      refine ⟨c.path :: first, rest, ?_, ?_, ?_⟩
      · rw [compileAll_cons_of_ok context, run]
        rfl
      · rw [compileAll_cons_of_ok context]
        exact runAfter
      · rw [moved, ends, compileAll_cons_of_ok context]

theorem compileAll_paths {sections : List Container}
    (succeeds : (compileAll env s sections).2 = .ok paths)
    : paths = sections.map Container.path := by
  induction sections generalizing s paths with
  | nil => exact (Except.ok.inj succeeds).symm
  | cons c others ih =>
      obtain ⟨out, rest, context, run, _⟩ := compileAll_cons succeeds
      rw [compileAll_cons_of_ok context, run] at succeeds
      rw [List.map_cons, ← ih run]
      exact (Except.ok.inj succeeds).symm

/-- What every step satisfies, compiling sections one after the other does. -/
theorem compileAll_moves {R : CompileState → CompileState → Prop} (steps : Stepwise R)
    (sections : List Container)
    : R s (compileAll env s sections).1 := by
  induction sections generalizing s with
  | nil => exact steps.refl s
  | cons c others ih =>
      have here : R s (c.compile env none none s).state := c.compile_moves steps none none s
      simp only [compileAll]
      split
      · exact here
      · exact steps.trans here ih

theorem compileAll_grows (sections : List Container) : Grows s (compileAll env s sections).1 :=
  compileAll_moves Grows.stepwise sections

/-- Where sections compile, each has a derivation, and together they add what the derivations do. -/
theorem compileAll_derives {repeats : NodeId → Prop} {sections : List Container}
    (succeeds : (compileAll env s sections).2 = .ok paths)
    (fresh
      : Fresh repeats s (compileAll env s sections).1 (sections.flatMap Container.ids))
    : ∃ parts : List CompiledPart,
        parts.map (·.origin) = sections
        ∧ (∀ part ∈ parts, Compiles env repeats none none part.origin part.toYield)
        ∧ Gain s (compileAll env s sections).1 (sections.flatMap Container.ids)
          (parts.flatMap (·.rules)) := by
  induction sections generalizing s paths with
  | nil => exact ⟨[], rfl, List.forall_mem_nil _, .refl⟩
  | cons c others ih =>
      obtain ⟨out, rest, context, succeeds, moved⟩ := compileAll_cons succeeds
      rw [List.flatMap_cons, moved] at fresh
      rw [List.flatMap_cons]
      obtain ⟨rules, compiles, gain⟩ :=
        c.compile_derives none none s out context (fresh.left (compileAll_grows others))
      obtain ⟨parts, origins, below, gains⟩ := ih succeeds (fresh.right gain)
      let part : CompiledPart :=
        { left := (c.compile env none none s).container
          context := out
          rules := rules
          origin := c
          entered := none }
      rw [moved]
      refine ⟨part :: parts, by rw [List.map_cons, origins], ?_, ?_⟩
      · exact List.forall_mem_cons.mpr ⟨compiles, below⟩
      · exact gain.trans gains

/-- Sections add only rules about their own clauses, and make only their own ids known. -/
theorem compileAll_gain {sections : List Container}
    (succeeds : (compileAll env s sections).2 = .ok paths)
    : ∃ rules,
        Gain s (compileAll env s sections).1 (sections.flatMap Container.ids) rules
        ∧ ∀ r ∈ rules, ∃ c ∈ sections, r.clause ∈ c.paths := by
  obtain ⟨parts, origins, below, gain⟩ :=
    compileAll_derives succeeds fun _ _ _ unrepeated => absurd trivial unrepeated
  refine ⟨_, gain, fun r member => ?_⟩
  obtain ⟨part, listed, member⟩ := List.mem_flatMap.mp member
  refine ⟨part.origin, ?_, ((below part listed).makes member).clause_mem⟩
  rw [← origins]
  exact List.mem_map_of_mem listed

theorem documentRules_clause {document : RulePath} (member : r ∈ documentRules document paths)
    : r.clause = document := by
  rcases mem_documentRules.mp member with rfl | rfl
  all_goals rfl

theorem documentRules_shape {document : RulePath} (member : r ∈ documentRules document paths)
    : r.entityType = none ∧ r.purpose.phase = .summary := by
  rcases mem_documentRules.mp member with rfl | rfl
  all_goals exact ⟨rfl, rfl⟩

namespace Document

variable {document : Document} {rules : RuleSet}

/-- A document that compiles has the rules of its sections, to which those about its own result are
added if it has any sections.
-/
theorem compile_eq (succeeds : (document.compile env).1 = .ok rules)
    : ∃ paths,
        (compileAll env {} document.sections).2 = .ok paths
        ∧ rules
          = (compileAll env {} document.sections).1.rules.insertAll
            (if paths = [] then [] else documentRules document.path paths) := by
  simp only [compile] at succeeds
  cases violations : document.violations with
  | cons e rest => simp [violations] at succeeds
  | nil =>
      simp only [violations] at succeeds
      cases compiled : (compileAll env {} document.sections).2 with
      | error e => simp [compiled, bind, Except.bind] at succeeds
      | ok paths =>
          simp only [compiled, bind, Except.bind, pure, Except.pure] at succeeds
          refine ⟨paths, rfl, ?_⟩
          cases paths with
          | nil => exact (Except.ok.inj succeeds).symm
          | cons path others => exact (Except.ok.inj succeeds).symm

/-- The rules of a document are those of its sections and those about its own result. -/
theorem compile_ok (succeeds : (document.compile env).1 = .ok rules)
    : ∃ paths,
        (compileAll env {} document.sections).2 = .ok paths
        ∧ ∀ r,
          r ∈ rules
          ↔ r ∈ (compileAll env {} document.sections).1.rules
            ∨ paths ≠ [] ∧ r ∈ documentRules document.path paths := by
  obtain ⟨paths, run, rfl⟩ := compile_eq succeeds
  refine ⟨paths, run, fun r => ?_⟩
  rw [SortedSet.mem_insertAll, or_comm]
  by_cases none : paths = []
  · simp [none]
  · simp [none]

/-- Every rule of a document comes from the derivation of a section at its top, or is about its own
result.
-/
theorem derivation_of_compile (succeeds : (document.compile env).1 = .ok rules) (member : r ∈ rules)
    : (∃ c ∈ document.sections, ∃ y,
        Compiles env (fun _ => True) none none c y ∧ r ∈ y.rules)
      ∨ r ∈ documentRules document.path (document.sections.map Container.path) := by
  obtain ⟨paths, run, same⟩ := compile_ok succeeds
  obtain ⟨parts, origins, below, gain⟩ :=
    compileAll_derives run fun _ _ _ unrepeated => absurd trivial unrepeated
  rcases (same r).mp member with inSections | ⟨_, own⟩
  · have added := ((gain.rules r).mp inSections).resolve_left SortedSet.not_mem_empty
    obtain ⟨part, listed, inPart⟩ := List.mem_flatMap.mp added
    exact .inl ⟨part.origin, origins ▸ List.mem_map_of_mem listed, _, below part listed, inPart⟩
  · exact .inr (compileAll_paths run ▸ own)

end Document

end ClauseRules
