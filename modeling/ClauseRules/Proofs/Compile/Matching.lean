import ClauseRules.Proofs.Compile.Turns

/-! Compilations of sections that the section around them cannot tell apart. Of the outcome for a
part, a section of sections takes over the object class and the state, and whether there is anything
left of the part. So the outcome for a section depends on the turns of its parts alone.
-/

namespace ClauseRules

variable {env : CompileEnv} {path : RulePath} {p : Progress} {sections : List Container}
  {c d : Container} {context : Option String} {ancestor : Option RulePath} {s : CompileState}

/-- Outcomes that count the same for a section around them. What is left may differ, as long as
there is something left of both or of neither.
-/
structure Compiled.Matches (a b : Compiled) : Prop where
  context : a.context = b.context
  state : a.state = b.state
  bare : a.container.bare = b.container.bare
  isEmpty : ∀ out, b.context = .ok out → a.container.isEmpty = b.container.isEmpty

theorem Compiled.Matches.refl (a : Compiled) : a.Matches a := ⟨rfl, rfl, rfl, fun _ _ => rfl⟩

/-! ### Turns -/

namespace Progress

theorem add_congr {a b : Compiled} (same : a.Matches b) : p.add a = p.add b := by
  simp only [add, same.context, same.state]
  cases context : b.context with
  | error e => rfl
  | ok out =>
      simp only [Container.kind_of_bare same.bare, same.isEmpty out context,
        Container.id_of_bare same.bare, Container.path_of_bare same.bare, Operand.ofContainer]

/-- Turns of sections whose outcomes count the same lead to the same progress. -/
theorem after_map {f : Container → Container}
    (each
      : ∀ k ∈ sections, ∀ context ancestor s,
          ((f k).compile env context ancestor s).Matches (k.compile env context ancestor s))
    : p.after env path (sections.map f) = p.after env path sections := by
  induction sections generalizing p with
  | nil => rfl
  | cons k rest ih =>
      obtain ⟨here, later⟩ := List.forall_mem_cons.mp each
      have turn : p.turn path ((f k).compile env) = p.turn path (k.compile env) := by
        simp only [Progress.turn, add_congr (here p.context (some path) p.state)]
      rw [List.map_cons, after_cons, after_cons, turn, ih later]

end Progress

/-! ### Sections of sections -/

namespace Container

/-- Nothing is left of a section of sections that compiles if none of its parts is a condition. -/
theorem isEmpty_compile_nested {out : Option String} (new : c.id ∉ s.visited)
    (pure : c.mixedContent? = none) (nested : c.hasContainers = true)
    (succeeds : (c.compile env context ancestor s).context = .ok out)
    : (c.compile env context ancestor s).container.isEmpty
      = (c.progress env context s c.turns).results.isEmpty := by
  have progress := c.compileKinds_parts env context s
  rcases outcome
      : compileKinds c.path { state := s.visit c.id, context := context }
        (c.parts.map fun k => ⟨k, k.compile env⟩) with ⟨p, filled⟩
  rw [outcome] at progress
  rw [compile_of_nested new pure nested] at succeeds ⊢
  simp only [compileSections, outcome] at succeeds ⊢
  cases failure : p.failure with
  | some e => simp [failure] at succeeds
  | none =>
      -- What the passes leave of the parts and what they record of them is counted alike.
      have derives
          : ∀ child ∈ c.parts.map fun k => (⟨k, k.compile env⟩ : Child),
              child.compile.Derives env (fun _ => True) child.container := by
        simpa using fun k _ => k.compile_derives
      obtain ⟨parts, -, left, advance, -⟩ :=
        compileKinds_derives rfl (by rw [outcome]; exact failure) derives
          (by simpa using fun k _ => k.compile_growing)
          fun _ _ _ unrepeated => absurd trivial unrepeated
      simp only [outcome] at left advance
      have alike := congrArg List.isEmpty left
      have sorted
          : (CompiledPart.operands (Kind.sort (·.kind) parts)).Perm
            (CompiledPart.operands parts) :=
        Kind.sort_perm.filter _
      rw [← progress, advance.results, List.nil_append]
      simpa [isEmpty, sorted.isEmpty_eq] using alike

theorem isEmpty_of_nested (nested : c.hasContainers = true) : c.isEmpty = false := by
  cases children : c.children with
  | nil => simp [hasContainers, containers, children] at nested
  | cons => simp [isEmpty, children]

/-- Sections of sections that differ in nothing but what they hold come to the same if the turns of
their parts do.
-/
theorem compile_matches (bare : c.bare = d.bare) (pure : c.mixedContent? = none)
    (pureOther : d.mixedContent? = none) (nested : c.hasContainers = true)
    (nestedOther : d.hasContainers = true)
    (progress : c.progress env context s c.turns = d.progress env context s d.turns)
    : (c.compile env context ancestor s).Matches (d.compile env context ancestor s) := by
  have id := id_of_bare bare
  have empty : c.isEmpty = d.isEmpty :=
    (isEmpty_of_nested nested).trans (isEmpty_of_nested nestedOther).symm
  by_cases met : d.id ∈ s.visited
  · rw [compile_of_met met, compile_of_met (id.symm ▸ met), id]
    split
    · exact ⟨rfl, rfl, bare, fun _ _ => empty⟩
    · exact ⟨rfl, rfl, bare, fun _ _ => empty⟩
  have new : c.id ∉ s.visited := id.symm ▸ met
  have left :=
    (c.compile_bare env context ancestor s).trans
      (bare.trans (d.compile_bare env context ancestor s).symm)
  have rules : c.rulesAfter env ancestor = d.rulesAfter env ancestor := by
    funext p
    simp only [rulesAfter, path_of_bare bare, kind_of_bare bare]
  -- Both stop at one problem or neither stops, because the turns of their parts come to the same.
  rcases c.compile_nested env context ancestor new pure nested with
    ⟨e, failed, fails, state⟩ | ⟨running, ok, state⟩
  · rw [progress] at failed state
    rcases d.compile_nested env context ancestor met pureOther nestedOther with
      ⟨other, failedOther, failsOther, stateOther⟩ | ⟨runningOther, _, _⟩
    · cases failed.symm.trans failedOther
      refine ⟨fails.trans failsOther.symm, state.trans stateOther.symm, left, ?_⟩
      intro out compiles
      cases failsOther.symm.trans compiles
    · cases failed.symm.trans runningOther
  · rw [progress] at running state ok
    rcases d.compile_nested env context ancestor met pureOther nestedOther with
      ⟨e, failedOther, _, _⟩ | ⟨_, okOther, stateOther⟩
    · cases failedOther.symm.trans running
    · rw [rules] at state
      refine ⟨ok.trans okOther.symm, state.trans stateOther.symm, left, fun out compiles => ?_⟩
      rw [isEmpty_compile_nested new pure nested ok,
        isEmpty_compile_nested met pureOther nestedOther okOther, progress]

end Container

end ClauseRules
