import ClauseRules.Proofs.Document.Independence
import ClauseRules.Proofs.Node.Normal

/-! Sections that have no ids in common are compiled as if each of them stood alone. A document of
such sections compiles if all of them do, and has the rules that they have alone and those about its
own result. Otherwise it has the problem of the first section that does not compile alone.
-/

namespace ClauseRules

variable {env : CompileEnv} {s : CompileState} {c : Container} {sections : List Container}
  {e : CompileError}

/-- The section compiles with a compiler of its own. -/
def Container.CompilesAlone (c : Container) (env : CompileEnv) : Prop :=
  ∃ out, (c.compile env none none {}).context = .ok out

/-- The first of the sections that does not compile alone has this problem. -/
def FirstFailsAlone (env : CompileEnv) (sections : List Container) (e : CompileError) : Prop :=
  ∃ before c after,
    sections = before ++ c :: after ∧ (∀ k ∈ before, k.CompilesAlone env)
    ∧ (c.compile env none none {}).context = .error e

/-! ### Sections without common ids -/

/-- A section of which nothing was met before comes to the same as alone and adds the same rules. -/
theorem Container.compile_unmet (env : CompileEnv) (unmet : ∀ id ∈ c.ids, id ∉ s.visited)
    : (c.compile env none none s).context = (c.compile env none none {}).context
      ∧ ∀ r,
        r ∈ (c.compile env none none s).state.rules
        ↔ r ∈ s.rules ∨ r ∈ (c.compile env none none {}).state.rules := by
  have frames : (c.compile env).Frames { id | id ∈ c.ids } :=
    c.compile_frames fun _ member => member
  have agree : Agree { id | id ∈ c.ids } {} s :=
    fun id member => iff_of_false SortedSet.not_mem_empty (unmet id member)
  obtain ⟨_, context, alike⟩ := frames none none {} s agree
  obtain ⟨rules, alone, here⟩ := alike.rules
  refine ⟨context, fun r => ?_⟩
  have fresh : r ∉ ({} : CompileState).rules := SortedSet.not_mem_empty
  rw [here, alone, or_iff_right fresh]

/-- Compiling a section makes no sections known but its own. -/
theorem Container.unmet_after {k : Container} {out : Option String}
    (context : (c.compile env none none s).context = .ok out)
    (unmet : ∀ id ∈ k.ids, id ∉ s.visited) (apart : ∀ id ∈ c.ids, id ∉ k.ids)
    : ∀ id ∈ k.ids, id ∉ (c.compile env none none s).state.visited := by
  obtain ⟨_, _, gain⟩ :=
    (c.compile_yields : (c.compile env).Yields env True c) none none s out context
      fun unrepeated => absurd trivial unrepeated
  intro id member known
  rcases gain.visited id known with before | own
  · exact unmet id member before
  · exact apart id own member

/-- Sections without common ids compile one after the other as they do alone, up to the first that
does not.
-/
theorem compileAll_of_apart (env : CompileEnv)
    (unmet : ∀ c ∈ sections, ∀ id ∈ c.ids, id ∉ s.visited)
    (apart : sections.Pairwise fun a b => ∀ id ∈ a.ids, id ∉ b.ids)
    : ((∀ c ∈ sections, c.CompilesAlone env)
        ∧ (∃ paths, (compileAll env s sections).2 = .ok paths)
        ∧ ∀ r,
          r ∈ (compileAll env s sections).1.rules
          ↔ r ∈ s.rules ∨ ∃ c ∈ sections, r ∈ (c.compile env none none {}).state.rules)
      ∨ ∃ e, FirstFailsAlone env sections e ∧ (compileAll env s sections).2 = .error e := by
  induction sections generalizing s with
  | nil => exact .inl ⟨List.forall_mem_nil _, ⟨[], rfl⟩, by simp [compileAll]⟩
  | cons c others ih =>
      obtain ⟨here, later⟩ := List.forall_mem_cons.mp unmet
      obtain ⟨apartHere, apartLater⟩ := List.pairwise_cons.mp apart
      obtain ⟨same, gained⟩ := c.compile_unmet env here
      cases alone : (c.compile env none none {}).context with
      | error e =>
          refine .inr ⟨e, ⟨[], c, others, rfl, List.forall_mem_nil _, alone⟩, ?_⟩
          simp only [compileAll, same.trans alone]
      | ok out =>
          have context := same.trans alone
          have unmetAfter (k : Container) (listed : k ∈ others) :=
            c.unmet_after context (later k listed) (apartHere k listed)
          rw [compileAll_cons_of_ok context]
          rcases ih unmetAfter apartLater with ⟨all, ⟨paths, run⟩, rules⟩ | ⟨e, first, run⟩
          · refine .inl ⟨List.forall_mem_cons.mpr ⟨⟨out, alone⟩, all⟩, ⟨c.path :: paths, ?_⟩, ?_⟩
            · rw [run]
              rfl
            · intro r
              simp only [rules, gained, List.exists_mem_cons_iff, or_assoc]
          · obtain ⟨before, k, after, split, compile, fails⟩ := first
            refine .inr ⟨e, ⟨c :: before, k, after, by rw [split, List.cons_append], ?_, fails⟩, ?_⟩
            · exact List.forall_mem_cons.mpr ⟨⟨out, alone⟩, compile⟩
            · rw [run]
              rfl

/-- The first failure tells that not all of the sections compile alone. -/
theorem FirstFailsAlone.not_all (first : FirstFailsAlone env sections e)
    : ¬∀ c ∈ sections, c.CompilesAlone env := by
  obtain ⟨before, c, after, rfl, _, fails⟩ := first
  intro all
  obtain ⟨out, compiles⟩ := all c (List.mem_append_right _ List.mem_cons_self)
  cases fails.symm.trans compiles

namespace Document

variable {document : Document}

/-! ### Documents -/

/-- Every section of a valid document can be repaired. -/
theorem violation?_eq_none (valid : document.violations = []) (member : c ∈ document.sections)
    : c.violation? = none := by
  obtain ⟨items, tables⟩ := List.append_eq_nil_iff.mp valid
  rw [List.flatMap_eq_nil_iff] at items tables
  rcases List.mem_append.mp member with inBody | isTable
  · obtain ⟨node, listed, same⟩ := List.mem_filterMap.mp inBody
    cases node with
    | tag t => cases same
    | container id reference kind children =>
        cases same
        have repairable : (Node.container id reference kind children).violation? = none := by
          simpa using (List.append_eq_nil_iff.mp (items _ listed)).2
        exact repairable
  · simpa using tables c isTable

/-- A valid document compiles if its sections do, and fails with their problem otherwise. -/
theorem compile_of_valid (env : CompileEnv) (valid : document.violations = [])
    : (∀ paths, (compileAll env {} document.sections).2 = .ok paths →
        ∃ rules, (document.compile env).1 = .ok rules)
      ∧ ∀ e, (compileAll env {} document.sections).2 = .error e →
        (document.compile env).1 = .error e := by
  simp only [compile, valid]
  refine ⟨fun paths run => ?_, fun e run => by rw [run]; rfl⟩
  rw [run]
  cases paths with
  | nil => exact ⟨_, rfl⟩
  | cons path others => exact ⟨_, rfl⟩

/-- A document whose sections have no ids in common compiles if and only if each section does alone.
It has exactly the rules that its sections have alone, and if there are any sections, the two about
its own result of `mem_documentRules`. If it does not compile, it has the problem of the first
section that does not compile alone.
-/
theorem compile_modular (valid : document.violations = [])
    (apart
      : document.sections.Pairwise fun a b => ∀ id ∈ a.normalTree.1.ids, id ∉ b.normalTree.1.ids)
    : ((∃ rules, (document.compile env).1 = .ok rules)
        ↔ ∀ c ∈ document.sections, c.CompilesAlone env)
      ∧ (∀ rules, (document.compile env).1 = .ok rules →
        ∀ r,
          r ∈ rules
          ↔ (∃ c ∈ document.sections, r ∈ (c.compile env none none {}).state.rules)
            ∨ document.sections ≠ []
              ∧ r ∈ documentRules document.path (document.sections.map Container.path))
      ∧ ∀ e, (document.compile env).1 = .error e → FirstFailsAlone env document.sections e := by
  have written : document.sections.Pairwise fun a b => ∀ id ∈ a.ids, id ∉ b.ids := by
    refine apart.imp_of_mem fun {a b} inFirst inSecond disjoint => ?_
    rw [a.ids_normalTree (violation?_eq_none valid inFirst),
      b.ids_normalTree (violation?_eq_none valid inSecond)] at disjoint
    exact disjoint
  have unmet : ∀ c ∈ document.sections, ∀ id ∈ c.ids, id ∉ ({} : CompileState).visited :=
    fun _ _ _ _ => SortedSet.not_mem_empty
  obtain ⟨compiles, fails⟩ := compile_of_valid env valid
  rcases compileAll_of_apart env unmet written with
    ⟨all, ⟨paths, run⟩, rules⟩ | ⟨e, first, run⟩
  · obtain ⟨found, compiled⟩ := compiles paths run
    refine ⟨iff_of_true ⟨found, compiled⟩ all, fun given succeeds r => ?_, fun e failed => ?_⟩
    · obtain ⟨_, again, same⟩ := compile_ok succeeds
      have fresh : r ∉ ({} : CompileState).rules := SortedSet.not_mem_empty
      rw [same, rules, or_iff_right fresh, compileAll_paths again, ne_eq, List.map_eq_nil_iff]
    · cases compiled.symm.trans failed
  · have failed := fails e run
    refine ⟨iff_of_false ?_ first.not_all, fun rules succeeds => ?_, fun other failure => ?_⟩
    · rintro ⟨rules, succeeds⟩
      cases failed.symm.trans succeeds
    · cases failed.symm.trans succeeds
    · cases failed.symm.trans failure
      exact first

/-- A section with a tag next to a section, which is repaired with the id of the tag. -/
def strayWidth : Container where
  id := { text := "m1" }
  reference := "/b"
  kind := .requirement
  children := [
    .tag { id := { text := "m2" }, kind := .requirement, property := "width", reference := "/b" },
    .container { text := "m3" } "/b" .requirement
      [.tag { id := { text := "m4" }, kind := .requirement, property := "height" }]]

/-- The section of a body and the cell of a table. -/
def strayDocument : Document := ⟨"GB/R/B/1", [strayWidth.toNode], [DocumentEntry.third]⟩

/-- The document compiles to what the section and the cell compile to alone, and its result. -/
theorem compile_modular_stray
    : ∃ rules,
        (strayDocument.compile DocumentEntry.openings).1 = .ok rules
        ∧ ∀ r,
          r ∈ rules
          ↔ (∃ c ∈ strayDocument.sections,
              r ∈ (c.compile DocumentEntry.openings none none {}).state.rules)
            ∨ r ∈ documentRules strayDocument.path (strayDocument.sections.map Container.path) := by
  have succeeds : (strayDocument.compile DocumentEntry.openings).1.isOk = true := by
    decide +kernel
  cases compiled : (strayDocument.compile DocumentEntry.openings).1 with
  | error e => exact absurd (compiled ▸ succeeds) nofun
  | ok rules =>
      refine ⟨rules, rfl, fun r => ?_⟩
      have nonempty : strayDocument.sections ≠ [] := by simp [sections, strayDocument]
      have same :=
        (compile_modular (by decide : strayDocument.violations = []) (by decide +kernel)).2.1 rules
          compiled r
      simpa only [nonempty, ne_eq, not_false_eq_true, true_and] using same

end Document

end ClauseRules
