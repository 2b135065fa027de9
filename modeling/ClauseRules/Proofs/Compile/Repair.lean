import ClauseRules.Proofs.Compile.Calls
import ClauseRules.Proofs.Compile.Correctness

/-! What the repair of a section does to a tag next to sections. In a section of its own the tag is
passed by the entities that satisfy it and failed by the others, whatever part it plays. Only an
application is left as a condition of its own section: entities that do not satisfy it are then out
of the scope of that section, and pass it.
-/

namespace ClauseRules

/-- The rules that decide the section made of a tag, for entities of a class. -/
def Tag.wrapperRules (t : Tag) (object : String) : List Rule :=
  (Scope.mk t.wrapper.path t.wrapper.kind none object).mainRules (.ofTags t.wrapper.tags)

/-- The section made of a tag says of an entity what the tag itself says of it. -/
structure Facts.Mirrors {ε : Type} [Fintype ε] [DecidableEq ε] (f : Facts ε) (e : ε) (t : Tag)
    : Prop where
  pass : (e, t.wrapper.path, .pass) ∈ f.statuses ↔ f.passes e t.test = true
  fail : (e, t.wrapper.path, .fail) ∈ f.statuses ↔ f.passes e t.test = false
  holds
    : f.Holds (some e) (Operand.ofContainer t.wrapper).holds
      ↔ f.Holds (some e) (Operand.ofTag t).holds
  fails
    : f.Holds (some e) (Operand.ofContainer t.wrapper).fails
      ↔ f.Holds (some e) (Operand.ofTag t).fails

namespace Tag

variable {t : Tag} {tests : PropertyTest → Bool} {env : CompileEnv} {object : String}

/-! ### The section made of a tag -/

theorem flat_wrapper : t.wrapper.hasContainers = false := rfl

/-- The test is a condition of the section for an application only. -/
theorem applies_wrapper
    : t.wrapper.applies tests = (tests t.test || t.kind != .application) := by
  obtain ⟨id, reference, kind, property, comparator, value, unit⟩ := t
  cases kind <;> simp [Container.applies, wrapper, Node.verdicts, Node.verdict, Node.kind,
    Kind.applies, test, Tag.comparator]

/-- The test decides the verdict for everything else. -/
theorem verdict_wrapper
    : t.wrapper.verdict tests = (tests t.test || t.kind == .application) := by
  obtain ⟨id, reference, kind, property, comparator, value, unit⟩ := t
  cases kind <;> simp [Container.verdict_eq, wrapper, Node.verdicts, Node.verdict, Node.kind,
    Kind.applies, Kind.passes, test, Tag.comparator]

/-- A tag that names no object class declares none for its section either. -/
theorem undeclared_wrapper (property : env.vocabulary.isObject t.property = false)
    : t.wrapper.undeclared env.vocabulary = t.wrapper := by
  have none : declaredObject? env.vocabulary t.wrapper.children = none := by
    simp [declaredObject?, wrapper, Node.tag?, property]
  rw [Container.undeclared, none]

/-- Compiling the section by itself adds the rules that decide it. -/
theorem mem_computing_wrapper {context out : Option String}
    (property : env.vocabulary.isObject t.property = false)
    (succeeds : (t.wrapper.compile env context none {}).context = .ok out)
    : ∃ object, out = some object
        ∧ ∀ r,
          r ∈ (t.wrapper.compile env context none {}).state.rules.computing
          ↔ r ∈ t.wrapperRules object := by
  have new : t.wrapper.id ∉ ({} : CompileState).visited := SortedSet.not_mem_empty
  have left := undeclared_wrapper property
  rcases resolved
      : resolveContext env.vocabulary t.wrapper.tags
        ((declaredObject? env.vocabulary t.wrapper.children).map (·.2)) t.wrapper.id context
    with ⟨chosen, warnings⟩
  have compiled
      : t.wrapper.compile env context none {}
        = compileLeaf env t.wrapper context none (CompileState.visit {} t.wrapper.id) :=
    Container.compile_of_tagged new flat_wrapper rfl
  cases chosen with
  | error e => simp [compiled, compileLeaf, resolved] at succeeds
  | ok object =>
      rw [compileLeaf_eq flat_wrapper resolved, left] at compiled
      have filled : t.wrapper.isEmpty = false := rfl
      simp only [filled, Bool.false_eq_true, if_false] at compiled
      rw [compiled] at succeeds ⊢
      refine ⟨object, (Except.ok.inj succeeds).symm, fun r => ?_⟩
      simp only [RuleSet.computing, CompileState.addRules, CompileState.warn, CompileState.visit,
        Set.mem_ofPred_eq, SortedSet.mem_insertAll, Container.mem_ownRules, SortedSet.not_mem_empty,
        or_false, Container.operands_of_flat flat_wrapper, wrapperRules]
      constructor
      · rintro ⟨main | summary, compute⟩
        · exact main
        · cases compute.symm.trans (aggregationRules_shape summary).2.2.2.1
      · intro main
        exact ⟨.inl main, Purpose.phase_of_isStatus (Scope.mainRules_shape main).2.2.1⟩

/-! ### Runs -/

variable {ε : Type} [Fintype ε] [DecidableEq ε] {f g : Facts ε} {e : ε}

theorem governs_wrapper {ancestor : Option RulePath} {k : Container}
    (within : t.wrapper.Within none ancestor k)
    : Governs {r | r ∈ t.wrapperRules object} object ancestor k := by
  have alone : t.wrapper.containers = [] := rfl
  rcases within.of_root with ⟨rfl, rfl⟩ | ⟨nested, member, _⟩
  · have rules : t.wrapperRules object
        = (Scope.mk t.wrapper.path t.wrapper.kind none object).mainRules t.wrapper.operands := by
      rw [wrapperRules, Container.operands_of_flat flat_wrapper]
    rw [rules]
    exact ⟨fun _ member => member, fun _ member _ _ => member, by simp [Container.Distinct, alone]⟩
  · rw [alone] at member
    exact absurd member List.not_mem_nil

/-- Where no rule can add anything, an entity has the statuses for the section that its test
gives.
-/
theorem statuses_of_settled (unknown : f.statuses = ∅) (is : f.isA e object = true)
    (run : f.Run {r | r ∈ t.wrapperRules object} g)
    (settled : g.Settled {r | r ∈ t.wrapperRules object}) (s : Status)
    : (e, t.wrapper.path, s) ∈ g.statuses ↔ t.wrapper.Gives (f.passes e) s := by
  have governed (ancestor : Option RulePath) (k : Container)
      (within : t.wrapper.Within none ancestor k)
      : Governs {r | r ∈ t.wrapperRules object} object ancestor k :=
    governs_wrapper within
  have faithful := Facts.faithful_of_run (e := e) governed (by simp [unknown]) run
  have isOpen
      : (Scope.mk t.wrapper.path t.wrapper.kind none object).Open (g.truth (some e)) := by
    simp [Scope.open_iff]
  have decided := Facts.decided_of_settled governed faithful settled
    (by rw [Facts.run_isA run]; exact is) .root isOpen
  rw [← Facts.run_passes run]
  exact (faithful none _ .root).known_iff decided s

/-- As an operand, the section says what its statuses say. -/
theorem mirrors_of_statuses
    (pass : (e, t.wrapper.path, .pass) ∈ f.statuses ↔ f.passes e t.test = true)
    (fail : (e, t.wrapper.path, .fail) ∈ f.statuses ↔ f.passes e t.test = false)
    : f.Mirrors e t where
  pass := pass
  fail := fail
  holds := by
    rw [Operand.ofContainer, Operand.holds, Facts.holds_has, pass]
    exact Facts.holds_test.symm
  fails := by
    rw [Operand.ofContainer, Operand.fails, Facts.holds_has, fail, Operand.ofTag, Operand.fails,
      Facts.holds_not, Facts.holds_test, Bool.not_eq_true]
    rfl

/-- Whatever the tag requires, selects or excepts, its section says the same where no rule can add
anything.
-/
theorem mirrors_of_settled (unknown : f.statuses = ∅) (is : f.isA e object = true)
    (run : f.Run {r | r ∈ t.wrapperRules object} g)
    (settled : g.Settled {r | r ∈ t.wrapperRules object}) (kind : t.kind ≠ .application)
    : g.Mirrors e t := by
  have statuses := statuses_of_settled unknown is run settled
  have same : f.passes = g.passes := (Facts.run_passes run).symm
  have verdict : t.wrapper.verdict (g.passes e) = g.passes e t.test := by
    simp [verdict_wrapper, kind]
  refine mirrors_of_statuses ?_ ?_
  · rw [statuses, same, ← verdict]
    rfl
  · rw [statuses, same, ← verdict]
    rfl

end Tag

namespace Container

variable {c : Container} {t : Tag} {env : CompileEnv}

/-- A tag that is alone next to sections gets its section in its own place. -/
theorem normal_of_stray (nested : c.hasContainers = true) (single : c.tags = [t])
    : ∃ before after,
        c.children = before ++ .tag t :: after
        ∧ c.normal = .ok { c with children := before ++ t.wrapper.toNode :: after } := by
  have pure : c.mixedContent? = none := by
    have one : (c.children.filterMap Node.tag?).length = 1 := congrArg List.length single
    simp [mixedContent?, Node.mixedContent?, one]
  obtain ⟨before, node, after, split, first, found, last⟩ := List.filterMap_eq_cons_iff.mp single
  obtain rfl : node = .tag t := by
    cases node with
    | tag u => exact congrArg Node.tag (Option.some.inj found)
    | container => cases found
  have kept {nodes : List Node} (none : ∀ node ∈ nodes, node.tag? = none)
      : nodes.map Node.wrapped = nodes := by
    refine (List.map_congr_left fun node member => ?_).trans (List.map_id nodes)
    cases node with
    | tag u => cases none _ member
    | container => rfl
  refine ⟨before, after, split, ?_⟩
  have later : ∀ node ∈ after, node.tag? = none := List.filterMap_eq_nil_iff.mp last
  simp only [normal, pure, nested, if_true, split, List.map_append, List.map_cons, kept first,
    kept later]
  rfl

/-- Repair puts a tag that is alone next to sections into a section of its own, which compilation
decides by rules of that tag only. Where none of these can add anything, which can be reached from
everywhere, the section says of every entity what the tag says of it, if the tag is no application.
An application makes its section apply to the entities that satisfy it, and all others pass the
section too.
-/
theorem statuses_of_stray (nested : c.hasContainers = true) (single : c.tags = [t])
    (property : env.vocabulary.isObject t.property = false)
    : (∃ before after,
        c.children = before ++ .tag t :: after
        ∧ c.normal = .ok { c with children := before ++ t.wrapper.toNode :: after })
      ∧ (∀ context out, (t.wrapper.compile env context none {}).context = .ok out →
        ∃ object, out = some object
          ∧ ∀ r,
            r ∈ (t.wrapper.compile env context none {}).state.rules.computing
            ↔ r ∈ t.wrapperRules object)
      ∧ ∀ (object : String) (ε : Type) [Fintype ε] [DecidableEq ε] (f g : Facts ε) (e : ε),
        f.statuses = ∅ → f.isA e object = true → f.Run {r | r ∈ t.wrapperRules object} g →
          (g.Settled {r | r ∈ t.wrapperRules object} →
            (t.kind ≠ .application → g.Mirrors e t)
            ∧ (t.kind = .application →
              (e, t.wrapper.path, .pass) ∈ g.statuses
              ∧ (e, t.wrapper.path, .fail) ∉ g.statuses
              ∧ ((e, t.wrapper.path, .applicable) ∈ g.statuses ↔ f.passes e t.test = true)
              ∧ ((e, t.wrapper.path, .notApplicable) ∈ g.statuses ↔ f.passes e t.test = false)))
          ∧ ∃ h, g.Run {r | r ∈ t.wrapperRules object} h
              ∧ h.Settled {r | r ∈ t.wrapperRules object} := by
  refine ⟨normal_of_stray nested single, fun context out succeeds =>
    Tag.mem_computing_wrapper property succeeds, ?_⟩
  intro object ε _ _ f g e unknown is run
  refine ⟨fun settled => ⟨Tag.mirrors_of_settled unknown is run settled, fun application => ?_⟩,
    Facts.exists_settled _ g⟩
  have statuses := Tag.statuses_of_settled unknown is run settled
  have passes : t.wrapper.verdict (f.passes e) = true := by
    simp [Tag.verdict_wrapper, application]
  have applies : t.wrapper.applies (f.passes e) = f.passes e t.test := by
    simp [Tag.applies_wrapper, application]
  simp only [statuses, Gives, passes, applies, Bool.true_eq_false, not_false_eq_true, iff_self,
    and_self]

/-- A tag on the rating of doors that plays the given part. -/
def rated (kind : Kind) : Tag where
  id := { text := "v4" }
  reference := "/b"
  kind := kind
  property := "fire rated"

/-- A section in which a tag on the rating of doors stands next to a section on their width. -/
def strayRating (kind : Kind) : Container where
  id := { text := "v5" }
  reference := "/b"
  kind := .requirement
  children := [
    .tag (rated kind),
    .container { text := "v6" } "/b" .requirement
      [.tag { id := { text := "v7" }, kind := .requirement, property := "width" }]]

/-- A door without a rating fails the section made of an exception for rated doors. -/
theorem statuses_of_stray_unrated
    : ∃ f g : Facts Unit,
        (strayRating .exception).hasContainers = true
        ∧ (strayRating .exception).tags = [rated .exception]
        ∧ fireDoors.vocabulary.isObject (rated .exception).property = false
        ∧ f.statuses = ∅ ∧ f.isA () "door" = true
        ∧ f.Run {r | r ∈ (rated .exception).wrapperRules "door"} g
        ∧ g.Settled {r | r ∈ (rated .exception).wrapperRules "door"}
        ∧ g.passes () (rated .exception).test = false
        ∧ ((), (rated .exception).wrapper.path, .fail) ∈ g.statuses := by
  let unrated : Facts Unit := { isA := fun _ type => type == "door", passes := fun _ _ => false }
  obtain ⟨g, run, settled⟩ :=
    Facts.exists_settled ((rated .exception).wrapperRules "door") unrated
  have property : fireDoors.vocabulary.isObject (rated .exception).property = false := by
    decide +kernel
  obtain ⟨_, _, runs⟩ := statuses_of_stray (c := strayRating .exception) rfl rfl property
  obtain ⟨mirrors, _⟩ := (runs "door" Unit unrated g () rfl rfl run).1 settled
  have fails : g.passes () (rated .exception).test = false := by rw [Facts.run_passes run]
  exact ⟨unrated, g, rfl, rfl, property, rfl, rfl, run, settled, fails,
    (mirrors (by decide)).fail.mpr fails⟩

/-- A door without a rating passes the section made of an application to rated doors. -/
theorem unrated_passes
    : (strayRating .application).hasContainers = true
      ∧ (strayRating .application).tags = [rated .application]
      ∧ fireDoors.vocabulary.isObject (rated .application).property = false
      ∧ ((rated .application).wrapper.compile fireDoors none none {}).context = .ok (some "door")
      ∧ ∃ f g : Facts Unit,
        f.statuses = ∅ ∧ f.isA () "door" = true
        ∧ f.Run {r | r ∈ (rated .application).wrapperRules "door"} g
        ∧ g.Settled {r | r ∈ (rated .application).wrapperRules "door"}
        ∧ f.passes () (rated .application).test = false
        ∧ ((), (rated .application).wrapper.path, .pass) ∈ g.statuses
        ∧ ((), (rated .application).wrapper.path, .fail) ∉ g.statuses
        ∧ ¬g.Mirrors () (rated .application) := by
  let unrated : Facts Unit := { isA := fun _ type => type == "door", passes := fun _ _ => false }
  obtain ⟨g, run, settled⟩ :=
    Facts.exists_settled ((rated .application).wrapperRules "door") unrated
  have statuses :=
    Tag.statuses_of_settled (e := ()) (show unrated.statuses = ∅ from rfl)
      (show unrated.isA () "door" = true from rfl) run settled
  have passes : ((), (rated .application).wrapper.path, .pass) ∈ g.statuses :=
    (statuses .pass).mpr (by decide)
  have unfailed : ((), (rated .application).wrapper.path, .fail) ∉ g.statuses :=
    fun failed => absurd ((statuses .fail).mp failed) (by decide)
  have fails : g.passes () (rated .application).test = false := by rw [Facts.run_passes run]
  exact ⟨rfl, rfl, by decide +kernel, by decide +kernel, unrated, g, rfl, rfl, run, settled, rfl,
    passes, unfailed, fun mirrors => unfailed (mirrors.fail.mpr fails)⟩

end Container

end ClauseRules
