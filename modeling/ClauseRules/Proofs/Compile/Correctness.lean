import ClauseRules.Proofs.Compile.Clauses
import ClauseRules.Proofs.Firing.Governed
import ClauseRules.Proofs.Firing.Settling

/-! Compilation is correct for documents about one object class. The rules of a tree govern what is
left of it, so that every order of firing comes to the verdict that the tree gives.
-/

namespace ClauseRules

/-- Some rule sets statuses of a clause. -/
def Speaks (rules : Set Rule) (path : RulePath) : Prop :=
  ∃ r ∈ rules, ∃ statuses, r.effect = .setStatus path statuses

namespace Container

theorem Within.of_root {root k : Container} {outer ancestor : Option RulePath}
    (within : root.Within outer ancestor k)
    : ancestor = outer ∧ k = root
      ∨ ∃ c ∈ root.containers, c.Within (some root.path) ancestor k := by
  induction within with
  | root => exact .inl ⟨rfl, rfl⟩
  | part _ member ih =>
      rcases ih with ⟨_, rfl⟩ | ⟨c, listed, within⟩
      · exact .inr ⟨_, member, .root⟩
      · exact .inr ⟨c, listed, within.part member⟩

end Container

namespace Compiles

variable {env : CompileEnv} {ancestor : Option RulePath} {context : Option String}
  {c left : Container} {y : Yield} {rules : Set Rule} {object : String}

/-- The rules of a section govern what is left of it. -/
theorem governs_of_own (entityType : String) (same : left.bare = c.bare) (distinct : left.Distinct)
    (emits
      : ∀ r ∈ (Scope.mk c.path c.kind ancestor entityType).mainRules left.operands,
          r ∈ rules ∧ r.entityType = some object)
    (only
      : ∀ r ∈ rules, ∀ statuses, r.effect = .setStatus c.path statuses →
          r ∈ (Scope.mk c.path c.kind ancestor entityType).mainRules left.operands)
    : Governs rules object ancestor left := by
  have path : left.path = c.path := Container.path_of_bare same
  have kind : left.kind = c.kind := Container.kind_of_bare same
  -- Every section has a rule that it applies, and with it an entity type.
  have applicable := Scope.mem_mainRules.mpr
    (.inr (.inl (Eq.refl ((Scope.mk c.path c.kind ancestor entityType).statusRule .applicable
      ([.lacks c.path .applicable, .lacks c.path .notApplicable]
        ++ left.operands.applicabilityTerms) [.applicable]))))
  obtain rfl : entityType = object :=
    Option.some.inj ((Scope.mainRules_shape applicable).2.1.symm.trans (emits _ applicable).2)
  refine ⟨?_, ?_, distinct⟩
  · rw [path, kind]
    exact fun r member => (emits r member).1
  · rw [path, kind]
    exact only

/-- Where the paths of a tree differ, so do those of the sections that are left. -/
theorem distinct_left {repeats : NodeId → Prop} {parts : List CompiledPart}
    (rest : { c with children := (CompiledPart.operands parts).map (·.left.toNode) } = left)
    (origins : parts.map (·.origin) = c.parts) (distinct : c.paths.Nodup)
    (below
      : ∀ part ∈ parts,
          Compiles env repeats (some c.path) part.entered part.origin part.toYield)
    : left.Distinct := by
  intro a inFirst b inSecond same
  rw [containers_left rest] at inFirst inSecond
  obtain ⟨first, isOperand, rfl⟩ := List.mem_map.mp inFirst
  obtain ⟨second, isOperandToo, rfl⟩ := List.mem_map.mp inSecond
  have listed := (CompiledPart.mem_operands.mp isOperand).1
  have also := (CompiledPart.mem_operands.mp isOperandToo).1
  rw [(below first listed).path_eq, (below second also).path_eq] at same
  have shared : first.origin.path ∈ second.origin.paths := by
    rw [same]
    exact second.origin.path_mem_paths
  rw [part_eq origins distinct listed also first.origin.path_mem_paths shared]

/-- Rules that include those of a tree, and set no statuses of it but by them, govern all that is
left of the tree. Spent applications are not left; every other section has rules if it was asked
for any.
-/
theorem governs_left (compiles : Compiles env (fun _ => False) ancestor context c y)
    (distinct : c.paths.Nodup)
    (emits
      : ∀ r ∈ y.rules, r.purpose.isStatus = true → r ∈ rules ∧ r.entityType = some object)
    (only
      : ∀ r ∈ rules, ∀ path ∈ c.paths, ∀ statuses, r.effect = .setStatus path statuses →
          r ∈ y.rules ∧ r.purpose.isTransfer = false)
    (speaks : y.left.isEmpty = false ∨ Speaks rules c.path)
    (others : ∀ k ∈ c.sections, k.kind ≠ .application → Speaks rules k.path)
    : ∀ around k, y.left.Within ancestor around k → Governs rules object around k := by
  induction compiles with
  | repeated allowed => exact allowed.elim
  | @empty ancestor context c none =>
      -- An empty section has no rules, although it is asked for one.
      have silent : ¬Speaks rules c.path := by
        rintro ⟨r, member, statuses, effect⟩
        exact absurd (only r member _ c.path_mem_paths statuses effect).1 List.not_mem_nil
      simp [silent, Container.isEmpty, none] at speaks
  | @tags ancestor context c entityType flat resolved =>
      have derivation : Compiles env (fun _ => False) ancestor context c _ := .tags flat resolved
      have flatLeft : (c.undeclared env.vocabulary).hasContainers = false := c.undeclared_flat flat
      have alone := Container.containers_of_flat flatLeft
      cases empty : (c.undeclared env.vocabulary).isEmpty with
      | true =>
          have silent : ¬Speaks rules c.path := by
            rintro ⟨r, member, statuses, effect⟩
            have inNone := (only r member _ c.path_mem_paths statuses effect).1
            simp [empty] at inNone
          simp [silent, empty] at speaks
      | false =>
          simp only [empty, Bool.false_eq_true, if_false] at emits only
          intro around k within
          rcases within.of_root with ⟨rfl, rfl⟩ | ⟨nested, member, _⟩
          · have distinct : (c.undeclared env.vocabulary).Distinct := by
              simp [Container.Distinct, alone]
            refine governs_of_own entityType derivation.bare distinct ?_ ?_
            · intro r member
              exact emits r (Container.mem_ownRules.mpr (.inl member))
                (Scope.mainRules_shape member).2.2.1
            · intro r member statuses effect
              have own := (only r member _ c.path_mem_paths statuses effect).1
              exact Container.main_of_ownRules own effect
          · rw [alone] at member
            exact absurd member List.not_mem_nil
  | @sections ancestor context c entityType left parts nested origins entered below resolved rest
      ih =>
      have derivation : Compiles env (fun _ => False) ancestor context c _ :=
        .sections nested origins entered below resolved rest
      intro around k within
      rcases within.of_root with ⟨rfl, rfl⟩ | ⟨inner, member, within⟩
      · refine governs_of_own entityType derivation.bare
          (distinct_left rest origins distinct below) ?_ ?_
        · intro r member
          refine emits r ?_ (Scope.mainRules_shape member).2.2.1
          exact List.mem_append_left _
            (List.mem_append_right _ (Container.mem_ownRules.mpr (.inl member)))
        · intro r member statuses effect
          exact main_of_target origins distinct below
            (only r member _ c.path_mem_paths statuses effect).1 effect
      · rw [containers_left rest] at member
        obtain ⟨part, listed, rfl⟩ := List.mem_map.mp member
        obtain ⟨listed, unspent⟩ := CompiledPart.mem_operands.mp listed
        have path : left.path = c.path := Container.path_of_bare derivation.bare
        rw [path] at within
        have inside (path : RulePath) (member : path ∈ part.origin.paths) : path ∈ c.paths := by
          rw [paths_eq_of_origins origins]
          exact List.mem_cons_of_mem _ (List.mem_flatMap.mpr ⟨part, listed, member⟩)
        have sectionsOf (k : Container) (member : k ∈ part.origin.sections) : k ∈ c.sections :=
          Container.mem_sections_of_part (origins ▸ List.mem_map_of_mem listed) member
        -- The hypotheses for a part follow from those for the whole, as the paths differ.
        refine ih part listed (distinct_part origins distinct listed) ?_ ?_ ?_ ?_ around k within
        · intro r member
          exact emits r (List.mem_append_left _
            (List.mem_append_left _ (List.mem_flatMap.mpr ⟨part, listed, member⟩)))
        · intro r member path listedPath statuses effect
          obtain ⟨emitted, direct⟩ := only r member path (inside path listedPath) statuses effect
          refine ⟨?_, direct⟩
          rcases part_of_target origins distinct below emitted listed listedPath effect with
            own | ⟨_, _, transfer⟩
          · exact own
          · exact absurd ((transferRules_shape transfer).2.2.2.1.symm.trans direct)
              Bool.true_eq_false.mp
        · by_cases application : part.origin.kind = .application
          · left
            have kind := (below part listed).kind_eq
            simpa [CompiledPart.isSpent, CompiledPart.kind, kind, application] using unspent
          · exact .inr (others _ (sectionsOf _ part.origin.mem_sections_self) application)
        · exact fun k member => others k (sectionsOf k member)

end Compiles

/-- The rules of a tree are about one object class, and speak about all of its sections but
applications.
-/
structure RuleSet.OneClass (rules : RuleSet) (c : Container) (object : String) : Prop where
  typed : ∀ r ∈ rules, r.purpose.isStatus = true → r.entityType = some object
  direct : ∀ r ∈ rules, r.purpose.isTransfer = false
  root : ∃ r ∈ rules, r.clause = c.path ∧ r.purpose.isStatus = true
  sections
    : ∀ k ∈ c.sections, k.kind ≠ .application →
        ∃ r ∈ rules, r.clause = k.path ∧ r.purpose.isStatus = true

namespace Container

variable {ε : Type} [Fintype ε] [DecidableEq ε] {f g : Facts ε} {e : ε}

/-- The rules of a tree for one object class come to the verdict of what is left of the tree.
However they fire, an entity of the class never has a status that the tree does not give it;
where no rule can add anything, it has for the whole tree exactly what the tree gives it; and
such a state can be reached from everywhere.
-/
theorem verdict_of_run {c : Container} {env : CompileEnv} {context out : Option String}
    {object : String} (succeeds : (c.compile env context none {}).context = .ok out)
    (ids : c.ids.Nodup) (paths : c.paths.Nodup)
    (oneClass : (c.compile env context none {}).state.rules.OneClass c object)
    (unknown : f.statuses = ∅) (is : f.isA e object = true)
    (run : f.Run (c.compile env context none {}).state.rules.computing g)
    : (∀ ancestor k, (c.compile env context none {}).container.Within none ancestor k →
        g.Faithful e k)
      ∧ (g.Settled (c.compile env context none {}).state.rules.computing →
        ∀ s, (e, c.path, s) ∈ g.statuses
          ↔ (c.compile env context none {}).container.Gives (f.passes e) s)
      ∧ ∃ h, g.Run (c.compile env context none {}).state.rules.computing h
          ∧ h.Settled (c.compile env context none {}).state.rules.computing := by
  obtain ⟨rules, compiles, gain⟩ :=
    (c.compile_yields : (c.compile env).Yields env False c) context none {} out succeeds
      fun _ => ⟨ids, by simp⟩
  generalize c.compile env context none {} = compiled at *
  have emitted (r : Rule) : r ∈ compiled.state.rules ↔ r ∈ rules := by simp [gain.rules r]
  have speaks {path : RulePath}
      (status : ∃ r ∈ compiled.state.rules, r.clause = path ∧ r.purpose.isStatus = true)
      : Speaks compiled.state.rules.computing path := by
    obtain ⟨r, member, rfl, isStatus⟩ := status
    have makes := compiles.makes ((emitted r).mp member)
    exact ⟨r, ⟨member, Purpose.phase_of_isStatus isStatus⟩, makes.target_of_isStatus isStatus⟩
  have governed
      : ∀ around k, compiled.container.Within none around k →
          Governs compiled.state.rules.computing object around k := by
    refine compiles.governs_left paths ?_ ?_ (.inr (speaks oneClass.root))
      fun k member conditional => speaks (oneClass.sections k member conditional)
    · intro r member isStatus
      have member := (emitted r).mpr member
      exact ⟨⟨member, Purpose.phase_of_isStatus isStatus⟩, oneClass.typed r member isStatus⟩
    · intro r member _ _ _ _
      exact ⟨(emitted r).mp member.1, oneClass.direct r member.1⟩
  have faithful := Facts.faithful_of_run (e := e) governed (by simp [unknown]) run
  refine ⟨faithful, fun settled s => ?_, Facts.exists_settled_computing _ g⟩
  have isOpen
      : (Scope.mk compiled.container.path compiled.container.kind none object).Open
          (g.truth (some e)) := by
    simp [Scope.open_iff]
  have decided := Facts.decided_of_settled governed faithful settled
    (by rw [Facts.run_isA run]; exact is) .root isOpen
  have known := (faithful none _ .root).known_iff decided s
  rw [Facts.run_passes run, compiles.path_eq] at known
  exact known

/-- A section on the width of fire doors. -/
def fireDoorWidth : Container where
  id := { text := "s3" }
  reference := "/b"
  kind := .requirement
  children := [
    .container { text := "a1" } "/b" .application
      [.tag { id := { text := "t3" }, kind := .application, property := "fire rated" }],
    .container { text := "r1" } "/b" .requirement
      [.tag { id := { text := "t4" }, kind := .requirement, property := "width" }]]

/-- Doors have a width and may be rated for fire. -/
def fireDoors : CompileEnv where
  vocabulary :=
    ((Dictionary.empty.addProperty "door" { name := "width" }).addProperty "door"
      { name := "fire rated" }).vocabulary
  config := {}

/-- A wide fire door passes, in the end, whatever is found out about it first. -/
theorem verdict_of_run_fireDoorWidth
    : ∃ f g : Facts Unit,
        f.Run (fireDoorWidth.compile fireDoors none none {}).state.rules.computing g
          ∧ g.Settled (fireDoorWidth.compile fireDoors none none {}).state.rules.computing
          ∧ ((), fireDoorWidth.path, .pass) ∈ g.statuses := by
  let wide : Facts Unit := { isA := fun _ type => type == "door", passes := fun _ _ => true }
  obtain ⟨g, run, settled⟩ :=
    Facts.exists_settled_computing (fireDoorWidth.compile fireDoors none none {}).state.rules wide
  obtain ⟨succeeds, typed, direct, root, sections⟩
      : (fireDoorWidth.compile fireDoors none none {}).context = .ok (some "door")
        ∧ (∀ r ∈ (fireDoorWidth.compile fireDoors none none {}).state.rules,
          r.purpose.isStatus = true → r.entityType = some "door")
        ∧ (∀ r ∈ (fireDoorWidth.compile fireDoors none none {}).state.rules,
          r.purpose.isTransfer = false)
        ∧ (∃ r ∈ (fireDoorWidth.compile fireDoors none none {}).state.rules,
          r.clause = fireDoorWidth.path ∧ r.purpose.isStatus = true)
        ∧ ∀ k ∈ fireDoorWidth.sections, k.kind ≠ .application →
          ∃ r ∈ (fireDoorWidth.compile fireDoors none none {}).state.rules,
            r.clause = k.path ∧ r.purpose.isStatus = true := by
    decide +kernel
  have oneClass
      : (fireDoorWidth.compile fireDoors none none {}).state.rules.OneClass fireDoorWidth "door" :=
    ⟨typed, direct, root, sections⟩
  have verdict := verdict_of_run succeeds (by decide +kernel) (by decide +kernel) oneClass rfl
    (show wide.isA () "door" = true from rfl) run
  exact ⟨wide, g, run, settled, (verdict.2.1 settled .pass).mpr (by decide +kernel)⟩

end Container

end ClauseRules
