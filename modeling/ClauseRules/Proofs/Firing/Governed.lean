import ClauseRules.Proofs.Section.Exclusivity
import ClauseRules.Proofs.Section.Verdict

/-! Trees of sections that are decided by rules of one object class. In whichever order the rules
fire, an entity never has a status that the tree does not give it; and where no rule can add
anything, the entity has what the tree gives it.
-/

namespace ClauseRules

/-- A section of a tree, with the path of the section around it. -/
inductive Container.Within (root : Container) (outer : Option RulePath)
    : Option RulePath → Container → Prop
  | root : Within root outer outer root
  | part {ancestor c k} (within : Within root outer ancestor c) (member : k ∈ c.containers)
    : Within root outer (some c.path) k

/-- Some rules are in charge of a section: they include its own, and nothing else sets its
statuses.
-/
structure Governs (rules : Set Rule) (object : String) (ancestor : Option RulePath)
    (c : Container) : Prop where
  emits : ∀ r ∈ (Scope.mk c.path c.kind ancestor object).mainRules c.operands, r ∈ rules
  only
    : ∀ r ∈ rules, ∀ statuses, r.effect = .setStatus c.path statuses →
        r ∈ (Scope.mk c.path c.kind ancestor object).mainRules c.operands
  distinct : c.Distinct

/-- The statuses that a section has for an entity by its tests. -/
def Container.Gives (tests : PropertyTest → Bool) (c : Container) : Status → Prop
  | .notApplicable => c.applies tests = false
  | .applicable => c.applies tests = true
  | .pass => c.verdict tests = true
  | .fail => c.verdict tests = false

instance {tests : PropertyTest → Bool} {c : Container}
    : ∀ s, Decidable (c.Gives tests s)
  | .notApplicable => inferInstanceAs (Decidable (c.applies tests = false))
  | .applicable => inferInstanceAs (Decidable (c.applies tests = true))
  | .pass => inferInstanceAs (Decidable (c.verdict tests = true))
  | .fail => inferInstanceAs (Decidable (c.verdict tests = false))

namespace Facts

variable {ε : Type}

/-- The statuses of an entity for a section are among those that its tests give, and do not
contradict each other.
-/
structure Faithful (f : Facts ε) (e : ε) (c : Container) : Prop where
  given : ∀ s, (e, c.path, s) ∈ f.statuses → c.Gives (f.passes e) s
  exclusive : f.Exclusive e c.path

variable {f g : Facts ε} {e : ε} {c : Container}

namespace Faithful

theorem of_unknown (unknown : ∀ s, (e, c.path, s) ∉ f.statuses) : f.Faithful e c where
  given s known := absurd known (unknown s)
  exclusive := .of_unknown unknown

theorem of_same (faithful : f.Faithful e c) (passes : g.passes = f.passes)
    (same : ∀ s, (e, c.path, s) ∈ g.statuses ↔ (e, c.path, s) ∈ f.statuses)
    : g.Faithful e c where
  given s known := passes ▸ faithful.given s ((same s).mp known)
  exclusive := faithful.exclusive.of_same same

/-- An entity that passes or fails has exactly the statuses that its tests give. -/
theorem known_iff (faithful : f.Faithful e c)
    (decided : (e, c.path, .pass) ∈ f.statuses ∨ (e, c.path, .fail) ∈ f.statuses) (s : Status)
    : (e, c.path, s) ∈ f.statuses ↔ c.Gives (f.passes e) s := by
  refine ⟨faithful.given s, fun gives => ?_⟩
  -- Which of the two statuses of each pair it is, the tests have decided.
  have scope
      : (e, c.path, .applicable) ∈ f.statuses ∨ (e, c.path, .notApplicable) ∈ f.statuses := by
    rcases decided with passes | fails
    · exact faithful.exclusive.scope_of_pass passes
    · exact .inl (faithful.exclusive.applicable_of_fail fails)
  cases s with
  | notApplicable =>
      refine scope.resolve_left fun known => ?_
      exact Bool.false_ne_true (gives.symm.trans (faithful.given .applicable known))
  | applicable =>
      refine scope.resolve_right fun known => ?_
      exact Bool.false_ne_true ((faithful.given .notApplicable known).symm.trans gives)
  | pass =>
      refine decided.resolve_right fun known => ?_
      exact Bool.false_ne_true ((faithful.given .fail known).symm.trans gives)
  | fail =>
      refine decided.resolve_left fun known => ?_
      exact Bool.false_ne_true (gives.symm.trans (faithful.given .pass known))

variable [Fintype ε] [DecidableEq ε]

/-- What is known of an operand is what its value says, if that is so for nested sections. -/
theorem operand_sound (distinct : c.Distinct) (below : ∀ k ∈ c.containers, f.Faithful e k)
    {k : Kind} {operand : Operand} (member : operand ∈ c.operands.role k)
    : operand.Sound (f.truth (some e)) (c.value (f.passes e)) := by
  obtain ⟨node, listed, _, rfl⟩ := Container.exists_of_mem_role member
  have value : c.value (f.passes e) (.ofNode node) = node.verdict (f.passes e) :=
    Container.value_ofNode distinct listed
  cases node with
  | tag t =>
      constructor
      · intro holds
        rw [value, Node.verdict]
        simpa [Operand.ofNode, Operand.ofTag, Operand.holds, Tag.test] using holds
      · intro fails
        rw [value, Node.verdict]
        simpa [Operand.ofNode, Operand.ofTag, Operand.fails, Tag.test] using fails
  | container id reference kind children =>
      have nested := below ⟨id, reference, kind, children⟩ (Container.mem_containers.mpr listed)
      constructor
      · intro holds
        rw [value]
        refine nested.given .pass ?_
        simpa [Operand.ofNode, Operand.ofContainer, Operand.holds] using holds
      · intro fails
        rw [value]
        refine nested.given .fail ?_
        simpa [Operand.ofNode, Operand.ofContainer, Operand.fails] using fails

theorem conditions_sound (distinct : c.Distinct) (below : ∀ k ∈ c.containers, f.Faithful e k)
    : ∀ operand ∈ c.operands.conditions,
        operand.Sound (f.truth (some e)) (c.value (f.passes e)) := by
  intro operand member
  simp only [Operands.conditions, List.mem_append] at member
  rcases member with (member | member) | member
  · exact operand_sound (k := .application) distinct below member
  · exact operand_sound (k := .selection) distinct below member
  · exact operand_sound (k := .exception) distinct below member

/-- A conclusion that a section comes to is one that its tests give. -/
theorem given_of_concludes {kind : Kind} {ancestor : Option RulePath} {object : String}
    {statuses : List Status} (faithful : f.Faithful e c) (distinct : c.Distinct)
    (below : ∀ k ∈ c.containers, f.Faithful e k)
    (concludes
      : (Scope.mk c.path kind ancestor object).Concludes c.operands (f.truth (some e)) statuses)
    : ∀ s ∈ statuses, c.Gives (f.passes e) s := by
  have conditions := conditions_sound distinct below
  have requires (operand : Operand) (member : operand ∈ c.operands.requires)
      : operand.Sound (f.truth (some e)) (c.value (f.passes e)) :=
    operand_sound (k := .requirement) distinct below member
  cases concludes with
  | notApplicable _ _ avoids =>
      have outside : c.applies (f.passes e) = false := by
        rw [c.applies_eq _ distinct]
        exact Operands.not_inScope_of_inapplicability conditions avoids
      simp [Container.Gives, outside, Container.verdict_of_not_applies outside]
  | applicable _ _ applies =>
      have inside : c.applies (f.passes e) = true := by
        rw [c.applies_eq _ distinct]
        exact Operands.inScope_of_applicability conditions applies
      simp [Container.Gives, inside]
  | pass _ _ _ all =>
      have passes : c.verdict (f.passes e) = true := by
        rw [c.verdict_eq_passes _ distinct]
        exact Operands.passes_of_requires requires all
      simp [Container.Gives, passes]
  | fail _ _ applicable violated =>
      have inside : c.applies (f.passes e) = true :=
        faithful.given .applicable (by simpa using applicable)
      have fails : c.verdict (f.passes e) = false := by
        rw [c.applies_eq _ distinct] at inside
        rw [c.verdict_eq_passes _ distinct]
        exact Operands.not_passes_of_violation inside requires violated
      simp [Container.Gives, fails]

/-- Recording a conclusion of a section adds nothing false about it. -/
theorem record_of_concludes {kind : Kind} {ancestor : Option RulePath} {object : String}
    {statuses : List Status} (faithful : f.Faithful e c) (distinct : c.Distinct)
    (below : ∀ k ∈ c.containers, f.Faithful e k)
    (concludes
      : (Scope.mk c.path kind ancestor object).Concludes c.operands (f.truth (some e)) statuses)
    : (f.record (some e) (.setStatus c.path statuses)).Faithful e c := by
  have kept := Exclusive.of_concludes concludes faithful.exclusive
  have added := faithful.given_of_concludes distinct below concludes
  refine ⟨fun s known => ?_, kept⟩
  rw [record_passes]
  rcases mem_record_setStatus.mp known with old | ⟨_, _, listed⟩
  · exact faithful.given s old
  · exact added s listed

end Faithful

/-! ### Every run -/

variable [Fintype ε] [DecidableEq ε] {rules : Set Rule} {object : String}
  {outer : Option RulePath} {root : Container}

/-- Rules that govern a tree leave an entity faithful to it when one of them fires. -/
theorem faithful_of_step
    (governed : ∀ ancestor c, root.Within outer ancestor c → Governs rules object ancestor c)
    (faithful : ∀ ancestor c, root.Within outer ancestor c → f.Faithful e c)
    (step : Step rules f g)
    : ∀ ancestor c, root.Within outer ancestor c → g.Faithful e c := by
  obtain ⟨r, member, focus, _, holds, rfl⟩ := step
  intro ancestor c within
  have below (k : Container) (nested : k ∈ c.containers) : f.Faithful e k :=
    faithful _ k (within.part nested)
  -- Either the rule is one of the section's own, or it leaves the statuses of the entity for it.
  by_cases sets : focus = some e ∧ ∃ statuses, r.effect = .setStatus c.path statuses
  · obtain ⟨rfl, statuses, effect⟩ := sets
    have governs := governed ancestor c within
    obtain ⟨_, _, sameEffect, concludes⟩ :=
      Scope.concludes_of_guard (governs.only r member statuses effect) holds
    rw [effect, Effect.setStatus.injEq] at sameEffect
    obtain ⟨_, rfl⟩ := sameEffect
    rw [effect]
    exact (faithful ancestor c within).record_of_concludes governs.distinct below concludes
  · refine (faithful ancestor c within).of_same record_passes fun s => ?_
    cases effect : r.effect with
    | setStatus target statuses =>
        rw [mem_record_setStatus, or_iff_left]
        rintro ⟨same, rfl, _⟩
        exact sets ⟨same, statuses, effect⟩
    | insertResult => rfl

/-- In every state that is reached before anything is known, an entity is faithful to the tree. -/
theorem faithful_of_run
    (governed : ∀ ancestor c, root.Within outer ancestor c → Governs rules object ancestor c)
    (unknown : ∀ path s, (e, path, s) ∉ f.statuses) (run : Run rules f g)
    : ∀ ancestor c, root.Within outer ancestor c → g.Faithful e c := by
  induction run with
  | refl => exact fun _ c _ => .of_unknown (unknown c.path)
  | tail _ step faithful => exact faithful_of_step governed faithful step

/-! ### Where runs end -/

/-- Rules that can add nothing have drawn every conclusion that a section comes to. -/
theorem known_of_settled {c : Container} {ancestor : Option RulePath} {statuses : List Status}
    (governs : Governs rules object ancestor c) (settled : Settled rules f)
    (is : f.isA e object = true)
    (isOpen : (Scope.mk c.path c.kind ancestor object).Open (f.truth (some e)))
    (concludes
      : (Scope.mk c.path c.kind ancestor object).Concludes c.operands (f.truth (some e)) statuses)
    : ∀ s ∈ statuses, (e, c.path, s) ∈ f.statuses := by
  obtain ⟨r, member, holds, effect⟩ := Scope.exists_guard_of_concludes isOpen concludes
  have typed := (Scope.mainRules_shape member).2.1
  have same := settled _ ⟨r, governs.emits r member, some e, ⟨object, typed, is⟩, holds, rfl⟩
  intro s listed
  rw [← same, effect]
  exact mem_record_setStatus.mpr (.inr ⟨rfl, rfl, listed⟩)

/-- An operand is decided if it is a test, or a section that is known to pass or to fail. -/
theorem decided_ofNode {node : Node}
    (nested
      : ∀ k : Container, k.toNode = node →
          (e, k.path, .pass) ∈ f.statuses ∨ (e, k.path, .fail) ∈ f.statuses)
    : (Operand.ofNode node).Decided (f.truth (some e)) := by
  cases node with
  | tag t =>
      simp only [Operand.Decided, Operand.ofNode, Operand.ofTag, Operand.holds, Operand.fails,
        Condition.evaluate_test, Condition.evaluate_not, truth_test]
      cases f.passes e _ <;> simp
  | container id reference kind children =>
      have known := nested ⟨id, reference, kind, children⟩ rfl
      simpa [Operand.Decided, Operand.ofNode, Operand.ofContainer, Operand.holds, Operand.fails]
        using known

/-- Where no rule can add anything, a section is decided if the section around it leaves it open.
By induction on the tree: an undecided section leaves its parts open, its requirements as soon as
it is known to apply.
-/
theorem decided_of_settled {c : Container} {ancestor : Option RulePath}
    (governed : ∀ ancestor c, root.Within outer ancestor c → Governs rules object ancestor c)
    (faithful : ∀ ancestor c, root.Within outer ancestor c → f.Faithful e c)
    (settled : Settled rules f) (is : f.isA e object = true)
    (within : root.Within outer ancestor c)
    (isOpen : (Scope.mk c.path c.kind ancestor object).Open (f.truth (some e)))
    : (e, c.path, .pass) ∈ f.statuses ∨ (e, c.path, .fail) ∈ f.statuses := by
  refine Classical.byContradiction fun undecided => ?_
  obtain ⟨unpassed, unfailed⟩ := not_or.mp undecided
  have here := faithful ancestor c within
  have governs := governed ancestor c within
  have disputable : (e, c.path, Status.notApplicable) ∉ f.statuses :=
    fun known => unpassed (here.exclusive.pass_of_notApplicable known)
  -- An undecided section leaves its parts open, so that the induction covers them.
  have below (k : Container) (member : k ∈ c.containers)
      (required : k.kind = .requirement → (e, c.path, .applicable) ∈ f.statuses)
      : (e, k.path, .pass) ∈ f.statuses ∨ (e, k.path, .fail) ∈ f.statuses := by
    refine decided_of_settled governed faithful settled is (within.part member) ?_
    rw [Scope.open_iff]
    intro path around
    simp only [Option.some.injEq] at around
    subst around
    simpa [unpassed, unfailed] using required
  have decided (kind : Kind)
      (required : kind = .requirement → (e, c.path, .applicable) ∈ f.statuses)
      (operand : Operand) (member : operand ∈ c.operands.role kind)
      : operand.Decided (f.truth (some e)) := by
    obtain ⟨node, listed, ofKind, rfl⟩ := Container.exists_of_mem_role member
    refine decided_ofNode fun k same => ?_
    subst same
    exact below k (Container.mem_containers.mpr listed) fun requires =>
      required (ofKind.symm.trans requires)
  have conclude {statuses : List Status}
      (concludes
        : (Scope.mk c.path c.kind ancestor object).Concludes c.operands (f.truth (some e)) statuses)
      : ∀ s ∈ statuses, (e, c.path, s) ∈ f.statuses :=
    known_of_settled governs settled is isOpen concludes
  have conditions (operand : Operand) (member : operand ∈ c.operands.conditions)
      : operand.Decided (f.truth (some e)) := by
    simp only [Operands.conditions, List.mem_append] at member
    rcases member with (member | member) | member
    · exact decided .application (fun same => absurd same (by decide)) operand member
    · exact decided .selection (fun same => absurd same (by decide)) operand member
    · exact decided .exception (fun same => absurd same (by decide)) operand member
  -- One of the two rules on the scope holds, and the one that rules it out would make it pass.
  have applicable : (e, c.path, .applicable) ∈ f.statuses := by
    refine Classical.byContradiction fun unapplied => ?_
    rcases Operands.applicable_or_inapplicable conditions with applies | avoids
    · refine unapplied (conclude (.applicable ?_ ?_ applies) _ (List.mem_singleton_self _))
      · simpa using unapplied
      · simpa using disputable
    · refine unpassed (conclude (.notApplicable ?_ ?_ avoids) .pass (by simp))
      · simpa using disputable
      · simpa using unapplied
  -- Now the requirements are open too, and the section comes to a verdict after all.
  have requires := decided .requirement fun _ => applicable
  by_cases all : ∀ operand ∈ c.operands.requires, operand.holds.evaluate (f.truth (some e)) = true
  · refine unpassed (conclude (.pass ?_ ?_ ?_ all) _ (List.mem_singleton_self _))
    · simpa using unfailed
    · simpa using unpassed
    · simpa using applicable
  · simp only [not_forall] at all
    obtain ⟨operand, member, unsatisfied⟩ := all
    have violated := (requires operand member).resolve_left unsatisfied
    refine unfailed (conclude (.fail ?_ ?_ ?_ ⟨operand, member, violated⟩) _
      (List.mem_singleton_self _))
    · simpa using unfailed
    · simpa using unpassed
    · simpa using applicable
termination_by sizeOf c
decreasing_by exact Container.sizeOf_lt_of_mem_containers member

end Facts

end ClauseRules
