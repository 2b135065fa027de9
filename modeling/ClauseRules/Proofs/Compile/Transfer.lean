import ClauseRules.Proofs.Compile.Clauses
import ClauseRules.Proofs.Firing.Settling

/-! Requirements of another object class. Their rules wait for the enclosing section to apply to the
entity that they match, and it never does: it applies to entities of its own class only. So nothing
is ever found out about such a requirement, and every entity of the enclosing section passes it.
-/

namespace ClauseRules

namespace Facts

variable {ε : Type}

/-- What there is to know about a requirement of another object class. The enclosing section, of the
class `whole`, has statuses of entities of that class only, and the requirement is only passed.
-/
structure Untransferred (f : Facts ε) (whole : String) (around nested : RulePath) : Prop where
  around : ∀ e s, (e, around, s) ∈ f.statuses → f.isA e whole = true
  nested : ∀ e s, (e, nested, s) ∈ f.statuses → s = .pass ∧ f.isA e whole = true

end Facts

/-- How the rules of a section treat one of its requirements that is about another object class. -/
structure Detached (rules : Set Rule) (whole foreign : String) (around nested : RulePath)
    : Prop where
  differs : foreign ≠ whole
  typed
    : ∀ r ∈ rules, ∀ statuses, r.effect = .setStatus around statuses →
        r.entityType = some whole
  own
    : ∀ r ∈ rules, ∀ statuses, r.effect = .setStatus nested statuses →
        (∃ operands,
          r ∈ (Scope.mk nested .requirement (some around) foreign).mainRules operands)
        ∨ ∃ id, r ∈ transferRules around whole id nested
  transfers : ∃ id, ∀ r ∈ transferRules around whole id nested, r ∈ rules

namespace Detached

variable {ε : Type} [Fintype ε] [DecidableEq ε] {f g : Facts ε} {rules : Set Rule}
  {whole foreign : String} {around nested : RulePath}

/-- The rules of the requirement never fire: the entity that they match would have to be of both
classes.
-/
theorem untransferred_of_step (detached : Detached rules whole foreign around nested)
    (oneClass : ∀ e a b, f.isA e a = true → f.isA e b = true → a = b)
    (untransferred : f.Untransferred whole around nested) (step : f.Step rules g)
    : g.Untransferred whole around nested := by
  obtain ⟨r, member, focus, fits, holds, rfl⟩ := step
  cases effect : r.effect with
  | insertResult => exact ⟨untransferred.around, untransferred.nested⟩
  | setStatus target statuses =>
      refine ⟨fun e s known => ?_, fun e s known => ?_⟩
      · rw [Facts.record_isA]
        rcases Facts.mem_record_setStatus.mp known with old | ⟨rfl, rfl, _⟩
        · exact untransferred.around e s old
        · obtain ⟨type, typed, is⟩ := fits
          cases typed.symm.trans (detached.typed r member statuses effect)
          exact is
      · rw [Facts.record_isA]
        rcases Facts.mem_record_setStatus.mp known with old | ⟨rfl, rfl, listed⟩
        · exact untransferred.nested e s old
        · obtain ⟨type, typed, is⟩ := fits
          rcases detached.own r member statuses effect with ⟨operands, main⟩ | ⟨id, transfer⟩
          -- The guard asks whether the section around applies to the entity of the other class.
          · obtain ⟨isOpen, _⟩ := Scope.concludes_of_guard main holds
            have applies : (e, around, .applicable) ∈ f.statuses := by
              simpa using ((Scope.open_iff.mp isOpen) around rfl).2.2 rfl
            cases typed.symm.trans (Scope.mainRules_shape main).2.1
            exact absurd (oneClass e _ _ is (untransferred.around e _ applies)) detached.differs
          · cases typed.symm.trans (transferRules_shape transfer).2.1
            refine ⟨?_, is⟩
            rcases transferRules_concludes transfer holds with passes | ⟨_, other, fails⟩
            · cases effect.symm.trans passes
              exact List.mem_singleton.mp listed
            · exact absurd (untransferred.nested other _ fails).1 (by decide)

theorem untransferred_of_run (detached : Detached rules whole foreign around nested)
    (oneClass : ∀ e a b, f.isA e a = true → f.isA e b = true → a = b)
    (unknown : f.statuses = ∅) (run : f.Run rules g)
    : g.Untransferred whole around nested := by
  induction run with
  | refl => exact ⟨by simp [unknown], by simp [unknown]⟩
  | tail before step ih =>
      refine detached.untransferred_of_step ?_ ih step
      rw [Facts.run_isA before]
      exact oneClass

/-- Where no rule can add anything, all entities of the enclosing class pass. -/
theorem pass_of_settled (detached : Detached rules whole foreign around nested)
    (untransferred : f.Untransferred whole around nested) (settled : f.Settled rules) {e : ε}
    (is : f.isA e whole = true)
    : (e, nested, .pass) ∈ f.statuses := by
  obtain ⟨id, transfers⟩ := detached.transfers
  have unapplied (other : ε) : (other, nested, .applicable) ∉ f.statuses :=
    fun known => absurd (untransferred.nested other _ known).1 (by decide)
  obtain ⟨r, member, effect, holds⟩
      : ∃ r ∈ transferRules around whole id nested,
          r.effect = .setStatus nested [.pass] ∧ f.Holds (some e) r.guard :=
    exists_vacuous_transfer unapplied
  have fits : f.Matches r (some e) := ⟨whole, (transferRules_shape member).2.1, is⟩
  have same := settled _ ⟨r, transfers r member, some e, fits, holds, rfl⟩
  rw [← same, effect]
  exact Facts.mem_record_setStatus.mpr (.inr ⟨rfl, rfl, List.mem_singleton_self _⟩)

end Detached

/-- The rules of a section and of its requirement are about different object classes. -/
structure RuleSet.Differ (rules : RuleSet) (around nested : RulePath) (whole foreign : String)
    : Prop where
  differs : foreign ≠ whole
  whole
    : ∃ r ∈ rules, r.clause = around ∧ r.purpose.isStatus = true ∧ r.entityType = some whole
  foreign
    : ∃ r ∈ rules, r.clause = nested ∧ r.purpose.isStatus = true ∧ r.entityType = some foreign

/-- A requirement of another object class is detached from the section around it. -/
theorem Compiles.detached {env : CompileEnv} {repeats : NodeId → Prop} {ancestor : Option RulePath}
    {context : Option String} {c k : Container} {y : Yield} {rules : RuleSet}
    {whole foreign : String} (compiles : Compiles env repeats ancestor context c y)
    (emitted : ∀ r, r ∈ rules ↔ r ∈ y.rules) (distinct : c.paths.Nodup) (listed : k ∈ c.parts)
    (required : k.kind = .requirement) (differ : rules.Differ c.path k.path whole foreign)
    : Detached rules.computing whole foreign c.path k.path := by
  have target {path : RulePath} {object : String}
      (rule : ∃ r ∈ rules, r.clause = path ∧ r.purpose.isStatus = true ∧ r.entityType = some object)
      : ∃ r ∈ y.rules, (∃ statuses, r.effect = .setStatus path statuses)
          ∧ r.purpose.isStatus = true ∧ r.entityType = some object := by
    obtain ⟨r, member, rfl, isStatus, type⟩ := rule
    have member := (emitted r).mp member
    exact ⟨r, member, (compiles.makes member).target_of_isStatus isStatus, isStatus, type⟩
  obtain ⟨r, member, ⟨statuses, effect⟩, _, type⟩ := target differ.whole
  obtain ⟨s, other, ⟨results, result⟩, isStatus, foreignType⟩ := target differ.foreign
  cases compiles with
  | repeated | empty => exact absurd member List.not_mem_nil
  | tags flat => simp [Container.parts, flat] at listed
  | @sections _ _ _ object left parts nested origins entered below resolved rest =>
      obtain ⟨part, isPart, rfl⟩ := List.mem_map.mp (origins ▸ listed)
      have inside := part.origin.path_mem_paths
      have derivation := below part isPart
      have apart := distinct_part origins distinct isPart
      -- The classes are those that the rules of the two sections match.
      have main := main_of_target origins distinct below member effect
      obtain rfl : object = whole :=
        Option.some.inj ((Scope.mainRules_shape main).2.1.symm.trans type)
      have own : s ∈ part.rules := by
        rcases part_of_target origins distinct below other isPart inside result with
          own | ⟨_, _, transfer⟩
        · exact own
        · exact absurd ((transferRules_shape transfer).2.2.1.symm.trans isStatus) Bool.false_ne_true
      have entityType : part.context.getD env.config.fallbackObject = foreign :=
        Option.some.inj ((Scope.mainRules_shape
          (derivation.main_of_root apart own result)).2.1.symm.trans foreignType)
      have kind : part.kind = .requirement := derivation.kind_eq.trans required
      refine ⟨differ.differs, ?_, ?_, part.left.id.text, ?_⟩
      · intro r member statuses effect
        have main := main_of_target origins distinct below ((emitted r).mp member.1) effect
        exact (Scope.mainRules_shape main).2.1
      · intro r member statuses effect
        rcases part_of_target origins distinct below ((emitted r).mp member.1) isPart inside
          effect with own | ⟨_, _, transfer⟩
        · have main := derivation.main_of_root apart own effect
          rw [required, entityType] at main
          exact .inl ⟨_, main⟩
        · rw [derivation.path_eq] at transfer
          exact .inr ⟨_, transfer⟩
      · intro r transfer
        have carried : part.context ≠ some object := by
          intro same
          rw [same] at entityType
          exact differ.differs entityType.symm
        refine ⟨(emitted r).mpr (List.mem_append_right _ ?_),
          Purpose.phase_of_isTransfer (transferRules_shape transfer).2.2.2.1⟩
        refine CompiledPart.mem_transfers.mpr ⟨part, isPart, ?_, carried, ?_⟩
        · simp [CompiledPart.isSpent, kind]
        · rw [derivation.path_eq]
          exact transfer

namespace Container

variable {ε : Type} [Fintype ε] [DecidableEq ε] {f g : Facts ε}

/-- A violation that is found on another object class does not reach the section around. Nothing is
ever known about a requirement of another class but that entities of the section's own class pass
it; and they all do where no rule can add anything, which can be reached from everywhere.
-/
theorem foreign_requirement_passes {c k : Container} {env : CompileEnv}
    {context out : Option String} {ancestor : Option RulePath} {whole foreign : String}
    (succeeds : (c.compile env context ancestor {}).context = .ok out) (paths : c.paths.Nodup)
    (listed : k ∈ c.parts) (required : k.kind = .requirement)
    (differ : (c.compile env context ancestor {}).state.rules.Differ c.path k.path whole foreign)
    (oneClass : ∀ e a b, f.isA e a = true → f.isA e b = true → a = b)
    (unknown : f.statuses = ∅)
    (run : f.Run (c.compile env context ancestor {}).state.rules.computing g)
    : (∀ e s, (e, k.path, s) ∈ g.statuses → s = .pass ∧ g.isA e whole = true)
      ∧ (g.Settled (c.compile env context ancestor {}).state.rules.computing →
        ∀ e, f.isA e whole = true →
          (e, k.path, .pass) ∈ g.statuses ∧ (e, k.path, .fail) ∉ g.statuses)
      ∧ ∃ h, g.Run (c.compile env context ancestor {}).state.rules.computing h
          ∧ h.Settled (c.compile env context ancestor {}).state.rules.computing := by
  obtain ⟨rules, compiles, gain⟩ :=
    (c.compile_yields : (c.compile env).Yields env True c) context ancestor {} out succeeds
      fun unrepeated => absurd trivial unrepeated
  generalize c.compile env context ancestor {} = compiled at *
  have detached := compiles.detached (fun r => by simp [gain.rules r]) paths listed required differ
  have untransferred := detached.untransferred_of_run oneClass unknown run
  refine ⟨untransferred.nested, fun settled e is => ⟨?_, fun known => ?_⟩,
    Facts.exists_settled_computing _ g⟩
  · refine detached.pass_of_settled untransferred settled ?_
    rw [Facts.run_isA run]
    exact is
  · exact absurd (untransferred.nested e _ known).1 (by decide)

/-- A requirement on the width of doors. -/
def doorWidth : Container where
  id := { text := "s2" }
  reference := "/b"
  kind := .requirement
  children := [.tag { id := { text := "t1" }, kind := .requirement, property := "width" }]

/-- A section on buildings that requires something of doors. -/
def doorsOfBuilding : Container where
  id := { text := "s1" }
  reference := "/b"
  kind := .requirement
  children := [doorWidth.toNode]

def widths : CompileEnv where
  vocabulary := (Dictionary.empty.addProperty "door" { name := "width" }).vocabulary
  config := {}

/-- A building passes the requirement on its door although the door violates it. -/
theorem foreign_requirement_passes_narrow_door
    : ∃ f g : Facts Bool,
        f.isA false "Building" = true ∧ f.isA true "door" = true
          ∧ f.passes true ⟨"Width", .equal, "true", ""⟩ = false
          ∧ f.Run (doorsOfBuilding.compile widths none none {}).state.rules.computing g
          ∧ g.Settled (doorsOfBuilding.compile widths none none {}).state.rules.computing
          ∧ (false, doorWidth.path, .pass) ∈ g.statuses
          ∧ (false, doorWidth.path, .fail) ∉ g.statuses := by
  let f : Facts Bool :=
    { isA := fun isDoor type => type == if isDoor then "door" else "Building"
      passes := fun _ _ => false }
  obtain ⟨succeeds, whole, foreign⟩
      : (doorsOfBuilding.compile widths none none {}).context = .ok none
        ∧ (∃ r ∈ (doorsOfBuilding.compile widths none none {}).state.rules,
          r.clause = doorsOfBuilding.path ∧ r.purpose.isStatus = true
            ∧ r.entityType = some "Building")
        ∧ ∃ r ∈ (doorsOfBuilding.compile widths none none {}).state.rules,
          r.clause = doorWidth.path ∧ r.purpose.isStatus = true ∧ r.entityType = some "door" := by
    decide +kernel
  have listed : doorWidth ∈ doorsOfBuilding.parts := List.mem_singleton_self _
  have oneClass (e : Bool) (a b : String) (isA : f.isA e a = true) (isB : f.isA e b = true)
      : a = b :=
    (beq_iff_eq.mp isA).trans (beq_iff_eq.mp isB).symm
  obtain ⟨g, run, settled⟩ :=
    Facts.exists_settled_computing (doorsOfBuilding.compile widths none none {}).state.rules f
  have result := foreign_requirement_passes succeeds (by decide +kernel) listed rfl
    ⟨by decide, whole, foreign⟩ oneClass rfl run
  obtain ⟨passes, unfailed⟩ := result.2.1 settled false rfl
  exact ⟨f, g, rfl, rfl, rfl, run, settled, passes, unfailed⟩

end Container

end ClauseRules
