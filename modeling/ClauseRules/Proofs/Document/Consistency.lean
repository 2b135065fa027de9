import ClauseRules.Proofs.Document.RuleNames
import ClauseRules.Proofs.Firing.Consistency

/-! Whether the statuses of entities contradict each other when the rules of a whole document fire.
They do not on entities that no result is carried over to. Other entities may receive a pass before
the section is decided and a failure afterwards; if the rules that carry results over wait, they may
not.
-/

namespace ClauseRules

theorem Rule.Makes.computes {paths : List RulePath} {r : Rule} (makes : r.Makes paths)
    (phase : r.purpose.phase = .compute)
    : r.Computes := by
  cases makes with
  | main scope operands _ member => exact .main scope operands member
  | transfer path child object id _ _ member => exact .transfer path child object id member
  | summary path _ member => cases phase.symm.trans (aggregationRules_shape member).2.2.2.1

/-- A section is decided by its own rules. -/
theorem Rule.Computes.clause_of_judges {r : Rule} {path : RulePath} (computes : r.Computes)
    (judges : r.Judges path)
    : r.clause = path := by
  obtain ⟨isStatus, statuses, effect⟩ := judges
  cases computes with
  | main scope operands member =>
      obtain ⟨clause, _, _, _, same⟩ := Scope.mainRules_shape member
      cases effect.symm.trans same
      exact clause
  | transfer path child object id member =>
      cases isStatus.symm.trans (transferRules_shape member).2.2.1

namespace Document

variable {document : Document} {env : CompileEnv} {rules : RuleSet}

/-- The rules that record statuses decide sections or carry their results over. -/
theorem computes_of_compile (succeeds : (document.compile env).1 = .ok rules)
    : ∀ r ∈ rules.computing, r.Computes := by
  intro r ⟨member, phase⟩
  rcases derivation_of_compile succeeds member with ⟨c, _, y, compiles, inside⟩ | final
  · exact (compiles.makes inside).computes phase
  · cases phase.symm.trans (documentRules_shape final).2

variable {ε : Type} [Fintype ε] [DecidableEq ε] {f : Facts ε}

/-- However the rules of a document fire, the statuses for a section do not contradict each other on
an entity that the section's result is not carried over to, and a failure goes back to an entity
that the section applies to. If results are carried over only after the section is decided, no
entity at all comes to pass and to fail, unless it is decided itself and receives the result of
others as well.
-/
theorem compile_consistent (succeeds : (document.compile env).1 = .ok rules)
    (unknown : f.statuses = ∅) (path : RulePath)
    : (∀ g, f.Run rules.computing g →
        (∀ e, ¬f.Receives rules.computing path e → g.Exclusive e path)
        ∧ ∀ e, (e, path, .fail) ∈ g.statuses →
          ∃ other, (other, path, .applicable) ∈ g.statuses ∧ (other, path, .fail) ∈ g.statuses)
      ∧ ∀ middle g,
        f.Run {r ∈ rules.computing | ¬r.Carries path} middle →
        middle.Run {r ∈ rules.computing | ¬r.Judges path} g →
        ∀ e, ¬(f.Judged rules.computing path e ∧ f.Receives rules.computing path e) →
          ¬((e, path, .pass) ∈ g.statuses ∧ (e, path, .fail) ∈ g.statuses) := by
  have computes := computes_of_compile succeeds
  have none (e : ε) (s : Status) : (e, path, s) ∉ f.statuses := by simp [unknown]
  refine ⟨fun g run => ⟨fun e unreached => ?_, ?_⟩, fun middle g deciding carrying e apart => ?_⟩
  · exact Facts.exclusive_of_run computes unreached (none e) run
  · exact Facts.failureApplies_of_run computes none run
  · exact Facts.consistent_of_phases computes none deciding carrying apart

/-! ### A door in a building -/

/-- A section that applies to buildings with a wide door. -/
def wideDoors : Document where
  base := "GB/R/B/1"
  items := [
    .container { text := "b1" } "/b" .requirement [
      .container { text := "b2" } "/b" .selection [
        .tag { id := { text := "b3" }, kind := .requirement, property := "width" }]]]
  tables := []

/-- The rules that decide whether a door is wide. -/
def wideDoorRules : List Rule :=
  (Scope.mk ⟨"/b/b2"⟩ .selection (some ⟨"/b/b1"⟩) "door").mainRules
    { requires := [.test ⟨"Width", .equal, "true", ""⟩] }

/-- The rules that carry this over to buildings. -/
def wideDoorTransfers : List Rule := transferRules ⟨"/b/b1"⟩ "Building" "b2" ⟨"/b/b2"⟩

theorem wideDoors_compile
    : ∃ rules,
        (wideDoors.compile doors).1 = .ok rules
        ∧ (∀ r ∈ wideDoorRules, r ∈ rules) ∧ (∀ r ∈ wideDoorTransfers, r ∈ rules)
        ∧ (∀ r ∈ rules, r.purpose.isTransfer = true → r.entityType = some "Building")
        ∧ ∀ r ∈ rules, r.clause = ⟨"/b/b2"⟩ → r.entityType ≠ some "Building" :=
  exists_of_compile (by decide +kernel)

/-- A building, and a door in it that is not wide. -/
def narrowDoor : Facts Bool where
  isA := fun isDoor type => type == if isDoor then "door" else "Building"
  passes := fun _ _ => false

/-- One more rule fires. -/
theorem fire {rules : Set Rule} {g : Facts ε} (run : f.Run rules g) (r : Rule) (e : ε)
    (member : r ∈ rules) (fits : g.Matches r (some e)) (holds : g.Holds (some e) r.guard)
    : f.Run rules (g.record (some e) r.effect) :=
  run.tail ⟨r, member, some e, fits, holds, rfl⟩

/-- The building passes as long as nothing is known of the door, and fails when the door does. -/
theorem narrowDoor_run {rules : Set Rule} (own : ∀ r ∈ wideDoorRules, r ∈ rules)
    (transfers : ∀ r ∈ wideDoorTransfers, r ∈ rules)
    : ∃ g,
        narrowDoor.Run rules g
        ∧ (false, ⟨"/b/b2"⟩, .pass) ∈ g.statuses ∧ (false, ⟨"/b/b2"⟩, .fail) ∈ g.statuses := by
  have start : narrowDoor.Run rules narrowDoor := .refl
  have passes := fire start (wideDoorTransfers.get ⟨1, by decide⟩) false
    (transfers _ (List.get_mem _ _)) ⟨"Building", by decide, by decide⟩ (by decide)
  have applies := fire passes (wideDoorRules.get ⟨0, by decide⟩) true
    (own _ (List.get_mem _ _)) ⟨"door", by decide, by decide⟩ (by decide)
  have fails := fire applies (wideDoorRules.get ⟨2, by decide⟩) true
    (own _ (List.get_mem _ _)) ⟨"door", by decide, by decide⟩ (by decide)
  have carried := fire fails (wideDoorTransfers.get ⟨2, by decide⟩) false
    (transfers _ (List.get_mem _ _)) ⟨"Building", by decide, by decide⟩ (by decide)
  exact ⟨_, carried, by decide, by decide⟩

/-- If the result of the door is carried over when it is there, the building only fails. -/
theorem narrowDoor_phases {first last : Set Rule} (own : ∀ r ∈ wideDoorRules, r ∈ first)
    (transfers : ∀ r ∈ wideDoorTransfers, r ∈ last)
    : ∃ middle g,
        narrowDoor.Run first middle ∧ middle.Run last g
        ∧ (false, ⟨"/b/b2"⟩, .fail) ∈ g.statuses := by
  have start : narrowDoor.Run first narrowDoor := .refl
  have applies := fire start (wideDoorRules.get ⟨0, by decide⟩) true
    (own _ (List.get_mem _ _)) ⟨"door", by decide, by decide⟩ (by decide)
  have fails := fire applies (wideDoorRules.get ⟨2, by decide⟩) true
    (own _ (List.get_mem _ _)) ⟨"door", by decide, by decide⟩ (by decide)
  refine ⟨_, _, fails, fire .refl (wideDoorTransfers.get ⟨2, by decide⟩) false
    (transfers _ (List.get_mem _ _)) ⟨"Building", by decide, ?_⟩ ?_, ?_⟩
  all_goals decide

theorem compile_consistent_narrowDoor
    : ∃ rules,
        (wideDoors.compile doors).1 = .ok rules ∧ narrowDoor.statuses = ∅
        ∧ (∃ g,
          narrowDoor.Run rules.computing g ∧ (false, ⟨"/b/b2"⟩, .fail) ∈ g.statuses
          ∧ g.Exclusive true ⟨"/b/b2"⟩ ∧ ∃ e, (e, ⟨"/b/b2"⟩, .applicable) ∈ g.statuses)
        ∧ ∃ middle g,
          narrowDoor.Run {r ∈ rules.computing | ¬r.Carries ⟨"/b/b2"⟩} middle
          ∧ middle.Run {r ∈ rules.computing | ¬r.Judges ⟨"/b/b2"⟩} g
          ∧ (false, ⟨"/b/b2"⟩, .fail) ∈ g.statuses ∧ (false, ⟨"/b/b2"⟩, .pass) ∉ g.statuses := by
  obtain ⟨rules, compiled, own, transfers, carriedTo, judgedOn⟩ := wideDoors_compile
  obtain ⟨anyRun, inPhases⟩ := compile_consistent compiled (f := narrowDoor) rfl ⟨"/b/b2"⟩
  have computingOwn : ∀ r ∈ wideDoorRules, r ∈ rules.computing ∧ ¬r.Carries ⟨"/b/b2"⟩ := by
    intro r member
    have isStatus := (Scope.mainRules_shape member).2.2.1
    exact ⟨⟨own r member, Purpose.phase_of_isStatus isStatus⟩, Rule.not_carries isStatus⟩
  have computingTransfers
      : ∀ r ∈ wideDoorTransfers, r ∈ rules.computing ∧ ¬r.Judges ⟨"/b/b2"⟩ := by
    intro r member
    have isTransfer := (transferRules_shape member).2.2.2.1
    exact ⟨⟨transfers r member, Purpose.phase_of_isTransfer isTransfer⟩,
      Rule.not_judges isTransfer⟩
  refine ⟨rules, compiled, rfl, ?_, ?_⟩
  · obtain ⟨g, run, _, failed⟩ := narrowDoor_run (fun r member => (computingOwn r member).1)
      fun r member => (computingTransfers r member).1
    obtain ⟨exclusive, origin⟩ := anyRun g run
    obtain ⟨other, applicable, _⟩ := origin false failed
    refine ⟨g, run, failed, exclusive true ?_, other, applicable⟩
    -- Results are carried over to buildings only, and the door is none.
    rintro ⟨r, member, ⟨isTransfer, _⟩, type, typed, is⟩
    cases typed.symm.trans (carriedTo r member.1 isTransfer)
    cases is
  · obtain ⟨middle, g, deciding, carrying, failed⟩ :=
      narrowDoor_phases computingOwn computingTransfers
    have apart
        : ¬(narrowDoor.Judged rules.computing ⟨"/b/b2"⟩ false
          ∧ narrowDoor.Receives rules.computing ⟨"/b/b2"⟩ false) := by
      rintro ⟨⟨r, member, judges, type, typed, is⟩, _⟩
      have building : type = "Building" := beq_iff_eq.mp is
      have clause := (computes_of_compile compiled r member).clause_of_judges judges
      exact judgedOn r member.1 clause (building ▸ typed)
    refine ⟨middle, g, deciding, carrying, failed, fun passed => ?_⟩
    exact inPhases middle g deciding carrying false apart ⟨passed, failed⟩

/-- The result that is carried over to a building contradicts itself. -/
theorem wideDoors_contradiction
    : wideDoors.nodeIds.Nodup ∧ (wideDoors.allSections.map (·.path)).Nodup
      ∧ ∃ rules,
          (wideDoors.compile doors).1 = .ok rules
          ∧ ∃ f g : Facts Bool,
            f.statuses = ∅ ∧ f.Run rules.computing g
            ∧ ∃ e path, (e, path, .pass) ∈ g.statuses ∧ (e, path, .fail) ∈ g.statuses := by
  obtain ⟨rules, compiled, own, transfers, _⟩ := wideDoors_compile
  refine ⟨by decide +kernel, by decide +kernel, rules, compiled, ?_⟩
  have computingOwn : ∀ r ∈ wideDoorRules, r ∈ rules.computing := fun r member =>
    ⟨own r member, Purpose.phase_of_isStatus (Scope.mainRules_shape member).2.2.1⟩
  have computingTransfers : ∀ r ∈ wideDoorTransfers, r ∈ rules.computing := fun r member =>
    ⟨transfers r member, Purpose.phase_of_isTransfer (transferRules_shape member).2.2.2.1⟩
  obtain ⟨g, run, passed, failed⟩ := narrowDoor_run computingOwn computingTransfers
  exact ⟨narrowDoor, g, rfl, run, false, ⟨"/b/b2"⟩, passed, failed⟩

end Document

end ClauseRules
