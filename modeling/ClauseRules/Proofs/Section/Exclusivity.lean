import ClauseRules.Proofs.Firing.Basic
import ClauseRules.Proofs.Section.StatusRules

/-! No entity ever has contradictory statuses for a section, whatever the surroundings of the
section do in the meantime.
-/

namespace ClauseRules

variable {ε : Type}

/-- What the statuses of an entity for a section have to do with each other. -/
structure Facts.Exclusive (f : Facts ε) (e : ε) (path : RulePath) : Prop where
  scope : ¬((e, path, .applicable) ∈ f.statuses ∧ (e, path, .notApplicable) ∈ f.statuses)
  verdict : ¬((e, path, .pass) ∈ f.statuses ∧ (e, path, .fail) ∈ f.statuses)
  pass_of_notApplicable : (e, path, .notApplicable) ∈ f.statuses → (e, path, .pass) ∈ f.statuses
  applicable_of_fail : (e, path, .fail) ∈ f.statuses → (e, path, .applicable) ∈ f.statuses
  scope_of_pass
    : (e, path, .pass) ∈ f.statuses
      → (e, path, .applicable) ∈ f.statuses ∨ (e, path, .notApplicable) ∈ f.statuses

namespace Facts.Exclusive

variable {f g : Facts ε} {e : ε} {path : RulePath}

theorem of_unknown (unknown : ∀ s, (e, path, s) ∉ f.statuses) : f.Exclusive e path where
  scope both := unknown _ both.1
  verdict both := unknown _ both.1
  pass_of_notApplicable known := absurd known (unknown _)
  applicable_of_fail known := absurd known (unknown _)
  scope_of_pass known := absurd known (unknown _)

/-- Only the statuses for the section itself matter. -/
theorem of_same (exclusive : f.Exclusive e path)
    (same : ∀ s, (e, path, s) ∈ g.statuses ↔ (e, path, s) ∈ f.statuses)
    : g.Exclusive e path := by
  constructor <;> simp only [same]
  · exact exclusive.scope
  · exact exclusive.verdict
  · exact exclusive.pass_of_notApplicable
  · exact exclusive.applicable_of_fail
  · exact exclusive.scope_of_pass

variable [Fintype ε] [DecidableEq ε]
variable {scope : Scope} {operands : Operands} {statuses : List Status}

/-- A conclusion leaves the statuses free of contradictions. The one that a section does not apply
adds a pass without a look at failures; but nothing fails that is not known to be applicable.
-/
theorem of_concludes (concludes : scope.Concludes operands (f.truth (some e)) statuses)
    (exclusive : f.Exclusive e scope.path)
    : (f.record (some e) (.setStatus scope.path statuses)).Exclusive e scope.path := by
  cases concludes with
  | notApplicable _ unapplied _ =>
      have unapplied : (e, scope.path, Status.applicable) ∉ f.statuses := by
        simpa using unapplied
      -- A failure would have needed the section to apply.
      have unfailed : (e, scope.path, Status.fail) ∉ f.statuses :=
        fun failed => unapplied (exclusive.applicable_of_fail failed)
      constructor <;> simp [unapplied, unfailed]
  | applicable _ undecided _ =>
      have undecided : (e, scope.path, Status.notApplicable) ∉ f.statuses := by
        simpa using undecided
      constructor
      · simp [undecided]
      · simpa using exclusive.verdict
      all_goals simp [undecided]
  | pass unfailed _ applicable _ =>
      have unfailed : (e, scope.path, Status.fail) ∉ f.statuses := by simpa using unfailed
      have applicable : (e, scope.path, Status.applicable) ∈ f.statuses := by
        simpa using applicable
      have applies : (e, scope.path, Status.notApplicable) ∉ f.statuses :=
        fun avoided => exclusive.scope ⟨applicable, avoided⟩
      constructor <;> simp [unfailed, applicable, applies]
  | fail _ unpassed applicable _ =>
      have unpassed : (e, scope.path, Status.pass) ∉ f.statuses := by simpa using unpassed
      have applicable : (e, scope.path, Status.applicable) ∈ f.statuses := by
        simpa using applicable
      have applies : (e, scope.path, Status.notApplicable) ∉ f.statuses :=
        fun avoided => exclusive.scope ⟨applicable, avoided⟩
      constructor <;> simp [unpassed, applicable, applies]

end Facts.Exclusive

namespace Scope

variable [Fintype ε] [DecidableEq ε]

/-- What can happen to an entity, as a section sees it: one of its rules fires, or anything changes
but the statuses of the entity for the section.
-/
inductive Moves (scope : Scope) (operands : Operands) (e : ε) : Facts ε → Facts ε → Prop
  | fires {f : Facts ε} {r : Rule} (member : r ∈ scope.mainRules operands)
    (guard : f.Holds (some e) r.guard)
    : Moves scope operands e f (f.record (some e) r.effect)
  | changes {f g : Facts ε}
    (same : ∀ s, (e, scope.path, s) ∈ g.statuses ↔ (e, scope.path, s) ∈ f.statuses)
    : Moves scope operands e f g

variable {scope : Scope} {operands : Operands} {e : ε} {f g : Facts ε}

theorem Moves.exclusive (moves : scope.Moves operands e f g) (exclusive : f.Exclusive e scope.path)
    : g.Exclusive e scope.path := by
  cases moves with
  | fires member guard =>
      obtain ⟨_, statuses, effect, concludes⟩ := concludes_of_guard member guard
      rw [effect]
      exact .of_concludes concludes exclusive
  | changes same => exact exclusive.of_same same

/-- However the rules of a section and its surroundings take turns, the statuses that an entity has
for the section do not contradict each other.
-/
theorem exclusive_of_moves (unknown : ∀ s, (e, scope.path, s) ∉ f.statuses)
    (moves : Relation.ReflTransGen (scope.Moves operands e) f g)
    : g.Exclusive e scope.path := by
  induction moves with
  | refl => exact .of_unknown unknown
  | tail _ last exclusive => exact last.exclusive exclusive

/-- A door that is too narrow when its section comes to apply is widened and passes. -/
theorem exclusive_of_moves_widened_door
    : ∃ f g : Facts Unit,
        Relation.ReflTransGen
            (Scope.Moves ⟨⟨"b/s1"⟩, .requirement, none, "door"⟩
              { requires := [.test ⟨"Width", .greaterOrEqual, "900", "mm"⟩] } ())
            f g
          ∧ ((), ⟨"b/s1"⟩, .pass) ∈ g.statuses ∧ g.Exclusive () ⟨"b/s1"⟩ := by
  let scope : Scope := ⟨⟨"b/s1"⟩, .requirement, none, "door"⟩
  let operands : Operands := { requires := [.test ⟨"Width", .greaterOrEqual, "900", "mm"⟩] }
  let narrow : Facts Unit := { isA := fun _ _ => true, passes := fun _ _ => false }
  let known := narrow.record (some ()) (.setStatus scope.path [.applicable])
  let wide : Facts Unit := { known with passes := fun _ _ => true }
  have applies : scope.Moves operands () narrow known :=
    .fires (r := scope.mainRules operands |>.get ⟨0, by decide⟩) (List.get_mem _ _) (by decide)
  have widens : scope.Moves operands () known wide := .changes fun _ => Iff.rfl
  have passes
      : scope.Moves operands () wide (wide.record (some ()) (.setStatus scope.path [.pass])) :=
    .fires (r := scope.mainRules operands |>.get ⟨1, by decide⟩) (List.get_mem _ _) (by decide)
  have moves := ((Relation.ReflTransGen.single applies).tail widens).tail passes
  exact ⟨narrow, _, moves, by decide, exclusive_of_moves (by simp [narrow]) moves⟩

end Scope

end ClauseRules
