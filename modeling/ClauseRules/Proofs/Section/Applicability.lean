import ClauseRules.Proofs.Rule.Evaluation
import ClauseRules.Section

/-! Whether a section applies and what it comes to, read off the values of its operands. The
conditions in rules say the same wherever they are true, and one of them is true as soon as
every operand is decided.
-/

namespace ClauseRules

variable {atom : Condition → Bool} {value : Operand → Bool}

namespace Operand

/-- What an interpretation says of an operand is what its value says. -/
structure Sound (atom : Condition → Bool) (value : Operand → Bool) (operand : Operand)
    : Prop where
  holds : operand.holds.evaluate atom = true → value operand = true
  fails : operand.fails.evaluate atom = true → value operand = false

/-- An interpretation says of an operand that it is satisfied or that it is violated. -/
def Decided (atom : Condition → Bool) (operand : Operand) : Prop :=
  operand.holds.evaluate atom = true ∨ operand.fails.evaluate atom = true

variable {operands : List Operand}

/-- What an interpretation says of the nested sections is sound if it says of none of them that it
both passed and failed.
-/
theorem sound_of_exclusive
    (exclusive
      : ∀ path, .nested path ∈ operands →
          ¬(atom (.has path .pass) = true ∧ atom (.has path .fail) = true))
    : ∀ operand ∈ operands, operand.Sound atom (·.holds.evaluate atom) := by
  intro operand member
  refine ⟨id, fun fails => ?_⟩
  cases operand with
  | test t => exact (Bool.not_eq_true' _).mp fails
  | nested path => exact Bool.eq_false_iff.mpr fun holds => exclusive path member ⟨holds, fails⟩

/-- Tests are decided in any case, so that only nested sections are to be waited for. -/
theorem decided_of_resolved
    (resolved
      : ∀ path, .nested path ∈ operands →
          atom (.has path .pass) = true ∨ atom (.has path .fail) = true)
    : ∀ operand ∈ operands, operand.Decided atom := by
  intro operand member
  cases operand with
  | test t =>
      cases truth : atom (.test t) with
      | true => exact .inl truth
      | false => exact .inr ((Bool.not_eq_true' _).mpr truth)
  | nested path => exact resolved path member

end Operand

namespace Operands

/-- The operands that decide whether the section applies. -/
def conditions (operands : Operands) : List Operand :=
  operands.applies ++ operands.selects ++ operands.excepts

/-- The section applies: all applications are satisfied, no exception is, and one of the selections
is if there are any.
-/
def inScope (value : Operand → Bool) (operands : Operands) : Bool :=
  operands.applies.all value && operands.excepts.all (!value ·)
    && (operands.selects.isEmpty || operands.selects.any value)

/-- The section passes: it does not apply, or all of its requirements are satisfied. -/
def passes (value : Operand → Bool) (operands : Operands) : Bool :=
  !operands.inScope value || operands.requires.all value

variable {operands : Operands}

theorem exists_mem_map_evaluate {f : Operand → Condition} {list : List Operand}
    : (∃ c ∈ list.map f, c.evaluate atom = true)
      ↔ ∃ operand ∈ list, (f operand).evaluate atom = true := by
  simp only [List.mem_map]
  exact ⟨fun ⟨_, ⟨operand, member, same⟩, holds⟩ => ⟨operand, member, same ▸ holds⟩,
    fun ⟨operand, member, holds⟩ => ⟨_, ⟨operand, member, rfl⟩, holds⟩⟩

theorem applicabilityTerms_iff
    : (∀ c ∈ operands.applicabilityTerms, c.evaluate atom = true)
      ↔ (∀ a ∈ operands.applies, a.holds.evaluate atom = true)
        ∧ (∀ e ∈ operands.excepts, e.fails.evaluate atom = true)
        ∧ (operands.selects = [] ∨ ∃ s ∈ operands.selects, s.holds.evaluate atom = true) := by
  have selection
      : (∀ c ∈ if operands.selects.isEmpty then [] else [.or (operands.selects.map Operand.holds)],
          Condition.evaluate atom c = true)
        ↔ operands.selects = [] ∨ ∃ s ∈ operands.selects, s.holds.evaluate atom = true := by
    by_cases none : operands.selects = []
    · simp [none]
    · simp only [List.isEmpty_iff, none, if_false, List.forall_mem_singleton, false_or,
        Condition.evaluate_or, exists_mem_map_evaluate]
  simp only [applicabilityTerms, List.mem_append, or_imp, forall_and, List.forall_mem_map,
    selection, and_assoc]

theorem inapplicability_iff
    : (∃ c, operands.inapplicability? = some c ∧ c.evaluate atom = true)
      ↔ (operands.selects ≠ [] ∧ ∀ s ∈ operands.selects, s.fails.evaluate atom = true)
        ∨ (∃ a ∈ operands.applies, a.fails.evaluate atom = true)
        ∨ ∃ e ∈ operands.excepts, e.holds.evaluate atom = true := by
  have selection
      : (∃ c ∈ if operands.selects.isEmpty then [] else [.and (operands.selects.map Operand.fails)],
          Condition.evaluate atom c = true)
        ↔ operands.selects ≠ [] ∧ ∀ s ∈ operands.selects, s.fails.evaluate atom = true := by
    by_cases none : operands.selects = []
    · simp [none]
    · simp [none]
  cases conditional : operands.hasConditions with
  | false =>
      simp only [hasConditions, Bool.not_eq_false', Bool.and_eq_true, List.isEmpty_iff]
        at conditional
      simp [inapplicability?, hasConditions, conditional]
  | true =>
      simp only [inapplicability?, conditional, Bool.not_true, Bool.false_eq_true, if_false,
        Option.some.injEq, exists_eq_left', Condition.evaluate_or, List.mem_append, or_and_right,
        exists_or, selection, exists_mem_map_evaluate, or_assoc]

theorem inScope_iff
    : operands.inScope value = true
      ↔ (∀ a ∈ operands.applies, value a = true) ∧ (∀ e ∈ operands.excepts, value e = false)
        ∧ (operands.selects = [] ∨ ∃ s ∈ operands.selects, value s = true) := by
  simp [inScope, and_assoc]

/-- A section whose applicability is true applies. -/
theorem inScope_of_applicability
    (sound : ∀ operand ∈ operands.conditions, operand.Sound atom value)
    (applies : ∀ c ∈ operands.applicabilityTerms, c.evaluate atom = true)
    : operands.inScope value = true := by
  obtain ⟨all, none, one⟩ := applicabilityTerms_iff.mp applies
  refine inScope_iff.mpr ⟨?_, ?_, ?_⟩
  · intro a member
    exact (sound a (by simp [conditions, member])).holds (all a member)
  · intro e member
    exact (sound e (by simp [conditions, member])).fails (none e member)
  · refine one.imp_right ?_
    rintro ⟨s, member, holds⟩
    exact ⟨s, member, (sound s (by simp [conditions, member])).holds holds⟩

/-- A section whose inapplicability is true does not apply. -/
theorem not_inScope_of_inapplicability
    (sound : ∀ operand ∈ operands.conditions, operand.Sound atom value)
    (avoids : ∃ c, operands.inapplicability? = some c ∧ c.evaluate atom = true)
    : operands.inScope value = false := by
  rw [Bool.eq_false_iff, ne_eq, inScope_iff]
  rintro ⟨all, none, one⟩
  rcases inapplicability_iff.mp avoids with ⟨some, fail⟩ | ⟨a, member, fails⟩ | ⟨e, member, holds⟩
  · obtain ⟨s, member, satisfied⟩ := one.resolve_left some
    have violated := (sound s (by simp [conditions, member])).fails (fail s member)
    exact Bool.false_ne_true (violated.symm.trans satisfied)
  · have violated := (sound a (by simp [conditions, member])).fails fails
    exact Bool.false_ne_true (violated.symm.trans (all a member))
  · have satisfied := (sound e (by simp [conditions, member])).holds holds
    exact Bool.false_ne_true ((none e member).symm.trans satisfied)

/-- Once all operands are decided, a section is known to apply or known not to apply. -/
theorem applicable_or_inapplicable
    (decided : ∀ operand ∈ operands.conditions, operand.Decided atom)
    : (∀ c ∈ operands.applicabilityTerms, c.evaluate atom = true)
      ∨ ∃ c, operands.inapplicability? = some c ∧ c.evaluate atom = true := by
  rw [applicabilityTerms_iff, inapplicability_iff]
  by_cases violated : ∃ a ∈ operands.applies, a.fails.evaluate atom = true
  · exact Or.inr (Or.inr (Or.inl violated))
  by_cases excepted : ∃ e ∈ operands.excepts, e.holds.evaluate atom = true
  · exact Or.inr (Or.inr (Or.inr excepted))
  by_cases rejected
      : operands.selects ≠ [] ∧ ∀ s ∈ operands.selects, s.fails.evaluate atom = true
  · exact Or.inr (Or.inl rejected)
  -- Nothing speaks against the section, and what is decided then speaks for it.
  refine Or.inl ⟨fun a member => ?_, fun e member => ?_, ?_⟩
  · exact (decided a (by simp [conditions, member])).resolve_right
      fun fails => violated ⟨a, member, fails⟩
  · exact (decided e (by simp [conditions, member])).resolve_left
      fun holds => excepted ⟨e, member, holds⟩
  · by_cases none : operands.selects = []
    · exact Or.inl none
    · simp only [not_and, Classical.not_forall] at rejected
      obtain ⟨s, member, unrejected⟩ := rejected none
      exact Or.inr
        ⟨s, member, (decided s (by simp [conditions, member])).resolve_right unrejected⟩

/-- An interpretation says that the section does not apply, which it never does of a section without
conditions.
-/
def inapplicable (atom : Condition → Bool) (operands : Operands) : Bool :=
  operands.inapplicability?.any (·.evaluate atom)

theorem inapplicable_iff
    : operands.inapplicable atom = true
      ↔ ∃ c, operands.inapplicability? = some c ∧ c.evaluate atom = true :=
  Option.any_eq_true _ _

section Decided

variable (sound : ∀ operand ∈ operands.conditions, operand.Sound atom value)
  (decided : ∀ operand ∈ operands.conditions, operand.Decided atom)

include sound decided

theorem evaluate_applicability
    : operands.applicability.evaluate atom = operands.inScope value := by
  cases scope : operands.inScope value with
  | true =>
      rcases applicable_or_inapplicable decided with applies | avoids
      · exact Condition.evaluate_and.mpr applies
      · cases scope.symm.trans (not_inScope_of_inapplicability sound avoids)
  | false =>
      refine Bool.eq_false_iff.mpr fun applies => ?_
      cases scope.symm.trans (inScope_of_applicability sound (Condition.evaluate_and.mp applies))

theorem inapplicable_eq : operands.inapplicable atom = !operands.inScope value := by
  cases scope : operands.inScope value with
  | true =>
      refine Bool.eq_false_iff.mpr fun avoids => ?_
      cases scope.symm.trans (not_inScope_of_inapplicability sound (inapplicable_iff.mp avoids))
  | false =>
      rcases applicable_or_inapplicable decided with applies | avoids
      · cases scope.symm.trans (inScope_of_applicability sound applies)
      · exact inapplicable_iff.mpr avoids

end Decided

/-- What speaks for a section and what speaks against it are never both true while no nested section
has both passed and failed, and one of them is true once every nested section has passed or
failed. Where each has done one of the two, they say whether the section applies, and each is the
negation of the other.
-/
theorem applicability_complement (operands : Operands) (atom : Condition → Bool)
    : ((∀ path, .nested path ∈ operands.conditions →
          ¬(atom (.has path .pass) = true ∧ atom (.has path .fail) = true)) →
        ¬(operands.applicability.evaluate atom = true ∧ operands.inapplicable atom = true))
      ∧ ((∀ path, .nested path ∈ operands.conditions →
          atom (.has path .pass) = true ∨ atom (.has path .fail) = true) →
        operands.applicability.evaluate atom = true ∨ operands.inapplicable atom = true)
      ∧ ((∀ path, .nested path ∈ operands.conditions →
          atom (.has path .fail) = !atom (.has path .pass)) →
        operands.applicability.evaluate atom = operands.inScope (·.holds.evaluate atom)
        ∧ operands.inapplicable atom = !operands.applicability.evaluate atom) := by
  refine ⟨fun exclusive ⟨applies, avoids⟩ => ?_, fun resolved => ?_, fun opposite => ?_⟩
  · have sound := Operand.sound_of_exclusive exclusive
    have inside := inScope_of_applicability sound (Condition.evaluate_and.mp applies)
    cases inside.symm.trans (not_inScope_of_inapplicability sound (inapplicable_iff.mp avoids))
  · exact (applicable_or_inapplicable (Operand.decided_of_resolved resolved)).imp
      Condition.evaluate_and.mpr inapplicable_iff.mpr
  · have sound : ∀ operand ∈ operands.conditions, operand.Sound atom (·.holds.evaluate atom) :=
      Operand.sound_of_exclusive fun path member ⟨passed, failed⟩ => by
        simp [opposite path member, passed] at failed
    have decided : ∀ operand ∈ operands.conditions, operand.Decided atom :=
      Operand.decided_of_resolved fun path member => by
        cases passed : atom (.has path .pass) with
        | true => exact .inl rfl
        | false => exact .inr (by rw [opposite path member, passed]; rfl)
    rw [evaluate_applicability sound decided]
    exact ⟨rfl, inapplicable_eq sound decided⟩

/-- Wide doors are selected by one of two sections, of which the second is an exception as well. -/
def contested : Operands where
  applies := [.test { property := "Width", comparator := .greater, value := "800", unit := "mm" }]
  selects := [.nested ⟨"/b/s1"⟩, .nested ⟨"/b/s2"⟩]
  excepts := [.nested ⟨"/b/s2"⟩]

/-- A wide door that passed the first section and has at most one status for the second. -/
def secondHas (status : Option Status) : Condition → Bool
  | .test _ => true
  | .status ⟨"/b/s1"⟩ s _ => s == .pass
  | .status _ s _ => some s == status
  | _ => false

/-- As long as the second section is open neither condition is true; once it failed, one is. -/
theorem applicability_complement_contested
    : ¬(contested.applicability.evaluate (secondHas none) = true
          ∧ contested.inapplicable (secondHas none) = true)
      ∧ contested.applicability.evaluate (secondHas none) = false
      ∧ contested.inapplicable (secondHas none) = false
      ∧ (∀ path, .nested path ∈ contested.conditions →
        secondHas (some .fail) (.has path .fail) = !secondHas (some .fail) (.has path .pass))
      ∧ (contested.applicability.evaluate (secondHas (some .fail)) = true
        ∨ contested.inapplicable (secondHas (some .fail)) = true)
      ∧ contested.inapplicable (secondHas (some .fail))
        = !contested.applicability.evaluate (secondHas (some .fail)) := by
  have nested {path : RulePath} (member : .nested path ∈ contested.conditions)
      : path = ⟨"/b/s1"⟩ ∨ path = ⟨"/b/s2"⟩ := by
    simpa [contested, conditions] using member
  have exclusive (path) (member : .nested path ∈ contested.conditions)
      : ¬(secondHas none (.has path .pass) = true ∧ secondHas none (.has path .fail) = true) := by
    rcases nested member with rfl | rfl <;> decide
  have opposite (path) (member : .nested path ∈ contested.conditions)
      : secondHas (some .fail) (.has path .fail) = !secondHas (some .fail) (.has path .pass) := by
    rcases nested member with rfl | rfl <;> decide
  have resolved (path) (member : .nested path ∈ contested.conditions)
      : secondHas (some .fail) (.has path .pass) = true
        ∨ secondHas (some .fail) (.has path .fail) = true := by
    rcases nested member with rfl | rfl <;> decide
  exact ⟨(applicability_complement contested (secondHas none)).1 exclusive, by decide, by decide,
    opposite, (applicability_complement contested (secondHas (some .fail))).2.1 resolved,
    ((applicability_complement contested (secondHas (some .fail))).2.2 opposite).2⟩

/-- A section whose requirements are all satisfied passes. -/
theorem passes_of_requires
    (sound : ∀ operand ∈ operands.requires, operand.Sound atom value)
    (all : ∀ operand ∈ operands.requires, operand.holds.evaluate atom = true)
    : operands.passes value = true := by
  have satisfied : operands.requires.all value = true :=
    List.all_eq_true.mpr fun operand member => (sound operand member).holds (all operand member)
  simp [passes, satisfied]

/-- A section that applies and violates a requirement does not pass. -/
theorem not_passes_of_violation (applies : operands.inScope value = true)
    (sound : ∀ operand ∈ operands.requires, operand.Sound atom value)
    (violated : ∃ operand ∈ operands.requires, operand.fails.evaluate atom = true)
    : operands.passes value = false := by
  obtain ⟨operand, member, fails⟩ := violated
  have unsatisfied : operands.requires.all value = false :=
    List.all_eq_false.mpr ⟨operand, member, by simp [(sound operand member).fails fails]⟩
  simp [passes, applies, unsatisfied]

end Operands

end ClauseRules
