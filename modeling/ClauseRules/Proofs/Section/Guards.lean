import ClauseRules.Proofs.Section.Operands
import ClauseRules.Proofs.Section.StatusRules

/-! What the guards of status rules are made of. They are conjunctions, and all that stands in them
is put together by the connectives from operands of the section and from statuses of the section and
of the one around it.
-/

namespace ClauseRules

/-- The connectives keep the property. -/
structure Condition.Closed (P : Condition → Prop) : Prop where
  not : ∀ {c : Condition}, P c → P (.not c)
  and : ∀ {terms : List Condition}, (∀ c ∈ terms, P c) → P (.and terms)
  or : ∀ {terms : List Condition}, (∀ c ∈ terms, P c) → P (.or terms)

variable {P : Condition → Prop} {operands : Operands} {scope : Scope} {r : Rule}

namespace Operands

variable (closed : Condition.Closed P)
  (each : ∀ k, ∀ operand ∈ operands.role k, P operand.holds ∧ P operand.fails)

include closed each

theorem forall_applicabilityTerms : ∀ c ∈ operands.applicabilityTerms, P c := by
  simp only [applicabilityTerms, List.forall_mem_append, List.forall_mem_map]
  refine ⟨⟨fun o listed => (each .application o listed).1,
    fun o listed => (each .exception o listed).2⟩, ?_⟩
  split
  · exact List.forall_mem_nil _
  · refine List.forall_mem_singleton.mpr (closed.or ?_)
    exact List.forall_mem_map.mpr fun o listed => (each .selection o listed).1

theorem of_inapplicability {c : Condition} (conditional : operands.inapplicability? = some c)
    : P c := by
  simp only [inapplicability?] at conditional
  split at conditional
  · cases conditional
  · cases conditional
    refine closed.or ?_
    simp only [List.forall_mem_append, List.forall_mem_map]
    refine ⟨⟨?_, fun o listed => (each .application o listed).2⟩,
      fun o listed => (each .exception o listed).1⟩
    split
    · exact List.forall_mem_nil _
    · refine List.forall_mem_singleton.mpr (closed.and ?_)
      exact List.forall_mem_map.mpr fun o listed => (each .selection o listed).2

end Operands

namespace Scope

theorem forall_ancestorGuard
    (around
      : ∀ ancestor, scope.ancestor = some ancestor →
          ∀ s negated, P (.status ancestor s negated))
    : ∀ c ∈ scope.ancestorGuard, P c := by
  simp only [ancestorGuard]
  cases above : scope.ancestor with
  | none => exact List.forall_mem_nil _
  | some ancestor =>
      have status := around ancestor above
      cases scope.kind == .requirement with
      | true => simpa using ⟨status .fail true, status .pass true, status .applicable false⟩
      | false => simpa using ⟨status .fail true, status .pass true⟩

/-- What holds of the operands and of the statuses holds of all that a status rule asks for. -/
theorem exists_conjuncts (closed : Condition.Closed P)
    (each : ∀ k, ∀ operand ∈ operands.role k, P operand.holds ∧ P operand.fails)
    (own : ∀ s negated, P (.status scope.path s negated))
    (around
      : ∀ ancestor, scope.ancestor = some ancestor →
          ∀ s negated, P (.status ancestor s negated))
    (member : r ∈ scope.mainRules operands)
    : ∃ conjuncts, r.guard = .and conjuncts ∧ ∀ c ∈ conjuncts, P c := by
  suffices terms
      : ∃ purpose terms statuses,
          scope.statusRule purpose terms statuses = r ∧ ∀ c ∈ terms, P c by
    obtain ⟨purpose, terms, statuses, rfl, each⟩ := terms
    exact ⟨_, rfl, List.forall_mem_append.mpr ⟨forall_ancestorGuard around, each⟩⟩
  have undecided
      : ∀ c ∈ [Condition.lacks scope.path .fail, .lacks scope.path .pass,
          .has scope.path .applicable], P c := by
    simpa using ⟨own .fail true, own .pass true, own .applicable false⟩
  rcases mem_mainRules.mp member with ⟨c, conditional, rfl⟩ | rfl | rfl | ⟨_, rfl⟩
  · refine ⟨_, _, _, rfl, ?_⟩
    simpa using
      ⟨own .notApplicable true, own .applicable true,
        Operands.of_inapplicability closed each conditional⟩
  · refine ⟨_, _, _, rfl, List.forall_mem_append.mpr ⟨?_, ?_⟩⟩
    · simpa using ⟨own .applicable true, own .notApplicable true⟩
    · exact Operands.forall_applicabilityTerms closed each
  · refine ⟨_, _, _, rfl, List.forall_mem_append.mpr ⟨undecided, ?_⟩⟩
    exact List.forall_mem_map.mpr fun o listed => (each .requirement o listed).1
  · refine ⟨_, _, _, rfl, List.forall_mem_append.mpr ⟨undecided, ?_⟩⟩
    refine List.forall_mem_singleton.mpr (closed.or ?_)
    exact List.forall_mem_map.mpr fun o listed => (each .requirement o listed).2

end Scope

end ClauseRules
