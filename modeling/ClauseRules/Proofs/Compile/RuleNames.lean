import ClauseRules.Proofs.Compile.Clauses
import ClauseRules.Proofs.Rule.Names

/-! The rules of a tree by their ids. Rules of one section differ in purpose or in the section that
they carry a result over from, and ids tell both. Rules of different sections have different ids
where no path continues another one.
-/

namespace ClauseRules

variable {q r : Rule} {c left : Container} {ancestor : Option RulePath} {object : String}

/-! ### Rules of one section -/

theorem Scope.mainRules_named {scope : Scope} {operands : Operands}
    (member : r ∈ scope.mainRules operands)
    : r.purpose ∈ Purpose.own ∧ r.id = scope.path.ruleId r.purpose.suffix := by
  rcases mem_mainRules.mp member with ⟨c, _, rfl⟩ | rfl | rfl | ⟨_, rfl⟩
  all_goals exact ⟨by simp [statusRule, Purpose.own], rfl⟩

theorem Scope.eq_of_purpose {scope : Scope} {operands : Operands}
    (first : q ∈ scope.mainRules operands) (second : r ∈ scope.mainRules operands)
    (same : q.purpose = r.purpose)
    : q = r := by
  rcases mem_mainRules.mp first with ⟨c, condition, rfl⟩ | rfl | rfl | ⟨_, rfl⟩
  · rcases mem_mainRules.mp second with ⟨d, other, rfl⟩ | rfl | rfl | ⟨_, rfl⟩
    · rw [Option.some.inj (condition.symm.trans other)]
    all_goals cases same
  all_goals
    rcases mem_mainRules.mp second with ⟨_, _, rfl⟩ | rfl | rfl | ⟨_, rfl⟩
    all_goals first | rfl | cases same

theorem aggregationRules_named {path : RulePath} (member : r ∈ aggregationRules path)
    : r.purpose ∈ Purpose.own ∧ r.id = path.ruleId r.purpose.suffix := by
  rcases mem_aggregationRules.mp member with rfl | rfl | rfl
  all_goals exact ⟨by simp [Purpose.own], rfl⟩

theorem aggregationRules_eq {path : RulePath} (first : q ∈ aggregationRules path)
    (second : r ∈ aggregationRules path) (same : q.purpose = r.purpose)
    : q = r := by
  rcases mem_aggregationRules.mp first with rfl | rfl | rfl
  all_goals
    rcases mem_aggregationRules.mp second with rfl | rfl | rfl
    all_goals first | rfl | cases same

theorem transferRules_named {path child : RulePath} {id : String}
    (member : r ∈ transferRules path object id child)
    : r.purpose ∈ Purpose.transfers
      ∧ r.id = path.ruleId ("Transfer_" ++ id ++ "_" ++ r.purpose.suffix) := by
  rcases mem_transferRules.mp member with rfl | rfl | rfl
  all_goals exact ⟨by simp [Purpose.transfers], rfl⟩

theorem transferRules_eq {path child : RulePath} {id : String}
    (first : q ∈ transferRules path object id child)
    (second : r ∈ transferRules path object id child) (same : q.purpose = r.purpose)
    : q = r := by
  rcases mem_transferRules.mp first with rfl | rfl | rfl
  all_goals
    rcases mem_transferRules.mp second with rfl | rfl | rfl
    all_goals first | rfl | cases same

theorem Rule.Makes.named {paths : List RulePath} (makes : r.Makes paths) : r.Named := by
  cases makes with
  | main scope operands listed member =>
      obtain ⟨purpose, id⟩ := Scope.mainRules_named member
      exact .own purpose ((Scope.mainRules_shape member).1 ▸ id)
  | summary path listed member =>
      obtain ⟨purpose, id⟩ := aggregationRules_named member
      exact .own purpose ((aggregationRules_shape member).1 ▸ id)
  | transfer path child object id listed below member =>
      obtain ⟨purpose, id⟩ := transferRules_named member
      exact .transfer _ purpose ((transferRules_shape member).1 ▸ id)

theorem Container.ownRules_named (member : r ∈ c.ownRules ancestor object left)
    : r.purpose ∈ Purpose.own ∧ r.id = c.path.ruleId r.purpose.suffix := by
  rcases mem_ownRules.mp member with main | summary
  · obtain ⟨purpose, id⟩ := Scope.mainRules_named main
    exact ⟨purpose, id⟩
  · exact aggregationRules_named summary

theorem Container.ownRules_eq (first : q ∈ c.ownRules ancestor object left)
    (second : r ∈ c.ownRules ancestor object left) (same : q.id = r.id)
    : q = r := by
  obtain ⟨listed, id⟩ := ownRules_named first
  obtain ⟨also, other⟩ := ownRules_named second
  have purposes : q.purpose = r.purpose :=
    Purpose.eq_of_suffix_own _ listed _ also
      (RulePath.ruleId_injective (id.symm.trans (same.trans other)))
  rcases mem_ownRules.mp first with main | summary
  · rcases mem_ownRules.mp second with main' | summary
    · exact Scope.eq_of_purpose main main' purposes
    · have status := (Scope.mainRules_shape main).2.2.1
      rw [purposes, (aggregationRules_shape summary).2.1] at status
      cases status
  · rcases mem_ownRules.mp second with main | summary'
    · have status := (Scope.mainRules_shape main).2.2.1
      rw [← purposes, (aggregationRules_shape summary).2.1] at status
      cases status
    · exact aggregationRules_eq summary summary' purposes

/-- The rules that carry results over from sections with different ids have different ids. -/
theorem CompiledPart.transfers_eq {path : RulePath} {parts : List CompiledPart}
    (distinct : (parts.map (·.left.id)).Nodup) (first : q ∈ transfers path object parts)
    (second : r ∈ transfers path object parts) (same : q.id = r.id)
    : q = r := by
  obtain ⟨a, listed, _, _, first⟩ := mem_transfers.mp first
  obtain ⟨b, also, _, _, second⟩ := mem_transfers.mp second
  obtain ⟨purpose, id⟩ := transferRules_named first
  obtain ⟨otherPurpose, other⟩ := transferRules_named second
  have suffixes := RulePath.ruleId_injective (id.symm.trans (same.trans other))
  -- Ids of sections may have underscores, the ends of these names have none.
  have texts
      : ("Transfer_".toList ++ a.left.id.text.toList) ++ '_' :: q.purpose.suffix.toList
        = ("Transfer_".toList ++ b.left.id.text.toList) ++ '_' :: r.purpose.suffix.toList := by
    simpa using congrArg String.toList suffixes
  obtain ⟨ids, ends⟩ :=
    eq_of_last_cut (Purpose.suffix_transfers _ purpose) (Purpose.suffix_transfers _ otherPurpose)
      texts
  have sameId : a.left.id = b.left.id :=
    NodeId.eq_of_text (String.toList_inj.mp (List.append_cancel_left ids))
  obtain rfl : a = b := List.inj_on_of_nodup_map distinct listed also sameId
  exact transferRules_eq first second
    (Purpose.eq_of_suffix_transfers _ purpose _ otherPurpose (String.toList_inj.mp ends))

theorem own_id_ne_transfer {parts : List CompiledPart}
    (own : q ∈ c.ownRules ancestor object left)
    (transfer : r ∈ CompiledPart.transfers c.path object parts)
    : q.id ≠ r.id := by
  intro same
  obtain ⟨listed, id⟩ := Container.ownRules_named own
  obtain ⟨part, _, _, _, transfer⟩ := CompiledPart.mem_transfers.mp transfer
  obtain ⟨_, other⟩ := transferRules_named transfer
  have suffixes := RulePath.ruleId_injective (id.symm.trans (same.trans other))
  have begins := Purpose.head_suffix_own _ listed
  rw [suffixes] at begins
  simp at begins

/-- The rules that a section adds to those of its parts are about the section. -/
theorem clause_of_rest {parts : List CompiledPart}
    (member
      : r ∈ c.ownRules ancestor object left ∨ r ∈ CompiledPart.transfers c.path object parts)
    : r.clause = c.path := by
  rcases member with own | transfer
  · rcases Container.mem_ownRules.mp own with main | summary
    · exact (Scope.mainRules_shape main).1
    · exact (aggregationRules_shape summary).1
  · obtain ⟨part, _, _, _, transfer⟩ := CompiledPart.mem_transfers.mp transfer
    exact (transferRules_shape transfer).1

/-- The rules that a section adds to those of its parts have different ids. -/
theorem eq_of_rest {parts : List CompiledPart} (distinct : (parts.map (·.left.id)).Nodup)
    (first
      : q ∈ c.ownRules ancestor object left ∨ q ∈ CompiledPart.transfers c.path object parts)
    (second
      : r ∈ c.ownRules ancestor object left ∨ r ∈ CompiledPart.transfers c.path object parts)
    (same : q.id = r.id)
    : q = r := by
  rcases first with own | transfer
  · rcases second with own' | transfer
    · exact Container.ownRules_eq own own' same
    · exact absurd same (own_id_ne_transfer own transfer)
  · rcases second with own | transfer'
    · exact absurd same.symm (own_id_ne_transfer own transfer)
    · exact CompiledPart.transfers_eq distinct transfer transfer' same

/-! ### Rules of different sections -/

namespace Compiles

variable {env : CompileEnv} {repeats : NodeId → Prop} {context : Option String} {y : Yield}

theorem distinct_partIds {parts : List CompiledPart} (origins : parts.map (·.origin) = c.parts)
    (distinct : c.ids.Nodup)
    : (parts.flatMap (·.origin.ids)).Nodup := by
  rw [Container.ids_eq c, ← origins, List.flatMap_map, List.nodup_cons] at distinct
  exact distinct.2

/-- What is left of the parts of a tree has different ids where its sections have. -/
theorem distinct_leftIds {parts : List CompiledPart} (origins : parts.map (·.origin) = c.parts)
    (below
      : ∀ part ∈ parts, Compiles env repeats (some c.path) part.entered part.origin part.toYield)
    (distinct : c.ids.Nodup)
    : (parts.map (·.left.id)).Nodup := by
  have disjoint := (List.nodup_flatMap.mp (distinct_partIds origins distinct)).2
  refine List.pairwise_map.mpr (disjoint.imp_of_mem fun {a b} first second apart same => ?_)
  rw [(below a first).id_eq, (below b second).id_eq] at same
  exact apart Container.id_mem_ids (same ▸ Container.id_mem_ids)

/-- Rules of one tree that are about one section and have one id are equal. -/
theorem eq_of_id (compiles : Compiles env repeats ancestor context c y) (paths : c.paths.Nodup)
    (ids : c.ids.Nodup) (first : q ∈ y.rules) (second : r ∈ y.rules)
    (clause : q.clause = r.clause) (same : q.id = r.id)
    : q = r := by
  induction compiles with
  | repeated | empty => exact absurd first List.not_mem_nil
  | @tags ancestor context c =>
      simp only at first second
      split at first
      · exact absurd first List.not_mem_nil
      · split at second
        · exact absurd second List.not_mem_nil
        · exact Container.ownRules_eq first second same
  | @sections ancestor context c object left parts nested origins entered below resolved rest ih =>
      have inPart {part : CompiledPart} (listed : part ∈ parts) {rule : Rule}
          (member : rule ∈ part.rules)
          : rule.clause ∈ part.origin.paths :=
        ((below part listed).makes member).clause_mem
      simp only [List.append_assoc, List.mem_append] at first second
      -- The clause tells apart the rules of the parts and those of the section itself.
      rcases first with first | first
      · obtain ⟨a, listed, first⟩ := List.mem_flatMap.mp first
        rcases second with second | second
        · obtain ⟨b, also, second⟩ := List.mem_flatMap.mp second
          obtain rfl : a = b :=
            part_eq origins paths listed also (inPart listed first)
              (clause ▸ inPart also second)
          exact ih a listed (distinct_part origins paths listed)
            ((List.nodup_flatMap.mp (distinct_partIds origins ids)).1 a listed) first second
        · have inside := inPart listed first
          rw [clause, clause_of_rest second] at inside
          exact absurd inside (apart origins paths listed)
      · rcases second with second | second
        · obtain ⟨b, also, second⟩ := List.mem_flatMap.mp second
          have inside := inPart also second
          rw [← clause, clause_of_rest first] at inside
          exact absurd inside (apart origins paths also)
        · exact eq_of_rest (distinct_leftIds origins below ids) first second same

end Compiles

end ClauseRules
