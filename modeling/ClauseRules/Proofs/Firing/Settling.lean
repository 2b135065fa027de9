import ClauseRules.Proofs.Firing.Basic

/-! Every evaluation can be brought to an end. Rules name finitely many statuses and results, so
there are only so many that can still be added.
-/

namespace ClauseRules.Facts

variable {ε : Type} [Fintype ε] [DecidableEq ε] {rules : List Rule} {f g : Facts ε}

/-- The statuses that rules may record. -/
def recordable (rules : List Rule) : Finset (ε × RulePath × Status) :=
  Finset.univ ×ˢ (rules.flatMap fun r =>
    match r.effect with
    | .setStatus target statuses => statuses.map fun s => (target, s)
    | .insertResult _ _ => []).toFinset

/-- The results that rules may record. -/
def concludable (rules : List Rule) : Finset (RulePath × Outcome) :=
  (rules.flatMap fun r =>
    match r.effect with
    | .setStatus _ _ => []
    | .insertResult rule outcome => [(rule, outcome)]).toFinset

/-- How much the rules can still add. -/
def missing (rules : List Rule) (f : Facts ε) : Nat :=
  (recordable rules \ f.statuses).card + (concludable rules \ f.results).card

omit [DecidableEq ε] in
theorem mem_recordable {r : Rule} {target : RulePath} {statuses : List Status} {e : ε}
    {s : Status} (member : r ∈ rules) (effect : r.effect = .setStatus target statuses)
    (listed : s ∈ statuses)
    : (e, target, s) ∈ recordable rules := by
  simp only [recordable, Finset.mem_product, Finset.mem_univ, List.mem_toFinset,
    List.mem_flatMap, true_and]
  exact ⟨r, member, by simpa [effect] using listed⟩

theorem mem_concludable {r : Rule} {rule : RulePath} {outcome : Outcome}
    (member : r ∈ rules) (effect : r.effect = .insertResult rule outcome)
    : (rule, outcome) ∈ concludable rules := by
  simp only [concludable, List.mem_toFinset, List.mem_flatMap]
  exact ⟨r, member, by simp [effect]⟩

/-- Facts taken from a finite stock shrink what is left of it, if they are new. -/
theorem card_sdiff_lt {α : Type} [DecidableEq α] {stock old new : Finset α}
    (grows : old ⊆ new) (differs : new ≠ old) (stocked : new ⊆ old ∪ stock)
    : (stock \ new).card < (stock \ old).card := by
  obtain ⟨a, isNew, wasMissing⟩ := Finset.exists_of_ssubset (grows.ssubset_of_ne differs.symm)
  have inStock : a ∈ stock := (Finset.mem_union.mp (stocked isNew)).resolve_left wasMissing
  refine Finset.card_lt_card (Finset.ssubset_iff_of_subset (Finset.sdiff_subset_sdiff le_rfl grows)
    |>.mpr ⟨a, ?_, ?_⟩)
  · exact Finset.mem_sdiff.mpr ⟨inStock, wasMissing⟩
  · simp [isNew]

/-- A step that adds something leaves less to be added. -/
theorem missing_lt_of_step (step : Step {r | r ∈ rules} f g) (adds : g ≠ f)
    : missing rules g < missing rules f := by
  obtain ⟨r, member, focus, _, _, rfl⟩ := step
  cases effect : r.effect with
  | setStatus target statuses =>
      rw [effect] at adds
      have grows : f.statuses ⊆ (f.record focus (.setStatus target statuses)).statuses :=
        Finset.subset_union_left
      have differs : (f.record focus (.setStatus target statuses)).statuses ≠ f.statuses :=
        fun same => adds (by simp only [record] at same ⊢; rw [same])
      have stocked
          : (f.record focus (.setStatus target statuses)).statuses
            ⊆ f.statuses ∪ recordable rules := by
        rintro ⟨e, path, s⟩ recorded
        rcases mem_record_setStatus.mp recorded with old | ⟨_, rfl, listed⟩
        · exact Finset.mem_union_left _ old
        · exact Finset.mem_union_right _ (mem_recordable member effect listed)
      exact Nat.add_lt_add_right (card_sdiff_lt grows differs stocked) _
  | insertResult rule outcome =>
      rw [effect] at adds
      have grows : f.results ⊆ insert (rule, outcome) f.results := Finset.subset_insert _ _
      have differs : insert (rule, outcome) f.results ≠ f.results :=
        fun same => adds (by simp only [record]; rw [same])
      have stocked : insert (rule, outcome) f.results ⊆ f.results ∪ concludable rules :=
        Finset.insert_subset (Finset.mem_union_right _ (mem_concludable member effect))
          Finset.subset_union_left
      exact Nat.add_lt_add_left (card_sdiff_lt grows differs stocked) _

/-- From any facts, finitely many rules reach facts to which none of them can add anything. -/
theorem exists_settled (rules : List Rule) (f : Facts ε)
    : ∃ g, Run {r | r ∈ rules} f g ∧ Settled {r | r ∈ rules} g := by
  induction left : missing rules f using Nat.strongRecOn generalizing f with
  | ind n ih =>
      by_cases settled : Settled {r | r ∈ rules} f
      · exact ⟨f, .refl, settled⟩
      · -- Some step adds something, and leaves less to be added than before.
        simp only [Settled, not_forall] at settled
        obtain ⟨g, step, adds⟩ := settled
        obtain ⟨last, run, settled⟩ := ih _ (left ▸ missing_lt_of_step step adds) g rfl
        exact ⟨last, .head step run, settled⟩

theorem exists_settled_computing (rules : RuleSet) (f : Facts ε)
    : ∃ g, Run rules.computing f g ∧ Settled rules.computing g := by
  have same : rules.computing = {r | r ∈ rules.toList.filter (·.purpose.phase == .compute)} := by
    ext r
    simp [RuleSet.computing, SortedSet.mem_toList]
  rw [same]
  exact exists_settled _ f

end ClauseRules.Facts
