import ClauseRules.Proofs.Section.Exclusivity
import ClauseRules.Proofs.Section.TransferRules

/-! Results that are carried over to entities of another class. The rules that do this look at what
is known of all entities, but not at what is already known of the entity that they match. So they
may add a pass at first and a failure later on, unless they wait until the section is decided.
-/

namespace ClauseRules

namespace Rule

/-- A rule that decides a section or carries its result over. -/
inductive Computes (r : Rule) : Prop
  | main (scope : Scope) (operands : Operands) (member : r ∈ scope.mainRules operands)
  | transfer (path child : RulePath) (object id : String)
    (member : r ∈ transferRules path object id child)

/-- The rule decides the section itself. -/
def Judges (r : Rule) (path : RulePath) : Prop :=
  r.purpose.isStatus = true ∧ ∃ statuses, r.effect = .setStatus path statuses

/-- The rule carries the result of the section over. -/
def Carries (r : Rule) (path : RulePath) : Prop :=
  r.purpose.isTransfer = true ∧ ∃ statuses, r.effect = .setStatus path statuses

theorem not_carries {r : Rule} {path : RulePath} (isStatus : r.purpose.isStatus = true)
    : ¬r.Carries path := by
  rintro ⟨isTransfer, _⟩
  cases isTransfer.symm.trans (Purpose.not_isTransfer isStatus)

theorem not_judges {r : Rule} {path : RulePath} (isTransfer : r.purpose.isTransfer = true)
    : ¬r.Judges path := by
  rintro ⟨isStatus, _⟩
  cases isTransfer.symm.trans (Purpose.not_isTransfer isStatus)

end Rule

namespace Facts

variable {ε : Type} [Fintype ε] [DecidableEq ε] {f g : Facts ε} {rules : Set Rule}
  {path : RulePath} {e : ε}

/-- The entity is one of those on which rules decide the section. -/
def Judged (f : Facts ε) (rules : Set Rule) (path : RulePath) (e : ε) : Prop :=
  ∃ r ∈ rules, r.Judges path ∧ f.Matches r (some e)

/-- The entity is one of those that the result of the section is carried over to. -/
def Receives (f : Facts ε) (rules : Set Rule) (path : RulePath) (e : ε) : Prop :=
  ∃ r ∈ rules, r.Carries path ∧ f.Matches r (some e)

theorem run_matches {r : Rule} {focus : Option ε} (run : f.Run rules g)
    : g.Matches r focus ↔ f.Matches r focus := by
  cases focus <;> simp [Matches, run_isA run]

theorem judged_of_run {others : Set Rule} (run : f.Run rules g) (judged : g.Judged others path e)
    : f.Judged others path e := by
  obtain ⟨r, member, judges, fits⟩ := judged
  exact ⟨r, member, judges, (run_matches run).mp fits⟩

theorem receives_of_run {others : Set Rule} (run : f.Run rules g)
    (receives : g.Receives others path e)
    : f.Receives others path e := by
  obtain ⟨r, member, carries, fits⟩ := receives
  exact ⟨r, member, carries, (run_matches run).mp fits⟩

/-! ### Steps -/

/-- What a rule finds out about an entity and a section. -/
inductive Finds (f : Facts ε) (rules : Set Rule) (e : ε) : RulePath → List Status → Prop
  | judges {scope : Scope} {operands : Operands} {statuses : List Status}
    (judged : f.Judged rules scope.path e)
    (concludes : scope.Concludes operands (f.truth (some e)) statuses)
    : Finds f rules e scope.path statuses
  | passes {path : RulePath} (receives : f.Receives rules path e)
    (all
      : ∀ other, (other, path, .applicable) ∈ f.statuses → (other, path, .pass) ∈ f.statuses)
    : Finds f rules e path [.pass]
  | fails {path : RulePath} (receives : f.Receives rules path e)
    (some : ∃ other, (other, path, .fail) ∈ f.statuses)
    : Finds f rules e path [.fail]

/-- Each step records what a rule finds out about one entity and one section. -/
theorem finds_of_step (computes : ∀ r ∈ rules, r.Computes) (step : f.Step rules g)
    : ∃ e path statuses,
        f.Finds rules e path statuses ∧ g = f.record (some e) (.setStatus path statuses) := by
  obtain ⟨r, member, focus, fits, holds, rfl⟩ := step
  cases computes r member with
  | main scope operands main =>
      obtain ⟨_, typed, isStatus, _⟩ := Scope.mainRules_shape main
      obtain ⟨_, statuses, effect, concludes⟩ := Scope.concludes_of_guard main holds
      cases focus with
      | none => cases typed.symm.trans fits
      | some e =>
          rw [effect]
          refine ⟨e, scope.path, statuses, ?_, rfl⟩
          exact .judges ⟨r, member, ⟨isStatus, statuses, effect⟩, fits⟩ concludes
  | transfer path child object id transfer =>
      obtain ⟨_, typed, _, isTransfer, s, effect⟩ := transferRules_shape transfer
      cases focus with
      | none => cases typed.symm.trans fits
      | some e =>
          have receives : f.Receives rules child e := ⟨r, member, ⟨isTransfer, [s], effect⟩, fits⟩
          -- The three rules: all entities pass, the section applies to none, or some entity fails.
          rcases mem_transferRules.mp transfer with rfl | rfl | rfl
          · exact ⟨e, child, [.pass], .passes receives (by simpa using holds), rfl⟩
          · refine ⟨e, child, [.pass], .passes receives fun other applicable => ?_, rfl⟩
            have unapplied : ∀ other, (other, child, .applicable) ∉ f.statuses := by
              simpa using holds
            exact absurd applicable (unapplied other)
          · exact ⟨e, child, [.fail], .fails receives (by simpa using holds), rfl⟩

omit [Fintype ε] in
/-- Statuses stay as they are where a step is about another entity or another section. -/
theorem mem_record_of_apart {e other : ε} {path target : RulePath} {statuses : List Status}
    (apart : other ≠ e ∨ target ≠ path) (s : Status)
    : (e, path, s) ∈ (f.record (some other) (.setStatus target statuses)).statuses
      ↔ (e, path, s) ∈ f.statuses := by
  rw [mem_record_setStatus]
  constructor
  · rintro (before | ⟨same, rfl, _⟩)
    · exact before
    · exact absurd (Option.some.inj same) (by simpa using apart)
  · exact .inl

/-! ### Entities that no result is carried over to -/

theorem exclusive_of_step (computes : ∀ r ∈ rules, r.Computes)
    (unreached : ¬f.Receives rules path e) (exclusive : f.Exclusive e path)
    (step : f.Step rules g)
    : g.Exclusive e path := by
  obtain ⟨other, target, statuses, finds, rfl⟩ := finds_of_step computes step
  by_cases here : other = e ∧ target = path
  · obtain ⟨rfl, rfl⟩ := here
    cases finds with
    | judges _ concludes => exact .of_concludes concludes exclusive
    | passes receives => exact absurd receives unreached
    | fails receives => exact absurd receives unreached
  · exact exclusive.of_same (mem_record_of_apart (not_and_or.mp here))

theorem exclusive_of_run (computes : ∀ r ∈ rules, r.Computes)
    (unreached : ¬f.Receives rules path e) (unknown : ∀ s, (e, path, s) ∉ f.statuses)
    (run : f.Run rules g)
    : g.Exclusive e path := by
  induction run with
  | refl => exact .of_unknown unknown
  | tail before step ih =>
      exact exclusive_of_step computes (fun receives => unreached (receives_of_run before receives))
        ih step

/-- Nothing is found out about an entity that no rule about the section matches. -/
theorem unknown_of_run (computes : ∀ r ∈ rules, r.Computes) (unjudged : ¬f.Judged rules path e)
    (unreached : ¬f.Receives rules path e) (unknown : ∀ s, (e, path, s) ∉ f.statuses)
    (run : f.Run rules g)
    : ∀ s, (e, path, s) ∉ g.statuses := by
  induction run with
  | refl => exact unknown
  | tail before step ih =>
      obtain ⟨other, target, statuses, finds, rfl⟩ := finds_of_step computes step
      by_cases here : other = e ∧ target = path
      · obtain ⟨rfl, rfl⟩ := here
        cases finds with
        | judges judged => exact absurd (judged_of_run before judged) unjudged
        | passes receives => exact absurd (receives_of_run before receives) unreached
        | fails receives => exact absurd (receives_of_run before receives) unreached
      · intro s
        rw [mem_record_of_apart (not_and_or.mp here)]
        exact ih s

/-! ### Failures -/

/-- Every failure goes back to an entity that the section applies to. -/
def FailureApplies (f : Facts ε) (path : RulePath) : Prop :=
  ∀ e, (e, path, .fail) ∈ f.statuses →
    ∃ other, (other, path, .applicable) ∈ f.statuses ∧ (other, path, .fail) ∈ f.statuses

theorem failureApplies_of_run (computes : ∀ r ∈ rules, r.Computes)
    (unknown : ∀ e s, (e, path, s) ∉ f.statuses) (run : f.Run rules g)
    : g.FailureApplies path := by
  induction run with
  | refl => exact fun e failed => absurd failed (unknown e _)
  | @tail h _ _ step ih =>
      obtain ⟨e, target, statuses, finds, rfl⟩ := finds_of_step computes step
      have kept {other : ε} {s : Status} (known : (other, path, s) ∈ h.statuses)
          : (other, path, s) ∈ (h.record (some e) (.setStatus target statuses)).statuses :=
        mem_record_setStatus.mpr (.inl known)
      intro reached failed
      rcases mem_record_setStatus.mp failed with before | ⟨same, rfl, listed⟩
      · obtain ⟨other, applicable, failed⟩ := ih reached before
        exact ⟨other, kept applicable, kept failed⟩
      · cases same
        cases finds with
        | passes => simp at listed
        | fails _ some =>
            obtain ⟨first, failed⟩ := some
            obtain ⟨other, applicable, failed⟩ := ih first failed
            exact ⟨other, kept applicable, kept failed⟩
        | judges _ concludes =>
            -- Of the conclusions, only the last one is a failure, and the section applies there.
            cases concludes with
            | fail _ _ applicable =>
                exact ⟨e, kept (by simpa using applicable), failed⟩
            | _ => simp at listed

/-! ### Results that are carried over after the section is decided -/

/-- Where no entity fails, no failure is carried over. -/
theorem unfailed_of_run (computes : ∀ r ∈ rules, r.Computes)
    (decided : ∀ r ∈ rules, ¬r.Judges path) (unfailed : ∀ e, (e, path, .fail) ∉ f.statuses)
    (run : f.Run rules g)
    : ∀ e, (e, path, .fail) ∉ g.statuses := by
  induction run with
  | refl => exact unfailed
  | tail _ step ih =>
      obtain ⟨e, target, statuses, finds, rfl⟩ := finds_of_step computes step
      intro reached failed
      rcases mem_record_setStatus.mp failed with before | ⟨_, rfl, listed⟩
      · exact ih reached before
      · cases finds with
        | judges judged =>
            obtain ⟨r, member, judges, _⟩ := judged
            exact decided r member judges
        | passes => simp at listed
        | fails _ some =>
            obtain ⟨other, failed⟩ := some
            exact ih other failed

/-- Only failures were carried over since a state. -/
structure OnlyFailed (f g : Facts ε) (rules : Set Rule) (path : RulePath) : Prop where
  kept : ∀ e s, (e, path, s) ∈ f.statuses → (e, path, s) ∈ g.statuses
  passed : ∀ e, (e, path, .pass) ∈ g.statuses → (e, path, .pass) ∈ f.statuses
  failed
    : ∀ e, (e, path, .fail) ∈ g.statuses → (e, path, .fail) ∈ f.statuses ∨ f.Receives rules path e

/-- As long as some entity that the section applies to does not pass, no pass is carried over. -/
theorem onlyFailed_of_run (computes : ∀ r ∈ rules, r.Computes)
    (decided : ∀ r ∈ rules, ¬r.Judges path) {witness : ε}
    (applicable : (witness, path, .applicable) ∈ f.statuses)
    (unpassed : (witness, path, .pass) ∉ f.statuses) (run : f.Run rules g)
    : f.OnlyFailed g rules path := by
  induction run with
  | refl => exact ⟨fun _ _ known => known, fun _ known => known, fun _ known => .inl known⟩
  | @tail h _ before step ih =>
      obtain ⟨e, target, statuses, finds, rfl⟩ := finds_of_step computes step
      by_cases here : target = path
      · subst here
        cases finds with
        | judges judged =>
            obtain ⟨r, member, judges, _⟩ := judged
            exact absurd judges (decided r member)
        | passes _ all =>
            exact absurd (ih.passed witness (all witness (ih.kept _ _ applicable))) unpassed
        | fails receives =>
            refine ⟨fun other s known => ?_, fun other known => ?_, fun other known => ?_⟩
            · exact mem_record_setStatus.mpr (.inl (ih.kept other s known))
            · rcases mem_record_setStatus.mp known with old | ⟨_, _, listed⟩
              · exact ih.passed other old
              · simp at listed
            · rcases mem_record_setStatus.mp known with old | ⟨same, _, _⟩
              · exact ih.failed other old
              · cases same
                exact .inr (receives_of_run before receives)
      · have same (other : ε) (s : Status)
            : (other, path, s) ∈ (h.record (some e) (.setStatus target statuses)).statuses
              ↔ (other, path, s) ∈ h.statuses :=
          mem_record_of_apart (.inr here) s
        refine ⟨fun other s known => ?_, fun other known => ?_, fun other known => ?_⟩
        · exact (same other s).mpr (ih.kept other s known)
        · exact ih.passed other ((same other _).mp known)
        · exact ih.failed other ((same other _).mp known)

/-- If results are carried over only after the section is decided, no entity comes to pass and to
fail, unless it is decided itself and receives the result of others as well.
-/
theorem consistent_of_phases {middle : Facts ε} (computes : ∀ r ∈ rules, r.Computes)
    (unknown : ∀ e s, (e, path, s) ∉ f.statuses)
    (deciding : f.Run {r ∈ rules | ¬r.Carries path} middle)
    (carrying : middle.Run {r ∈ rules | ¬r.Judges path} g)
    (apart : ¬(f.Judged rules path e ∧ f.Receives rules path e))
    : ¬((e, path, .pass) ∈ g.statuses ∧ (e, path, .fail) ∈ g.statuses) := by
  rintro ⟨passed, failed⟩
  have computesFirst : ∀ r ∈ {r ∈ rules | ¬r.Carries path}, r.Computes :=
    fun r member => computes r member.1
  have computesLast : ∀ r ∈ {r ∈ rules | ¬r.Judges path}, r.Computes :=
    fun r member => computes r member.1
  have decided : ∀ r ∈ {r ∈ rules | ¬r.Judges path}, ¬r.Judges path := fun _ member => member.2
  have unreached (other : ε) : ¬f.Receives {r ∈ rules | ¬r.Carries path} path other := by
    rintro ⟨r, member, carries, _⟩
    exact member.2 carries
  have exclusive (other : ε) : middle.Exclusive other path :=
    exclusive_of_run computesFirst (unreached other) (unknown other) deciding
  by_cases someFails : ∃ other, (other, path, .fail) ∈ middle.statuses
  · obtain ⟨other, fails⟩ := someFails
    have unpassed : (other, path, .pass) ∉ middle.statuses :=
      fun passes => (exclusive other).verdict ⟨passes, fails⟩
    have only := onlyFailed_of_run computesLast decided ((exclusive other).applicable_of_fail fails)
      unpassed carrying
    have passedBefore := only.passed e passed
    rcases only.failed e failed with failedBefore | ⟨r, member, carries, fits⟩
    · exact (exclusive e).verdict ⟨passedBefore, failedBefore⟩
    · -- The entity receives results, so it has none of its own.
      have receives : f.Receives rules path e :=
        ⟨r, member.1, carries, (run_matches deciding).mp fits⟩
      have unjudged : ¬f.Judged {r ∈ rules | ¬r.Carries path} path e :=
        fun ⟨q, listed, judges, matched⟩ => apart ⟨⟨q, listed.1, judges, matched⟩, receives⟩
      exact unknown_of_run computesFirst unjudged (unreached e) (unknown e) deciding _ passedBefore
  · have unfailed : ∀ other, (other, path, .fail) ∉ middle.statuses :=
      fun other fails => someFails ⟨other, fails⟩
    exact unfailed_of_run computesLast decided unfailed carrying e failed

end Facts

end ClauseRules
