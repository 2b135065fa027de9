import ClauseRules.Proofs.Name.Joining
import ClauseRules.Proofs.Record.Rules

/-! Targets of steps. A step that waits for another one names it by the clause and the number of
that step as they are written. The name is spelled like the path of the result of that step, so that
what is waited for is what is recorded.
-/

namespace ClauseRules

variable {step : Step} {groups : List RecordGroup} {name : String} {rules : RuleSet}

/-! ### Rules of steps -/

theorem known_of_compileRecords (succeeds : (compileRecords name groups).1 = .ok rules)
    : ∀ step ∈ groups.flatMap (·.steps), step.isKnown = true := by
  intro step member
  obtain ⟨made, compiled, _⟩ := exists_of_map succeeds
  cases unknown : (groups.flatMap (·.steps)).find? (!·.isKnown) with
  | none => simpa using List.find?_eq_none.mp unknown step member
  | some first =>
      have failed := groupRules_eq_error.mpr ⟨first, unknown, rfl⟩
      rw [failed] at compiled
      cases compiled

/-- Every step has a rule, which records its result and asks for what its command is about last. -/
theorem exists_rule_of_step (succeeds : (compileRecords name groups).1 = .ok rules)
    (member : step ∈ groups.flatMap (·.steps))
    : ∃ r ∈ rules,
        r.purpose = .stepPass ∧ r.id = step.ruleId
        ∧ r.effect = .insertResult step.resultPath .pass
        ∧ ∃ awaited command,
          Command.ofText? step.command = some command
          ∧ r.guard = .and (awaited ++ [command.guard step.noun]) := by
  have known := known_of_compileRecords succeeds
  obtain ⟨command, found⟩ := Command.exists_ofText? (known step member)
  obtain ⟨made, compiled, members⟩ := exists_groupRules known
  obtain ⟨all, same, _, inside⟩ := exists_compileRecords name compiled
  obtain rfl := Except.ok.inj (succeeds.symm.trans same)
  obtain ⟨group, listed, within⟩ := List.mem_flatMap.mp member
  obtain ⟨place, here⟩ := List.getElem?_of_mem within
  have own := (members _).mpr ⟨group, listed, place, step, command, here, found, rfl⟩
  exact ⟨_, (inside _).mpr (.inl own), rfl, rfl, rfl, _, command, found, rfl⟩

/-! ### Targets -/

section

variable {clause number : String}

theorem RulePath.ofText_append (lower : clause.startsWith "http" = false)
    (upper : clause.startsWith "Http" = false) (spaceless : ' ' ∉ number.toList)
    : ofText (clause ++ "_" ++ number) = ofText ((ofText clause).ruleId number) :=
  congrArg RulePath.mk (Name.ofRule_ofRule_append lower upper spaceless)

/-- A step that waits for the step of some number of a clause finds it, if the clause is not written
like an address and the number without spaces. The clause and the number joined spell the path that
the result of that step is recorded at. Where records compile, every step of that clause and number
has a rule that records there that it passed, and every step that waits for it has one whose guard
asks for just that.
-/
theorem compileRecords_targets (lower : clause.startsWith "http" = false)
    (upper : clause.startsWith "Http" = false) (spaceless : ' ' ∉ number.toList)
    : RulePath.ofText (clause ++ "_" ++ number)
        = RulePath.ofText ((RulePath.ofText clause).ruleId number)
      ∧ ∀ {name groups rules}, (compileRecords name groups).1 = .ok rules →
        (∀ target ∈ groups.flatMap (·.steps), target.clause = clause → target.number = number →
          ∃ r ∈ rules,
            r.purpose = .stepPass ∧ r.id = (RulePath.ofText clause).ruleId number
            ∧ r.effect = .insertResult (RulePath.ofText (clause ++ "_" ++ number)) .pass)
        ∧ ∀ step ∈ groups.flatMap (·.steps),
          Command.ofText? step.command = some .to → step.noun = clause ++ "_" ++ number →
          ∃ r ∈ rules,
            r.purpose = .stepPass ∧ r.id = step.ruleId
            ∧ ∃ awaited,
              r.guard
                = .and (awaited
                  ++ [.result (RulePath.ofText ((RulePath.ofText clause).ruleId number))
                    .pass]) := by
  have same := RulePath.ofText_append lower upper spaceless
  refine ⟨same, fun {name groups rules} succeeds => ⟨?_, ?_⟩⟩
  · rintro target member rfl rfl
    obtain ⟨r, listed, purpose, id, effect, _⟩ := exists_rule_of_step succeeds member
    refine ⟨r, listed, purpose, id, ?_⟩
    rw [effect, same]
    rfl
  · intro step member waits noun
    obtain ⟨r, listed, purpose, id, _, awaited, command, found, guard⟩ :=
      exists_rule_of_step succeeds member
    obtain rfl := Option.some.inj (found.symm.trans waits)
    refine ⟨r, listed, purpose, id, awaited, ?_⟩
    rw [guard, noun, ← same]
    rfl

/-- A step of a clause of two words. -/
def doorStep : Step := ⟨"fire doors\t(B)", "1.a", "IS", "fire door", none⟩

/-- A step of another group that waits for it. -/
def exitStep : Step := ⟨"Exits", "2", " TO", "fire doors\t(B)_1.a", none⟩

def waitingRecords : List RecordGroup := [⟨"doors", [doorStep]⟩, ⟨"exits", [exitStep]⟩]

theorem compileRecords_targets_waitingRecords
    : doorStep.clause.startsWith "http" = false ∧ doorStep.clause.startsWith "Http" = false
      ∧ ' ' ∉ doorStep.number.toList
      ∧ exitStep.noun = doorStep.clause ++ "_" ++ doorStep.number
      ∧ ∃ rules,
        (compileRecords "B" waitingRecords).1 = .ok rules
        ∧ (∃ r ∈ rules, r.id = "FireDoorsB_1.a"
          ∧ r.effect = .insertResult ⟨"FireDoorsB_1a"⟩ .pass)
        ∧ ∃ r ∈ rules, r.id = "Exits_2" ∧ ∃ awaited,
          r.guard = .and (awaited ++ [.result ⟨"FireDoorsB_1a"⟩ .pass]) := by
  have lower : doorStep.clause.startsWith "http" = false := by decide +kernel
  have upper : doorStep.clause.startsWith "Http" = false := by decide +kernel
  have spaceless : ' ' ∉ doorStep.number.toList := by decide
  have joined : exitStep.noun = doorStep.clause ++ "_" ++ doorStep.number := by decide +kernel
  have spelled
      : RulePath.ofText (doorStep.clause ++ "_" ++ doorStep.number) = ⟨"FireDoorsB_1a"⟩ := by
    decide +kernel
  have door : (RulePath.ofText doorStep.clause).ruleId doorStep.number = "FireDoorsB_1.a" := by
    decide +kernel
  have exit : exitStep.ruleId = "Exits_2" := by decide +kernel
  have succeeds : (compileRecords "B" waitingRecords).1.isOk = true := by decide +kernel
  obtain ⟨rules, compiled⟩ := exists_of_isOk succeeds
  obtain ⟨named, targets⟩ := compileRecords_targets lower upper spaceless
  rw [← named, spelled, door] at targets
  obtain ⟨records, waits⟩ := targets compiled
  obtain ⟨r, listed, _, id, effect⟩ := records doorStep (by decide +kernel) rfl rfl
  obtain ⟨r', listed', _, id', asks⟩ :=
    waits exitStep (by decide +kernel) (by decide +kernel) joined
  rw [exit] at id'
  exact ⟨lower, upper, spaceless, joined, rules, compiled, ⟨r, listed, id, effect⟩, r', listed',
    id', asks⟩

end

end ClauseRules
