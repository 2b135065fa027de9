import ClauseRules.Proofs.Record.Origins
import ClauseRules.Proofs.Rule.Transitivity
import ClauseRules.Proofs.Sorted.Entries
import ClauseRules.Proofs.Sorted.Order
import Mathlib.Data.List.Induction

/-! What clause records are compiled to. Each step gets one rule, told by its place in its group;
each clause gets a verdict on its steps, wherever they stand, and the document one on its clauses.
Only a command that is unknown stops the compilation, and the first one does.
-/

namespace ClauseRules

variable {step : Step} {steps : List Step} {group : RecordGroup} {groups : List RecordGroup}
  {previous : Option Step} {e : CompileError} {r : Rule}

/-! ### Commands -/

/-- Whether the command of a step is one of those that records know. -/
def Step.isKnown (step : Step) : Bool :=
  ["IS", "TO", "RUN", "XRUN"].contains (Text.trim step.command)

theorem Command.ofText?_eq_none : ofText? step.command = none ↔ step.isKnown = false := by
  rw [ofText?, Step.isKnown]
  split <;> simp_all

theorem Command.exists_ofText? (known : step.isKnown = true)
    : ∃ command, ofText? step.command = some command := by
  refine Option.ne_none_iff_exists'.mp fun none => ?_
  rw [ofText?_eq_none.mp none] at known
  cases known

theorem Keyword.ofText?_eq_next {text : String}
    : ofText? text = some .next ↔ Text.trim text = "NEXT" := by
  rw [ofText?]
  split <;> simp_all

theorem Command.ofText?_eq_is {text : String}
    : ofText? text = some .is ↔ Text.trim text = "IS" := by
  rw [ofText?]
  split <;> simp_all

/-- The step after one that tests a noun waits for it if its keyword says so. -/
theorem Step.chains_iff
    : step.chains = true
      ↔ Text.trim step.command = "IS" ∧ step.keyword.map Text.trim = some "NEXT" := by
  rw [chains, Bool.and_eq_true, beq_iff_eq, beq_iff_eq, Command.ofText?_eq_is, next?,
    Option.bind_eq_some_iff, Option.map_eq_some_iff]
  simp only [Keyword.ofText?_eq_next]

/-! ### Steps up to an unknown one -/

theorem stepRules_of_unknown {rest : List Step} (unknown : step.isKnown = false)
    : (stepRules previous (step :: rest)).1
      = .error (.unknownCommand step.ruleId (Text.trim step.command)) := by
  simp only [stepRules, Command.ofText?_eq_none.mpr unknown]

theorem stepRules_of_known {rest : List Step} {command : Command}
    (known : Command.ofText? step.command = some command)
    : (stepRules previous (step :: rest)).1
      = (step.rule previous command :: ·) <$> (stepRules (some step) rest).1 := by
  simp only [stepRules, known]

theorem groupRules_of_error {rest : List RecordGroup}
    (failed : (stepRules none group.steps).1 = .error e)
    : (groupRules (group :: rest)).1 = .error e := by
  simp only [groupRules]
  split
  case h_1 outcome => rwa [outcome] at failed
  case h_2 outcome => rw [outcome] at failed; cases failed

theorem groupRules_of_ok {rest : List RecordGroup} {rules : List Rule}
    (made : (stepRules none group.steps).1 = .ok rules)
    : (groupRules (group :: rest)).1 = (rules ++ ·) <$> (groupRules rest).1 := by
  simp only [groupRules]
  split
  case h_1 outcome => rw [outcome] at made; cases made
  case h_2 outcome =>
    rw [outcome] at made
    obtain rfl := Except.ok.inj made
    rfl

/-- The first of some steps whose command is unknown is the reason for an error. -/
def FirstUnknown (steps : List Step) (e : CompileError) : Prop :=
  ∃ step, steps.find? (!·.isKnown) = some step
    ∧ e = .unknownCommand step.ruleId (Text.trim step.command)

theorem stepRules_eq_error (previous : Option Step)
    : (stepRules previous steps).1 = .error e ↔ FirstUnknown steps e := by
  induction steps generalizing previous with
  | nil => exact ⟨nofun, nofun⟩
  | cons step rest ih =>
      cases known : step.isKnown with
      | false =>
          rw [stepRules_of_unknown known, FirstUnknown, List.find?_cons_of_pos (by simp [known])]
          simp [eq_comm]
      | true =>
          obtain ⟨command, found⟩ := Command.exists_ofText? known
          rw [stepRules_of_known found, map_eq_error_iff, ih, FirstUnknown, FirstUnknown,
            List.find?_cons_of_neg (by simp [known])]

/-! ### Rules of steps -/

/-- The step before a place, where `previous` stands before the first one. -/
def Step.predecessor (previous : Option Step) (steps : List Step) : Nat → Option Step
  | 0 => previous
  | place + 1 => steps[place]?

/-- The rule is that of the step at some place. -/
def Rule.OfPlace (previous : Option Step) (steps : List Step) (r : Rule) : Prop :=
  ∃ (place : Nat) (step : Step) (command : Command),
    steps[place]? = some step ∧ Command.ofText? step.command = some command
    ∧ r = step.rule (Step.predecessor previous steps place) command

theorem Rule.ofPlace_cons {rest : List Step}
    : r.OfPlace previous (step :: rest)
      ↔ (∃ command, Command.ofText? step.command = some command ∧ r = step.rule previous command)
        ∨ r.OfPlace (some step) rest := by
  have shift (place : Nat)
      : Step.predecessor previous (step :: rest) (place + 1)
        = Step.predecessor (some step) rest place := by
    cases place <;> rfl
  constructor
  · rintro ⟨place, other, command, here, known, rfl⟩
    cases place with
    | zero =>
        obtain rfl := Option.some.inj here
        exact .inl ⟨command, known, rfl⟩
    | succ place => exact .inr ⟨place, other, command, here, known, by rw [shift]⟩
  · rintro (⟨command, known, rfl⟩ | ⟨place, other, command, here, known, rfl⟩)
    · exact ⟨0, step, command, rfl, known, rfl⟩
    · exact ⟨place + 1, other, command, here, known, by rw [shift]⟩

theorem exists_stepRules (previous : Option Step) (known : ∀ step ∈ steps, step.isKnown = true)
    : ∃ rules,
        (stepRules previous steps).1 = .ok rules ∧ ∀ r, r ∈ rules ↔ r.OfPlace previous steps := by
  induction steps generalizing previous with
  | nil =>
      refine ⟨[], rfl, fun r => iff_of_false List.not_mem_nil ?_⟩
      rintro ⟨_, _, _, here, _⟩
      cases here
  | cons step rest ih =>
      obtain ⟨here, later⟩ := List.forall_mem_cons.mp known
      obtain ⟨command, found⟩ := Command.exists_ofText? here
      obtain ⟨rules, made, members⟩ := ih (some step) later
      refine ⟨step.rule previous command :: rules, ?_, fun r => ?_⟩
      · rw [stepRules_of_known found, made]
        rfl
      · rw [List.mem_cons, members, Rule.ofPlace_cons]
        simp [found]

theorem exists_groupRules (known : ∀ step ∈ groups.flatMap (·.steps), step.isKnown = true)
    : ∃ rules,
        (groupRules groups).1 = .ok rules
        ∧ ∀ r, r ∈ rules ↔ ∃ group ∈ groups, r.OfPlace none group.steps := by
  induction groups with
  | nil => exact ⟨[], rfl, fun r => by simp⟩
  | cons group rest ih =>
      rw [List.flatMap_cons, List.forall_mem_append] at known
      obtain ⟨steps, first, inside⟩ := exists_stepRules none known.1
      obtain ⟨others, later, members⟩ := ih known.2
      refine ⟨steps ++ others, ?_, fun r => ?_⟩
      · rw [groupRules_of_ok first, later]
        rfl
      · rw [List.mem_append, inside, members, List.exists_mem_cons_iff]

theorem groupRules_eq_error
    : (groupRules groups).1 = .error e ↔ FirstUnknown (groups.flatMap (·.steps)) e := by
  induction groups with
  | nil => exact ⟨nofun, nofun⟩
  | cons group rest ih =>
      rw [FirstUnknown, List.flatMap_cons, List.find?_append]
      cases first : group.steps.find? (!·.isKnown) with
      | none =>
          have known : ∀ step ∈ group.steps, step.isKnown = true := by
            simpa using List.find?_eq_none.mp first
          obtain ⟨rules, made, _⟩ := exists_stepRules none known
          rw [groupRules_of_ok made, map_eq_error_iff, ih, FirstUnknown, Option.none_or]
      | some step =>
          have failed := (stepRules_eq_error none).mpr ⟨step, first, rfl⟩
          rw [groupRules_of_error failed, Option.some_or]
          simp [eq_comm]

/-! ### Clauses -/

/-- Where the steps of a clause record their results, in the order of the steps. -/
def clausePaths (steps : List Step) (path : RulePath) : List RulePath :=
  (steps.filter fun step => step.path = path).map Step.resultPath

theorem increasing_clauseResults (steps : List Step) : (clauseResults steps).Increasing :=
  List.foldlRecOn _ _ SortedMap.increasing_empty fun _ increasing _ _ => increasing.alter

theorem clauseResults_concat (front : List Step) (step : Step)
    : clauseResults (front ++ [step])
      = (clauseResults front).alter step.path fun paths => paths.getD [] ++ [step.resultPath] := by
  simp only [clauseResults, List.foldl_append, List.foldl_cons, List.foldl_nil]

/-- Steps are collected under the path of their clause, whatever stands between them. -/
theorem get?_clauseResults (steps : List Step) (path : RulePath)
    : (clauseResults steps).get? path
      = if ∃ step ∈ steps, step.path = path then some (clausePaths steps path) else none := by
  induction steps using List.reverseRecOn with
  | nil => rfl
  | append_singleton front step ih =>
      rw [clauseResults_concat]
      by_cases own : step.path = path
      · subst own
        have before
            : ((clauseResults front).get? step.path).getD [] = clausePaths front step.path := by
          rw [ih]
          split
          case isTrue => rfl
          case isFalse none =>
            have empty : front.filter (fun other => other.path = step.path) = [] := by
              simpa using none
            rw [clausePaths, empty]
            rfl
        rw [(increasing_clauseResults front).get?_alter_self, before, if_pos ⟨step, by simp, rfl⟩]
        simp [clausePaths]
      · rw [SortedMap.get?_alter_of_ne (Ne.symm own), ih]
        simp [clausePaths, own]

theorem mem_clauseResults {path : RulePath} {results : List RulePath}
    : (path, results) ∈ (clauseResults steps).toList
      ↔ (∃ step ∈ steps, step.path = path) ∧ results = clausePaths steps path := by
  have found
      : (path, results) ∈ (clauseResults steps).toList
        ↔ (clauseResults steps).get? path = some results :=
    ⟨(increasing_clauseResults steps).get?_of_mem, SortedMap.mem_of_get?⟩
  rw [found, get?_clauseResults]
  simp [eq_comm]

theorem mem_keys_clauseResults {path : RulePath}
    : path ∈ (clauseResults steps).keys ↔ ∃ step ∈ steps, step.path = path := by
  constructor
  · intro member
    obtain ⟨⟨_, results⟩, listed, rfl⟩ := List.mem_map.mp member
    exact (mem_clauseResults.mp listed).1
  · intro some
    exact List.mem_map_of_mem (f := Prod.fst) (mem_clauseResults.mpr ⟨some, rfl⟩)

theorem clauseResults_isEmpty : (clauseResults steps).toList.isEmpty = true ↔ steps = [] := by
  constructor
  · intro empty
    refine List.eq_nil_iff_forall_not_mem.mpr fun step member => ?_
    have listed := mem_clauseResults.mpr ⟨⟨step, member, rfl⟩, rfl⟩
    rw [List.isEmpty_iff.mp empty] at listed
    cases listed
  · rintro rfl
    rfl

/-! ### Records -/

namespace RecordGroup

/-- What the step at a place waits for besides its command: the result of the step before it, if
that one tests a noun and its keyword is to go on with the next step.
-/
def awaited (group : RecordGroup) : Nat → List Condition
  | 0 => []
  | place + 1 =>
      match group.steps[place]? with
      | some before =>
          if Text.trim before.command = "IS" ∧ before.keyword.map Text.trim = some "NEXT" then
            [.result before.resultPath .pass]
          else []
      | none => []

/-- The rule of the step at a place. -/
def stepRule (group : RecordGroup) (place : Nat) (step : Step) (command : Command) : Rule :=
  let id := (RulePath.ofText step.clause).text ++ "_" ++ step.number
  { id, clause := RulePath.ofText step.clause, purpose := .stepPass, entityType := none
    guard := .and (group.awaited place ++ [command.guard step.noun])
    effect := .insertResult (RulePath.ofText id) .pass }

theorem stepRule_eq (group : RecordGroup) (place : Nat) (step : Step) (command : Command)
    : group.stepRule place step command
      = step.rule (Step.predecessor none group.steps place) command := by
  have waits
      : group.awaited place
        = match Step.predecessor none group.steps place with
          | some before => if before.chains then [.result before.resultPath .pass] else []
          | none => [] := by
    cases place with
    | zero => rfl
    | succ place =>
        simp only [awaited, Step.predecessor, Step.chains_iff]
  rw [stepRule, waits]
  rfl

end RecordGroup

/-- The verdicts on clauses, each on the steps that were collected for it. -/
theorem mem_clauseVerdicts
    : (∃ entry ∈ (clauseResults steps).toList,
        r ∈ verdictRules entry.1 entry.2 .clausePass .clauseFail)
      ↔ ∃ path ∈ (clauseResults steps).keys,
        r ∈ verdictRules path (clausePaths steps path) .clausePass .clauseFail := by
  constructor
  · rintro ⟨⟨path, results⟩, listed, verdict⟩
    obtain ⟨_, rfl⟩ := mem_clauseResults.mp listed
    exact ⟨path, List.mem_map_of_mem (f := Prod.fst) listed, verdict⟩
  · rintro ⟨path, member, verdict⟩
    exact ⟨(path, _), mem_clauseResults.mpr ⟨mem_keys_clauseResults.mp member, rfl⟩, verdict⟩

/-- Records are compiled if their steps are, to the rules of these and to verdicts. -/
theorem exists_compileRecords (name : String) {rules : List Rule}
    (made : (groupRules groups).1 = .ok rules)
    : ∃ all : RuleSet,
        (compileRecords name groups).1 = .ok all ∧ all.Increasing
        ∧ ∀ r,
          r ∈ all
            ↔ r ∈ rules
              ∨ (∃ path ∈ (clauseResults (groups.flatMap (·.steps))).keys,
                r ∈ verdictRules path (clausePaths (groups.flatMap (·.steps)) path)
                  .clausePass .clauseFail)
              ∨ (groups.flatMap (·.steps) ≠ []
                ∧ r ∈ verdictRules (RulePath.ofText name)
                  (clauseResults (groups.flatMap (·.steps))).keys
                  .documentFinalPass .documentFinalFail) := by
  simp only [compileRecords, made]
  refine ⟨_, rfl, SortedSet.increasing_ofList _, fun r => ?_⟩
  rw [SortedSet.mem_ofList, List.mem_append, List.mem_append, or_assoc]
  refine or_congr_right (or_congr ?_ ?_)
  · rw [List.mem_flatMap]
    exact mem_clauseVerdicts
  · simp only [clauseResults_isEmpty]
    split
    case isTrue none => simp [none]
    case isFalse some => simp [some]

/-- Clause records compile exactly if every command is known, and otherwise fail at the first one
that is not. What they compile to is a rule for each step at its place, a verdict to pass and one to
fail for each clause on all of its steps, and a verdict of either kind for the document on all
clauses in order, if there is one. The two rules for verdicts are listed by `mem_verdictRules`.
-/
theorem compileRecords_rules (name : String) (groups : List RecordGroup)
    : (∀ e,
        (compileRecords name groups).1 = .error e
          ↔ ∃ step,
            (groups.flatMap (·.steps)).find? (!·.isKnown) = some step
            ∧ e = .unknownCommand step.ruleId (Text.trim step.command))
      ∧ ((∀ step ∈ groups.flatMap (·.steps), step.isKnown = true) →
        ∃ rules paths,
          (compileRecords name groups).1 = .ok rules ∧ rules.Increasing
          ∧ paths.Pairwise (fun p q => compare p q = .lt)
          ∧ (∀ path, path ∈ paths ↔ ∃ step ∈ groups.flatMap (·.steps), step.path = path)
          ∧ ∀ r,
            r ∈ rules
              ↔ (∃ group ∈ groups, ∃ place step command,
                  group.steps[place]? = some step ∧ Command.ofText? step.command = some command
                  ∧ r = group.stepRule place step command)
                ∨ (∃ path ∈ paths,
                  r ∈ verdictRules path (clausePaths (groups.flatMap (·.steps)) path)
                    .clausePass .clauseFail)
                ∨ (groups.flatMap (·.steps) ≠ []
                  ∧ r ∈ verdictRules (RulePath.ofText name) paths
                    .documentFinalPass .documentFinalFail)) := by
  refine ⟨fun e => map_eq_error_iff.trans groupRules_eq_error, fun known => ?_⟩
  obtain ⟨rules, made, members⟩ := exists_groupRules known
  obtain ⟨all, compiled, increasing, inside⟩ := exists_compileRecords name made
  refine ⟨all, (clauseResults (groups.flatMap (·.steps))).keys, compiled, increasing,
    List.pairwise_map.mpr (increasing_clauseResults _), fun _ => mem_keys_clauseResults,
    fun r => ?_⟩
  simp only [inside, members, Rule.OfPlace, RecordGroup.stepRule_eq]

/-- Two groups with steps of one clause, whose name is spelled in two ways. -/
def exitRecords : List RecordGroup :=
  [⟨"doors", [⟨"B 1", "1", " IS", "fire door", some "NEXT "⟩, ⟨"B2", "1", "TO", "B1_1", none⟩]⟩,
    ⟨"exits", [⟨"B1", "2", "XRUN", "C", some "GOTO"⟩]⟩]

/-- A step waits for one of another clause, a clause has steps of both groups, and another group
with a command that is not known is refused.
-/
theorem compileRecords_rules_exitRecords
    : (∀ step ∈ exitRecords.flatMap (·.steps), step.isKnown = true)
      ∧ (∃ rules paths,
        (compileRecords "B" exitRecords).1 = .ok rules
        ∧ ⟨"B2_1", ⟨"B2"⟩, .stepPass, none,
            .and [.result ⟨"B1_1"⟩ .pass, .result ⟨"B1_1"⟩ .pass],
            .insertResult ⟨"B2_1"⟩ .pass⟩ ∈ rules
        ∧ (∀ r ∈ verdictRules ⟨"B1"⟩ [⟨"B1_1"⟩, ⟨"B1_2"⟩] .clausePass .clauseFail, r ∈ rules)
        ∧ ⟨"B1"⟩ ∈ paths ∧ ⟨"B2"⟩ ∈ paths
        ∧ ∀ r ∈ verdictRules (RulePath.ofText "B") paths .documentFinalPass .documentFinalFail,
          r ∈ rules)
      ∧ (compileRecords "B" (exitRecords ++ [⟨"steps", [⟨"B3", "1", " JUMP", "C", none⟩]⟩])).1
        = .error (.unknownCommand "B3_1" "JUMP") := by
  have known : ∀ step ∈ exitRecords.flatMap (·.steps), step.isKnown = true := by decide +kernel
  obtain ⟨rules, paths, compiled, _, _, clauses, members⟩ :=
    (compileRecords_rules "B" exitRecords).2 known
  have first : ⟨"B1"⟩ ∈ paths := (clauses _).mpr (by decide +kernel)
  have second : ⟨"B2"⟩ ∈ paths := (clauses _).mpr (by decide +kernel)
  have parts : clausePaths (exitRecords.flatMap (·.steps)) ⟨"B1"⟩ = [⟨"B1_1"⟩, ⟨"B1_2"⟩] := by
    decide +kernel
  refine ⟨known, ⟨rules, paths, compiled, (members _).mpr (.inl ?_), fun r verdict =>
    (members r).mpr (.inr (.inl ⟨_, first, parts ▸ verdict⟩)), first, second, fun r verdict =>
      (members r).mpr (.inr (.inr ⟨nofun, verdict⟩))⟩, ?_⟩
  · refine ⟨_, List.mem_cons_self, 1, _, .to, rfl, by decide +kernel, ?_⟩
    exact Std.LawfulEqOrd.eq_of_compare (by decide +kernel)
  · exact ((compileRecords_rules "B" _).1 _).mpr
      ⟨⟨"B3", "1", " JUMP", "C", none⟩, by decide +kernel, by decide +kernel⟩

end ClauseRules
