import ClauseRules.Config
import ClauseRules.Proofs.Document.RuleFile
import ClauseRules.Proofs.Section.Guards
import ClauseRules.Rule.Drl

/-! Compiled rules all have a form in the rule language. What a rule that sets a section's statuses
asks for is about the entity that it matches, and stands in the pattern of that entity; what is
asked of all entities is an element of its own.
-/

namespace ClauseRules

namespace Condition

/-- The condition is about one entity: no quantifier and no result stands in it. -/
inductive OnEntity : Condition → Prop
  | test (t : PropertyTest) : OnEntity (.test t)
  | status (target : RulePath) (s : Status) (negated : Bool)
    : OnEntity (.status target s negated)
  | not {inner : Condition} (about : OnEntity inner) : OnEntity (.not inner)
  | and {terms : List Condition} (each : ∀ c ∈ terms, OnEntity c) : OnEntity (.and terms)
  | or {terms : List Condition} (each : ∀ c ∈ terms, OnEntity c) : OnEntity (.or terms)

/-- The condition can be said in the rule language: where it speaks of all entities of some range,
both the range and what is said of them are about one entity.
-/
inductive Expressible : Condition → Prop
  | onEntity {c : Condition} (about : OnEntity c) : Expressible c
  | forAll {range consequence : Condition} (first : OnEntity range)
    (second : OnEntity consequence)
    : Expressible (.forAll range consequence)
  | forSome {inner : Condition} (below : Expressible inner) : Expressible (.forSome inner)
  | forNone {inner : Condition} (below : Expressible inner) : Expressible (.forNone inner)
  | result (rule : RulePath) (outcome : Outcome) : Expressible (.result rule outcome)
  | not {inner : Condition} (below : Expressible inner) : Expressible (.not inner)
  | and {terms : List Condition} (each : ∀ c ∈ terms, Expressible c) : Expressible (.and terms)
  | or {terms : List Condition} (each : ∀ c ∈ terms, Expressible c) : Expressible (.or terms)

end Condition

namespace Drl

variable {c : Condition} {terms : List Condition} {clause : String} {r : Rule}

/-! ### Constraints -/

theorem constraints_eq_some {texts : List String}
    : constraints clause terms = some texts
      ↔ terms.map (constraint clause) = texts.map some := by
  induction terms generalizing texts with
  | nil => cases texts <;> simp [constraints]
  | cons c rest ih =>
      cases first : constraint clause c with
      | none => cases texts <;> simp [constraints, first]
      | some text =>
          cases later : constraints clause rest with
          | none => cases texts <;> simp [constraints, first, later, ← ih]
          | some others => cases texts <;> simp [constraints, first, later, ← ih]

theorem exists_constraints (each : ∀ c ∈ terms, ∃ text, constraint clause c = some text)
    : ∃ texts, constraints clause terms = some texts := by
  induction terms with
  | nil => exact ⟨[], rfl⟩
  | cons c rest ih =>
      obtain ⟨⟨text, first⟩, others⟩ := List.forall_mem_cons.mp each
      obtain ⟨texts, later⟩ := ih others
      exact ⟨text :: texts, by simp only [constraints, first, later]⟩

/-- Conditions on one entity are constraints. -/
theorem exists_constraint (clause : String) (about : c.OnEntity)
    : ∃ text, constraint clause c = some text := by
  induction about with
  | test t => exact ⟨_, rfl⟩
  | status target s negated => exact ⟨_, rfl⟩
  | not _ ih =>
      obtain ⟨text, written⟩ := ih
      exact ⟨negation text, by rw [constraint, written]; rfl⟩
  | and _ ih =>
      obtain ⟨texts, written⟩ := exists_constraints ih
      exact ⟨_, by rw [constraint, written]; rfl⟩
  | or _ ih =>
      obtain ⟨texts, written⟩ := exists_constraints ih
      exact ⟨_, by rw [constraint, written]; rfl⟩

/-! ### Elements -/

/-- A condition as an element; a constraint is one on some entity. -/
def element (clause : String) (c : Condition) : Except RenderError String :=
  match constraint clause c with
  | some text => .ok ("exists " ++ entityPattern text)
  | none => elementText clause c

theorem patterns_cons
    : patterns clause (c :: terms)
      = (do
        let text ← element clause c
        return text :: (← patterns clause terms)) := by
  rw [patterns, element]
  cases constraint clause c <;> rfl

theorem exists_patterns (each : ∀ c ∈ terms, ∃ text, element clause c = .ok text)
    : ∃ texts, patterns clause terms = .ok texts := by
  induction terms with
  | nil => exact ⟨[], rfl⟩
  | cons c rest ih =>
      obtain ⟨⟨text, first⟩, others⟩ := List.forall_mem_cons.mp each
      obtain ⟨texts, later⟩ := ih others
      exact ⟨text :: texts, by rw [patterns_cons, first, later]; rfl⟩

theorem length_patterns {texts : List String} (written : patterns clause terms = .ok texts)
    : texts.length = terms.length := by
  induction terms generalizing texts with
  | nil => cases written; rfl
  | cons c rest ih =>
      rw [patterns_cons] at written
      obtain ⟨text, _, written⟩ := exists_of_bind written
      obtain ⟨others, later, same⟩ := exists_of_bind written
      cases same
      exact congrArg (· + 1) (ih later)

/-- A constraint is an element at once. -/
theorem exists_element_of
    (own : constraint clause c = none → ∃ text, elementText clause c = .ok text)
    : ∃ text, element clause c = .ok text := by
  cases first : constraint clause c with
  | some text => exact ⟨_, by simp only [element, first]; rfl⟩
  | none =>
      obtain ⟨text, written⟩ := own first
      exact ⟨text, by simp only [element, first, written]⟩

/-- A negation has parentheses unless a result is negated. -/
theorem elementText_not (clause : String) (c : Condition)
    : (∃ rule outcome,
        c = .result rule outcome
        ∧ elementText clause (.not c) = .ok ("not " ++ resultText rule outcome))
      ∨ elementText clause (.not c)
        = (do return "not ( " ++ (← elementText clause c) ++ " )") := by
  by_cases result : ∃ rule outcome, c = .result rule outcome
  · obtain ⟨rule, outcome, rfl⟩ := result
    exact .inl ⟨rule, outcome, rfl, rfl⟩
  · refine .inr ?_
    rw [elementText]
    exact fun rule outcome same => result ⟨rule, outcome, same⟩

theorem exists_elementText_not (below : ∃ text, elementText clause c = .ok text)
    : ∃ text, elementText clause (.not c) = .ok text := by
  obtain ⟨text, written⟩ := below
  rcases elementText_not clause c with ⟨_, _, _, result⟩ | other
  · exact ⟨_, result⟩
  · exact ⟨_, by rw [other, written]; rfl⟩

/-- A quantifier on a condition, which has another form if the condition is no constraint. -/
def quantifier (one several clause : String) (c : Condition) : Except RenderError String :=
  match constraint clause c with
  | some text => .ok (one ++ entityPattern text)
  | none => do return several ++ (← elementText clause c) ++ " )"

theorem elementText_forSome
    : elementText clause (.forSome c) = quantifier "exists " "exists ( " clause c := by
  cases written : constraint clause c <;> simp only [elementText, quantifier, written]

theorem elementText_forNone
    : elementText clause (.forNone c) = quantifier "not " "not ( " clause c := by
  cases written : constraint clause c <;> simp only [elementText, quantifier, written]

theorem exists_quantifier {one several : String}
    (below : constraint clause c = none → ∃ text, elementText clause c = .ok text)
    : ∃ text, quantifier one several clause c = .ok text := by
  cases first : constraint clause c with
  | some text => exact ⟨_, by simp only [quantifier, first]; rfl⟩
  | none =>
      obtain ⟨text, written⟩ := below first
      exact ⟨_, by simp only [quantifier, first, written]; rfl⟩

theorem exists_elementText (expressible : c.Expressible)
    (unconstrained : constraint clause c = none)
    : ∃ text, elementText clause c = .ok text := by
  induction expressible with
  | onEntity about =>
      -- Without a quantifier the condition would be a constraint.
      obtain ⟨text, written⟩ := exists_constraint clause about
      exact absurd (written.symm.trans unconstrained) nofun
  | forAll first second =>
      obtain ⟨range, first⟩ := exists_constraint clause first
      obtain ⟨consequence, second⟩ := exists_constraint clause second
      exact ⟨_, by rw [elementText]; simp only [quantified, first, second]; rfl⟩
  | forSome _ ih => exact elementText_forSome ▸ exists_quantifier ih
  | forNone _ ih => exact elementText_forNone ▸ exists_quantifier ih
  | result rule outcome => exact ⟨_, rfl⟩
  | not _ ih => exact exists_elementText_not (ih (Option.map_eq_none_iff.mp unconstrained))
  | and _ ih =>
      obtain ⟨texts, written⟩ := exists_patterns fun c listed => exists_element_of (ih c listed)
      exact ⟨_, by rw [elementText, written]; rfl⟩
  | or _ ih =>
      obtain ⟨texts, written⟩ := exists_patterns fun c listed => exists_element_of (ih c listed)
      exact ⟨_, by rw [elementText, written]; rfl⟩

/-- What can be said in the rule language is an element of it. -/
theorem exists_element (clause : String) (expressible : c.Expressible)
    : ∃ text, element clause c = .ok text :=
  exists_element_of (exists_elementText expressible)

/-! ### Rules -/

/-- The line of conditions of a rule on the entity that it matches. -/
def entityLine (object : String) (texts : List String) : String :=
  "$entity: " ++ entityPattern (" && ".intercalate (("type contains " ++ quote object) :: texts))

/-- Where a rule asks nothing but of the entity it matches, all is said in the entity's line. -/
theorem conditions_of_onEntity {object : String} (matched : r.entityType = some object)
    (about : ∀ c ∈ Drl.terms r.guard, c.OnEntity)
    : ∃ texts,
        (Drl.terms r.guard).map (constraint r.clause.text) = texts.map some
        ∧ conditions r = .ok [entityLine object texts] := by
  have each := fun c listed => exists_constraint r.clause.text (about c listed)
  obtain ⟨texts, written⟩ := exists_constraints each
  have written := constraints_eq_some.mp written
  have own : (Drl.terms r.guard).filterMap (constraint r.clause.text) = texts := by
    simpa [List.filterMap_map] using congrArg (List.filterMap id) written
  have others
      : (Drl.terms r.guard).filter (fun c => (constraint r.clause.text c).isNone) = [] := by
    refine List.filter_eq_nil_iff.mpr fun c listed => ?_
    obtain ⟨text, written⟩ := each c listed
    simp [written]
  exact ⟨texts, written, by simp only [conditions, matched, own, others]; rfl⟩

/-- A rule that matches an entity has a line for it, any other one a line for each term. -/
theorem exists_conditions (guard : ∀ c ∈ Drl.terms r.guard, c.Expressible)
    (asks : r.entityType = none → Drl.terms r.guard ≠ [])
    : ∃ lines, conditions r = .ok lines ∧ lines ≠ [] := by
  have each := fun c listed => exists_element r.clause.text (guard c listed)
  cases matched : r.entityType with
  | none =>
      obtain ⟨lines, written⟩ := exists_patterns each
      refine ⟨lines, by simp only [conditions, matched, written], ?_⟩
      have length := length_patterns written
      have some := List.length_pos_iff.mpr (asks matched)
      exact List.length_pos_iff.mp (length ▸ some)
  | some object =>
      obtain ⟨others, written⟩
          : ∃ texts,
              patterns r.clause.text
                ((Drl.terms r.guard).filter fun c => (constraint r.clause.text c).isNone)
              = .ok texts :=
        exists_patterns fun c listed => each c (List.mem_of_mem_filter listed)
      exact ⟨_, by simp only [conditions, matched, written]; rfl, List.cons_ne_nil _ _⟩

/-- Where all rules can be written, a rule file has the lines of each after an empty one, in the
order of the rules, and nothing else but its header.
-/
theorem text_eq {rules : RuleSet} {lines : Rule → List String} (imports : List String)
    (each : ∀ r ∈ rules, ruleLines r = .ok (lines r))
    : text imports rules
      = .ok (Text.unlines
        (("// fingerprint: " ++ rules.fingerprint) :: imports
          ++ rules.toList.flatMap fun r => "" :: lines r)) := by
  have written
      : rules.toList.mapM (fun r => do return "" :: (← ruleLines r))
        = Except.ok (rules.toList.map fun r => "" :: lines r) := by
    refine mapM_eq_ok_iff.mpr (List.forall₂_map_right_iff.mpr (List.forall₂_same.mpr ?_))
    intro r member
    rw [each r member]
    rfl
  rw [text, written]
  rfl

end Drl

open Drl (entityLine entityPattern quote)

variable {r : Rule} {path child : RulePath} {operands : Operands} {scope : Scope}

/-- The rule has a form in the rule language: its guard can be said there, some line of conditions
stands in it, and if it sets statuses, then of an entity that it matches.
-/
structure Rule.Expressible (r : Rule) : Prop where
  guard : ∀ c ∈ Drl.terms r.guard, c.Expressible
  asks : r.entityType = none → Drl.terms r.guard ≠ []
  matched
    : ∀ {target : RulePath} {statuses : List Status},
        r.effect = .setStatus target statuses → r.entityType.isSome = true

theorem Rule.Expressible.exists_action (expressible : r.Expressible)
    : ∃ line, Drl.action r = .ok line := by
  cases effect : r.effect with
  | insertResult path outcome => exact ⟨_, by simp only [Drl.action, effect]; rfl⟩
  | setStatus target statuses =>
      obtain ⟨object, matched⟩ := Option.isSome_iff_exists.mp (expressible.matched effect)
      exact ⟨_, by simp only [Drl.action, effect, matched]; rfl⟩

/-- The lines of a rule in the rule language. -/
def Drl.block (r : Rule) (conditions : List String) (action : String) : List String :=
  ["rule " ++ quote r.id ++ " agenda-group " ++ quote (Drl.Phase.group r.purpose.phase), "when"]
    ++ conditions.map ("\t" ++ ·) ++ ["then", "\t" ++ action, "end"]

theorem Rule.Expressible.exists_ruleLines (expressible : r.Expressible)
    : ∃ conditions action,
        Drl.conditions r = .ok conditions ∧ conditions ≠ [] ∧ Drl.action r = .ok action
        ∧ Drl.ruleLines r = .ok (Drl.block r conditions action) := by
  obtain ⟨conditions, left, some⟩ :=
    Drl.exists_conditions expressible.guard expressible.asks
  obtain ⟨action, right⟩ := expressible.exists_action
  exact ⟨conditions, action, left, some, right, by simp only [Drl.ruleLines, left, right]; rfl⟩

/-! ### The rules of sections -/

theorem Condition.onEntity_closed : Condition.Closed Condition.OnEntity where
  not := .not
  and := .and
  or := .or

/-- The rules that set the statuses of a section ask nothing but of the entity they match. -/
theorem Scope.mainRules_onEntity (member : r ∈ scope.mainRules operands)
    : ∃ conjuncts, r.guard = .and conjuncts ∧ ∀ c ∈ conjuncts, c.OnEntity := by
  refine exists_conjuncts Condition.onEntity_closed (fun k operand _ => ?_)
    (fun s negated => .status _ s negated) (fun ancestor _ s negated => .status ancestor s negated)
    member
  cases operand with
  | test t => exact ⟨.test t, .not (.test t)⟩
  | nested path => exact ⟨.status path .pass false, .status path .fail false⟩

theorem Scope.mainRules_expressible (member : r ∈ scope.mainRules operands) : r.Expressible := by
  obtain ⟨conjuncts, guard, about⟩ := mainRules_onEntity member
  obtain ⟨_, matched, _, _⟩ := mainRules_shape member
  refine ⟨?_, by simp [matched], by simp [matched]⟩
  rw [guard]
  exact fun c listed => .onEntity (about c listed)

/-- How the guard of a rule is written that carries the result of a section over. -/
inductive CarriesOver (child : RulePath) : Condition → String → Prop
  | pass
    : CarriesOver child (.forAll (.has child .applicable) (.has child .pass))
      ("forall ( $x: " ++ entityPattern ("applicable contains " ++ quote child.text) ++ " "
        ++ entityPattern ("this == $x, pass contains " ++ quote child.text) ++ " )")
  | vacuous
    : CarriesOver child (.forNone (.has child .applicable))
      ("not " ++ entityPattern ("applicable contains " ++ quote child.text))
  | fail
    : CarriesOver child (.forSome (.has child .fail))
      ("exists " ++ entityPattern ("fail contains " ++ quote child.text))

namespace CarriesOver

variable {guard : Condition} {element : String}

/-- Such a guard is no constraint, but an element as a whole. -/
theorem patterns_eq (carries : CarriesOver child guard element) (clause : String)
    : Drl.terms guard = [guard] ∧ Drl.constraint clause guard = none
      ∧ Drl.patterns clause [guard] = .ok [element] := by
  cases carries with
  | pass => exact ⟨rfl, rfl, rfl⟩
  | vacuous => exact ⟨rfl, rfl, rfl⟩
  | fail => exact ⟨rfl, rfl, rfl⟩

theorem conditions_eq {object : String} (carries : CarriesOver child r.guard element)
    (matched : r.entityType = some object)
    : Drl.conditions r = .ok [entityLine object [], element] := by
  obtain ⟨whole, unconstrained, written⟩ := carries.patterns_eq r.clause.text
  simp only [Drl.conditions, matched, whole, List.filterMap_cons, List.filter_cons, unconstrained,
    Option.isNone_none, if_true, List.filterMap_nil, List.filter_nil, written]
  rfl

theorem expressible (carries : CarriesOver child guard element)
    : ∀ c ∈ Drl.terms guard, c.Expressible := by
  rw [(carries.patterns_eq "").1]
  refine List.forall_mem_singleton.mpr ?_
  cases carries with
  | pass => exact .forAll (.status ..) (.status ..)
  | vacuous => exact .forNone (.onEntity (.status ..))
  | fail => exact .forSome (.onEntity (.status ..))

end CarriesOver

theorem transferRules_carryOver {object id : String}
    (member : r ∈ transferRules path object id child)
    : ∃ element, CarriesOver child r.guard element := by
  rcases mem_transferRules.mp member with rfl | rfl | rfl
  · exact ⟨_, .pass⟩
  · exact ⟨_, .vacuous⟩
  · exact ⟨_, .fail⟩

theorem transferRules_expressible {object id : String}
    (member : r ∈ transferRules path object id child)
    : r.Expressible := by
  obtain ⟨_, carries⟩ := transferRules_carryOver member
  obtain ⟨_, matched, _, _, _⟩ := transferRules_shape member
  exact ⟨carries.expressible, by simp [matched], by simp [matched]⟩

/-! ### Rules that record results -/

theorem summaryRule_expressible {purpose : Purpose} {condition : Condition} {outcome : Outcome}
    (expressible : condition.Expressible)
    : (summaryRule path purpose condition outcome).Expressible where
  guard := List.forall_mem_cons.mpr
    ⟨expressible, List.forall_mem_singleton.mpr (.not (.result path outcome))⟩
  asks _ := List.cons_ne_nil _ _
  matched := nofun

theorem aggregationRules_expressible (member : r ∈ aggregationRules path) : r.Expressible := by
  rcases mem_aggregationRules.mp member with rfl | rfl | rfl
  · exact summaryRule_expressible (.forAll (.status ..) (.status ..))
  · exact summaryRule_expressible (.forNone (.onEntity (.status ..)))
  · exact summaryRule_expressible (.forSome (.onEntity (.status ..)))

theorem documentRules_expressible {sections : List RulePath}
    (member : r ∈ documentRules path sections)
    : r.Expressible := by
  have some (s : Status)
      : ∀ c ∈ sections.map fun p => Condition.forSome (.has p s), c.Expressible :=
    List.forall_mem_map.mpr fun p _ => .forSome (.onEntity (.status p s false))
  rcases mem_documentRules.mp member with rfl | rfl
  · exact summaryRule_expressible (.and (some .pass))
  · exact summaryRule_expressible (.or (some .fail))

theorem Step.rule_expressible (previous : Option Step) (step : Step) (command : Command)
    : (step.rule previous command).Expressible where
  guard := by
    refine List.forall_mem_append.mpr ⟨?_, List.forall_mem_singleton.mpr ?_⟩
    · split
      · split
        · exact List.forall_mem_singleton.mpr (.result _ _)
        · exact List.forall_mem_nil _
      · exact List.forall_mem_nil _
    · cases command with
      | is => exact .forSome (.onEntity (.test _))
      | _ => exact .result _ _
  asks _ := List.append_ne_nil_of_right_ne_nil _ (List.cons_ne_nil _ _)
  matched := nofun

theorem verdictRules_expressible {parts : List RulePath} {onPass onFail : Purpose}
    (member : r ∈ verdictRules path parts onPass onFail)
    : r.Expressible := by
  rcases mem_verdictRules.mp member with rfl | rfl
  · refine summaryRule_expressible (.and (List.forall_mem_map.mpr ?_))
    exact fun part _ => .not (.result part .fail)
  · refine summaryRule_expressible (.or (List.forall_mem_map.mpr ?_))
    exact fun part _ => .result part .fail

/-! ### All rules -/

namespace Rule.Origin

theorem expressible (origin : r.Origin) : r.Expressible := by
  cases origin with
  | main scope operands member => exact Scope.mainRules_expressible member
  | aggregation path member => exact aggregationRules_expressible member
  | transfer path child object id member => exact transferRules_expressible member
  | document path sections member => exact documentRules_expressible member
  | step previous step command same => exact same ▸ step.rule_expressible previous command
  | verdict path parts onPass onFail pass fail member => exact verdictRules_expressible member

/-- Only the rules of these two families have such purposes. -/
theorem main_or_transfer (origin : r.Origin)
    : (∃ scope operands, r ∈ Scope.mainRules scope operands)
      ∨ (∃ path child object id, r ∈ transferRules path object id child)
      ∨ r.purpose.isStatus = false ∧ r.purpose.isTransfer = false := by
  have summing (phase : r.purpose.phase = .summary)
      : r.purpose.isStatus = false ∧ r.purpose.isTransfer = false := by
    revert phase
    cases r.purpose <;> decide
  cases origin with
  | main scope operands member => exact .inl ⟨scope, operands, member⟩
  | transfer path child object id member => exact .inr (.inl ⟨path, child, object, id, member⟩)
  | aggregation path member =>
      obtain ⟨_, status, transfer, _, _⟩ := aggregationRules_shape member
      exact .inr (.inr ⟨status, transfer⟩)
  | document path sections member =>
      exact .inr (.inr (summing (documentRules_shape member).2))
  | step previous step command same => exact .inr (.inr ⟨same ▸ rfl, same ▸ rfl⟩)
  | verdict path parts onPass onFail pass fail member =>
      rcases mem_verdictRules.mp member with rfl | rfl
      · exact .inr (.inr (summing pass))
      · exact .inr (.inr (summing fail))

/-- What a rule that sets statuses asks for stands in the pattern of the entity that it matches, all
of it.
-/
theorem conditions_of_isStatus (origin : r.Origin) (isStatus : r.purpose.isStatus = true)
    : ∃ object conjuncts texts,
        r.entityType = some object ∧ r.guard = .and conjuncts
        ∧ conjuncts.map (Drl.constraint r.clause.text) = texts.map some
        ∧ Drl.conditions r = .ok [entityLine object texts] := by
  rcases origin.main_or_transfer
    with ⟨scope, operands, main⟩ | ⟨_, _, _, _, transfer⟩ | ⟨none, _⟩
  · obtain ⟨_, matched, _, _⟩ := Scope.mainRules_shape main
    obtain ⟨conjuncts, guard, about⟩ := Scope.mainRules_onEntity main
    have whole : Drl.terms r.guard = conjuncts := by rw [guard]; rfl
    obtain ⟨texts, each, written⟩ := Drl.conditions_of_onEntity matched (whole ▸ about)
    exact ⟨_, conjuncts, texts, matched, guard, whole ▸ each, written⟩
  · exact absurd ((transferRules_shape transfer).2.2.1.symm.trans isStatus) Bool.false_ne_true
  · exact absurd (none.symm.trans isStatus) Bool.false_ne_true

/-- What a rule that carries a result over asks for is an element of its own, next to the pattern of
the entity that it matches.
-/
theorem conditions_of_isTransfer (origin : r.Origin) (isTransfer : r.purpose.isTransfer = true)
    : ∃ object child element,
        r.entityType = some object ∧ (∃ s, r.effect = .setStatus child [s])
        ∧ CarriesOver child r.guard element
        ∧ Drl.conditions r = .ok [entityLine object [], element] := by
  rcases origin.main_or_transfer
    with ⟨scope, operands, main⟩ | ⟨path, child, object, id, transfer⟩ | ⟨_, none⟩
  · have status := (Scope.mainRules_shape main).2.2.1
    exact absurd ((Purpose.not_isTransfer status).symm.trans isTransfer) Bool.false_ne_true
  · obtain ⟨_, matched, _, _, effect⟩ := transferRules_shape transfer
    obtain ⟨element, carries⟩ := transferRules_carryOver transfer
    exact ⟨object, child, element, matched, effect, carries, carries.conditions_eq matched⟩
  · exact absurd (none.symm.trans isTransfer) Bool.false_ne_true

end Rule.Origin

namespace RuleSet.Compiled

variable {rules : RuleSet}

/-- All compiled rules can be written. Below its header a rule file has one block for each rule, in
which every condition of the rule is a line of its own. In the block of a rule that sets statuses
this is one line, the pattern of the entity that the rule matches, with all that the rule asks for
inside of it. A rule that carries a result over asks for nothing there, but in a line of its own.
-/
theorem exists_text (compiled : rules.Compiled) (imports : List String)
    : ∃ (conditions : Rule → List String) (action : Rule → String),
        Drl.text imports rules
          = .ok (Text.unlines
            (("// fingerprint: " ++ rules.fingerprint) :: imports
              ++ rules.toList.flatMap fun r => "" :: Drl.block r (conditions r) (action r)))
        ∧ (∀ r ∈ rules, Drl.conditions r = .ok (conditions r) ∧ Drl.action r = .ok (action r))
        ∧ (∀ r ∈ rules, r.purpose.isStatus = true →
            ∃ object conjuncts texts,
              r.entityType = some object ∧ r.guard = .and conjuncts
              ∧ conjuncts.map (Drl.constraint r.clause.text) = texts.map some
              ∧ conditions r = [entityLine object texts])
        ∧ ∀ r ∈ rules, r.purpose.isTransfer = true →
            ∃ object child element,
              r.entityType = some object ∧ (∃ s, r.effect = .setStatus child [s])
              ∧ CarriesOver child r.guard element
              ∧ conditions r = [entityLine object [], element] := by
  choose! conditions action left _ right written using
    fun r member => (compiled.origin r member).expressible.exists_ruleLines
  have same {r : Rule} {lines : List String} (member : r ∈ rules)
      (found : Drl.conditions r = .ok lines)
      : conditions r = lines :=
    Except.ok.inj ((left r member).symm.trans found)
  refine ⟨conditions, action, Drl.text_eq imports written,
    fun r member => ⟨left r member, right r member⟩, fun r member isStatus => ?_,
    fun r member isTransfer => ?_⟩
  · obtain ⟨object, conjuncts, texts, matched, guard, each, found⟩ :=
      (compiled.origin r member).conditions_of_isStatus isStatus
    exact ⟨object, conjuncts, texts, matched, guard, each, same member found⟩
  · obtain ⟨object, child, element, matched, effect, carries, found⟩ :=
      (compiled.origin r member).conditions_of_isTransfer isTransfer
    exact ⟨object, child, element, matched, effect, carries, same member found⟩

theorem exists_text_roughDoors
    : ∃ (rules : RuleSet) (conditions : Rule → List String) (action : Rule → String),
        (roughDoors.compile Document.doors).1 = .ok rules
        ∧ Drl.text defaultImports rules
          = .ok (Text.unlines
            (("// fingerprint: " ++ rules.fingerprint) :: defaultImports
              ++ rules.toList.flatMap fun r => "" :: Drl.block r (conditions r) (action r)))
        ∧ (∃ r ∈ rules, ∃ object texts, conditions r = [entityLine object texts])
        ∧ ∃ r ∈ rules, ∃ object child element,
            CarriesOver child r.guard element
            ∧ conditions r = [entityLine object [], element] := by
  obtain ⟨rules, compiled, ⟨r, listed, isStatus⟩, t, among, isTransfer⟩
      : ∃ rules,
          (roughDoors.compile Document.doors).1 = .ok rules
          ∧ (∃ r ∈ rules, r.purpose.isStatus = true)
          ∧ ∃ r ∈ rules, r.purpose.isTransfer = true := by
    refine Document.exists_of_compile
      (P := fun rules =>
        (∃ r ∈ rules, r.purpose.isStatus = true) ∧ ∃ r ∈ rules, r.purpose.isTransfer = true) ?_
    decide +kernel
  obtain ⟨conditions, action, text, _, main, transfer⟩ :=
    exists_text (.document compiled) defaultImports
  obtain ⟨object, _, texts, _, _, _, one⟩ := main r listed isStatus
  obtain ⟨whole, child, element, _, _, carries, two⟩ := transfer t among isTransfer
  exact ⟨rules, conditions, action, compiled, text, ⟨r, listed, object, texts, one⟩, t, among,
    whole, child, element, carries, two⟩

end RuleSet.Compiled

end ClauseRules
