import ClauseRules.Proofs.Drl.Elements
import ClauseRules.Proofs.Drl.Quote

/-! Rules without line feeds in their names, values and paths. Nothing that is written adds one, so
each of the lines that such a rule is written in is a single line.
-/

namespace ClauseRules

open Text (IsLine)

/-- No line feed stands in the names, values and paths of the condition. -/
inductive Condition.Unbroken : Condition → Prop
  | test {t : PropertyTest} (property : IsLine t.property) (symbol : IsLine t.comparator.symbol)
    (value : IsLine t.value) (unit : IsLine t.unit)
    : Unbroken (.test t)
  | status {target : RulePath} {s : Status} {negated : Bool} (path : IsLine target.text)
    : Unbroken (.status target s negated)
  | not {inner : Condition} (below : Unbroken inner) : Unbroken (.not inner)
  | and {terms : List Condition} (each : ∀ c ∈ terms, Unbroken c) : Unbroken (.and terms)
  | or {terms : List Condition} (each : ∀ c ∈ terms, Unbroken c) : Unbroken (.or terms)
  | forAll {range consequence : Condition} (first : Unbroken range) (second : Unbroken consequence)
    : Unbroken (.forAll range consequence)
  | forSome {inner : Condition} (below : Unbroken inner) : Unbroken (.forSome inner)
  | forNone {inner : Condition} (below : Unbroken inner) : Unbroken (.forNone inner)
  | result {rule : RulePath} {outcome : Outcome} (path : IsLine rule.text)
    : Unbroken (.result rule outcome)

theorem Condition.unbroken_closed : Condition.Closed Condition.Unbroken where
  not := .not
  and := .and
  or := .or

/-- The clause that statuses are set for, or that a result is recorded for. -/
def Effect.path : Effect → RulePath
  | .setStatus target _ => target
  | .insertResult rule _ => rule

/-- No line feed stands in the rule, the name of the object class that it matches apart. -/
structure Rule.Unbroken (r : Rule) : Prop where
  id : IsLine r.id
  clause : IsLine r.clause.text
  guard : r.guard.Unbroken
  effect : IsLine r.effect.path.text

namespace Drl

variable {c : Condition} {terms : List Condition} {clause text : String} {r : Rule}

theorem isLine_junction {opening operator closing empty : String} {texts : List String}
    (words : ∀ word ∈ [opening, operator, closing, empty], IsLine word)
    (each : ∀ text ∈ texts, IsLine text)
    : IsLine (junction opening operator closing empty texts) := by
  simp only [List.forall_mem_cons] at words
  obtain ⟨first, between, last, none, _⟩ := words
  match texts, each with
  | [], _ => exact none
  | [text], each => exact each text List.mem_cons_self
  | one :: two :: rest, each =>
      simp only [junction, Text.isLine_append]
      exact ⟨⟨first, Text.isLine_intercalate between each⟩, last⟩

theorem isLine_entityPattern (line : IsLine text) : IsLine (entityPattern text) := by
  simp only [entityPattern, Text.isLine_append]
  exact ⟨⟨⟨by decide, by decide⟩, line⟩, by decide⟩

theorem isLine_resultText {rule : RulePath} {outcome : Outcome} (path : IsLine rule.text)
    : IsLine (resultText rule outcome) := by
  simp only [resultText, Text.isLine_append, isLine_quote]
  cases outcome <;> exact ⟨⟨⟨⟨by decide, path⟩, by decide⟩, by decide⟩, by decide⟩

/-! ### Constraints -/

theorem isLine_testText {t : PropertyTest} (unbroken : (Condition.test t).Unbroken)
    (name : IsLine clause)
    : IsLine (testText t clause) := by
  cases unbroken with
  | test property symbol value unit =>
      simp only [testText, Text.isLine_append]
      refine ⟨⟨by decide, Text.isLine_intercalate (by decide) (List.forall_mem_map.mpr ?_)⟩,
        by decide⟩
      simpa [isLine_quote] using ⟨property, symbol, value, unit, name⟩

theorem isLine_statusText {target : RulePath} {s : Status} {negated : Bool}
    (path : IsLine target.text)
    : IsLine (statusText target s negated) := by
  simp only [statusText, Text.isLine_append, isLine_quote]
  cases s <;> cases negated <;> exact ⟨by decide, path⟩

theorem isLine_negation (line : IsLine text) : IsLine (negation text) := by
  simp only [negation]
  split
  · exact Text.isLine_append.mpr ⟨by decide, line⟩
  · simp only [Text.isLine_append]
    exact ⟨⟨by decide, line⟩, by decide⟩

theorem isLine_constraints
    (each : ∀ c ∈ terms, ∀ text, constraint clause c = some text → IsLine text)
    {texts : List String} (written : constraints clause terms = some texts)
    : ∀ text ∈ texts, IsLine text := by
  have same := constraints_eq_some.mp written
  intro text member
  obtain ⟨c, listed, here⟩ := List.mem_map.mp (same ▸ List.mem_map_of_mem member)
  exact each c listed text here

theorem isLine_constraint (unbroken : c.Unbroken) (name : IsLine clause)
    : ∀ text, constraint clause c = some text → IsLine text := by
  induction unbroken with
  | test property symbol value unit =>
      rintro _ ⟨⟩
      exact isLine_testText (.test property symbol value unit) name
  | status path =>
      rintro _ ⟨⟩
      exact isLine_statusText path
  | not _ ih =>
      intro text written
      obtain ⟨inner, below, rfl⟩ := Option.map_eq_some_iff.mp written
      exact isLine_negation (ih inner below)
  | and _ ih =>
      intro text written
      obtain ⟨texts, below, rfl⟩ := Option.map_eq_some_iff.mp written
      exact isLine_junction (by decide) (isLine_constraints ih below)
  | or _ ih =>
      intro text written
      obtain ⟨texts, below, rfl⟩ := Option.map_eq_some_iff.mp written
      exact isLine_junction (by decide) (isLine_constraints ih below)
  | forAll | forSome | forNone | result => exact nofun

/-! ### Elements -/

theorem isLine_quantified (unbroken : c.Unbroken) (name : IsLine clause)
    (written : quantified clause c = .ok text)
    : IsLine text := by
  simp only [quantified] at written
  split at written
  case h_1 here =>
    cases written
    exact isLine_constraint unbroken name _ here
  case h_2 => cases written

theorem isLine_element (unbroken : c.Unbroken) (name : IsLine clause)
    (own : ∀ text, elementText clause c = .ok text → IsLine text)
    : ∀ text, element clause c = .ok text → IsLine text := by
  intro text written
  simp only [element] at written
  split at written
  case h_1 here =>
    cases written
    have line := isLine_entityPattern (isLine_constraint unbroken name _ here)
    exact Text.isLine_append.mpr ⟨by decide, line⟩
  case h_2 => exact own text written

theorem isLine_patterns (each : ∀ c ∈ terms, ∀ text, element clause c = .ok text → IsLine text)
    {texts : List String} (written : patterns clause terms = .ok texts)
    : ∀ text ∈ texts, IsLine text := by
  induction terms generalizing texts with
  | nil => cases written; exact List.forall_mem_nil _
  | cons c rest ih =>
      rw [patterns_cons] at written
      obtain ⟨text, here, written⟩ := exists_of_bind written
      obtain ⟨others, later, same⟩ := exists_of_bind written
      cases same
      obtain ⟨first, rest⟩ := List.forall_mem_cons.mp each
      exact List.forall_mem_cons.mpr ⟨first text here, ih rest later⟩

theorem isLine_elementText_not (below : ∀ text, elementText clause c = .ok text → IsLine text)
    : ∀ text, elementText clause (.not c) = .ok text → IsLine text := by
  intro text written
  rcases elementText_not clause c with ⟨rule, outcome, rfl, result⟩ | other
  · cases result.symm.trans written
    exact Text.isLine_append.mpr ⟨by decide, below _ rfl⟩
  · obtain ⟨inner, here, same⟩ := exists_of_bind (other.symm.trans written)
    cases same
    simp only [Text.isLine_append]
    exact ⟨⟨by decide, below inner here⟩, by decide⟩

theorem isLine_quantifier {one several : String} (unbroken : c.Unbroken) (name : IsLine clause)
    (words : ∀ word ∈ [one, several], IsLine word)
    (below : ∀ text, elementText clause c = .ok text → IsLine text)
    : ∀ text, quantifier one several clause c = .ok text → IsLine text := by
  simp only [List.forall_mem_cons] at words
  obtain ⟨first, second, _⟩ := words
  intro text written
  simp only [quantifier] at written
  split at written
  case h_1 here =>
    cases written
    have line := isLine_entityPattern (isLine_constraint unbroken name _ here)
    exact Text.isLine_append.mpr ⟨first, line⟩
  case h_2 =>
    obtain ⟨inner, here, same⟩ := exists_of_bind written
    cases same
    simp only [Text.isLine_append]
    exact ⟨⟨second, below inner here⟩, by decide⟩

theorem isLine_elementText (unbroken : c.Unbroken) (name : IsLine clause)
    : ∀ text, elementText clause c = .ok text → IsLine text := by
  induction unbroken with
  | test | status => exact nofun
  | not _ ih => exact isLine_elementText_not ih
  | and each ih =>
      intro text written
      rw [elementText] at written
      obtain ⟨texts, below, rfl⟩ := exists_of_map written
      refine isLine_junction (by decide) (isLine_patterns (fun c listed => ?_) below)
      exact isLine_element (each c listed) name (ih c listed)
  | or each ih =>
      intro text written
      rw [elementText] at written
      obtain ⟨texts, below, rfl⟩ := exists_of_map written
      refine isLine_junction (by decide) (isLine_patterns (fun c listed => ?_) below)
      exact isLine_element (each c listed) name (ih c listed)
  | forAll first second =>
      intro text written
      rw [elementText] at written
      obtain ⟨range, one, written⟩ := exists_of_bind written
      obtain ⟨consequence, other, same⟩ := exists_of_bind written
      cases same
      have inside := isLine_entityPattern (isLine_quantified first name one)
      have each := isLine_quantified second name other
      have each : IsLine ("this == $x, " ++ consequence) :=
        Text.isLine_append.mpr ⟨by decide, each⟩
      simp only [Text.isLine_append]
      exact ⟨⟨⟨⟨by decide, inside⟩, by decide⟩, isLine_entityPattern each⟩, by decide⟩
  | forSome below ih =>
      rw [elementText_forSome]
      exact isLine_quantifier below name (by decide) ih
  | forNone below ih =>
      rw [elementText_forNone]
      exact isLine_quantifier below name (by decide) ih
  | result path =>
      intro text written
      cases written
      exact isLine_resultText path

/-! ### Rules -/

theorem unbroken_terms (unbroken : c.Unbroken) : ∀ d ∈ Drl.terms c, d.Unbroken := by
  cases unbroken with
  | and each => exact each
  | _ => exact List.forall_mem_singleton.mpr (by constructor <;> assumption)

theorem isLine_conditions (unbroken : r.Unbroken)
    (type : ∀ object, r.entityType = some object → IsLine object) {lines : List String}
    (written : conditions r = .ok lines)
    : ∀ line ∈ lines, IsLine line := by
  have name := unbroken.clause
  have terms := unbroken_terms unbroken.guard
  have each (c : Condition) (listed : c ∈ Drl.terms r.guard) :=
    isLine_element (terms c listed) name (isLine_elementText (terms c listed) name)
  simp only [conditions] at written
  split at written
  case h_1 => exact isLine_patterns each written
  case h_2 object matched =>
    obtain ⟨others, below, same⟩ := exists_of_bind written
    cases same
    refine List.forall_mem_cons.mpr ⟨?_, ?_⟩
    · have own
          : ∀ text ∈ (Drl.terms r.guard).filterMap (constraint r.clause.text), IsLine text := by
        intro text member
        obtain ⟨c, listed, here⟩ := List.mem_filterMap.mp member
        exact isLine_constraint (terms c listed) name text here
      have type : IsLine ("type contains " ++ quote object) :=
        Text.isLine_append.mpr ⟨by decide, isLine_quote.mpr (type object matched)⟩
      have between : IsLine " && " := by decide
      have inside := Text.isLine_intercalate between (List.forall_mem_cons.mpr ⟨type, own⟩)
      exact Text.isLine_append.mpr ⟨by decide, isLine_entityPattern inside⟩
    · exact isLine_patterns (fun c listed => each c (List.mem_of_mem_filter listed)) below

theorem isLine_action (unbroken : r.Unbroken) {line : String} (written : action r = .ok line)
    : IsLine line := by
  have path := unbroken.effect
  simp only [action] at written
  split at written
  case h_1 target statuses effect =>
    rw [effect] at path
    split at written
    · cases written
    · cases written
      have setters
          : ∀ text ∈ statuses.map fun s => statusSetter s ++ "(" ++ quote target.text ++ ")",
              IsLine text := by
        refine List.forall_mem_map.mpr fun s _ => ?_
        simp only [Text.isLine_append, isLine_quote]
        exact ⟨⟨⟨by cases s <;> decide, by decide⟩, path⟩, by decide⟩
      simp only [Text.isLine_append]
      exact ⟨⟨by decide, Text.isLine_intercalate (by decide) setters⟩, by decide⟩
  case h_2 rule outcome effect =>
    rw [effect] at path
    cases written
    simp only [Text.isLine_append, isLine_quote]
    cases outcome <;>
      exact ⟨⟨⟨⟨⟨by decide, by decide⟩, path⟩, by decide⟩, by decide⟩, by decide⟩

theorem isLine_block (unbroken : r.Unbroken)
    (type : ∀ object, r.entityType = some object → IsLine object) {conditions : List String}
    {action : String}
    (left : Drl.conditions r = .ok conditions) (right : Drl.action r = .ok action)
    : ∀ line ∈ block r conditions action, IsLine line := by
  have group : IsLine (quote (Phase.group r.purpose.phase)) := by
    rw [isLine_quote]
    cases r.purpose.phase <;> decide
  have head
      : IsLine
          ("rule " ++ quote r.id ++ " agenda-group " ++ quote (Phase.group r.purpose.phase)) := by
    simp only [Text.isLine_append, isLine_quote (s := r.id)]
    exact ⟨⟨⟨by decide, unbroken.id⟩, by decide⟩, group⟩
  have tabbed {line : String} (line' : IsLine line) : IsLine ("\t" ++ line) :=
    Text.isLine_append.mpr ⟨by decide, line'⟩
  simp only [block, List.forall_mem_append, List.forall_mem_cons, List.forall_mem_map]
  refine ⟨⟨⟨head, by decide, List.forall_mem_nil _⟩, fun line listed => ?_⟩, by decide, ?_,
    by decide, List.forall_mem_nil _⟩
  · exact tabbed (isLine_conditions unbroken type left line listed)
  · exact tabbed (isLine_action unbroken right)

end Drl

end ClauseRules
