import ClauseRules.Rule.Set
import ClauseRules.Proofs.Sorted.Members
import Mathlib.Data.Finset.Option
import Mathlib.Data.Finset.Prod
import Mathlib.Data.Fintype.Basic
import Mathlib.Logic.Relation

/-! Rules read as forward chaining over a finite set of entities. A rule may fire on an entity of
its class whenever its guard holds, and then adds its statuses; nothing is ever taken back. Runs
leave the order of firing open.
-/

namespace ClauseRules

/-- What is known at a moment of an evaluation: the classes of the entities and the outcomes of
tests, which are given, and the statuses and results recorded so far.
-/
structure Facts (ε : Type) where
  isA : ε → String → Bool
  passes : ε → PropertyTest → Bool
  statuses : Finset (ε × RulePath × Status) := ∅
  results : Finset (RulePath × Outcome) := ∅

namespace Facts

variable {ε : Type} [DecidableEq ε]

/-! ### Recording -/

/-- The facts after an effect on the matched entity. -/
def record (f : Facts ε) (focus : Option ε) : Effect → Facts ε
  | .setStatus target statuses =>
      { f with statuses := f.statuses ∪ focus.toFinset ×ˢ {target} ×ˢ statuses.toFinset }
  | .insertResult rule outcome => { f with results := insert (rule, outcome) f.results }

variable {f : Facts ε} {focus : Option ε} {e : ε}

@[simp]
theorem mem_record_setStatus {target path : RulePath} {statuses : List Status} {s : Status}
    : (e, path, s) ∈ (f.record focus (.setStatus target statuses)).statuses
      ↔ (e, path, s) ∈ f.statuses ∨ (focus = some e ∧ path = target ∧ s ∈ statuses) := by
  cases focus <;> simp [record, eq_comm, and_assoc, and_comm]

@[simp]
theorem record_isA {effect : Effect} : (f.record focus effect).isA = f.isA := by
  cases effect <;> rfl

@[simp]
theorem record_passes {effect : Effect} : (f.record focus effect).passes = f.passes := by
  cases effect <;> rfl

/-! ### What holds -/

variable [Fintype ε]

mutual

/-- The truth of conditions about an entity. Quantifiers range over all entities. Where no entity
is matched, no test and no status holds.
-/
def truth (f : Facts ε) (focus : Option ε) : Condition → Bool
  | .test t => focus.any (f.passes · t)
  | .status target s negated => focus.any (fun e => decide ((e, target, s) ∈ f.statuses)) != negated
  | .not inner => !truth f focus inner
  | .and terms => truthAll f focus terms
  | .or terms => truthAny f focus terms
  | .forAll range consequence =>
      decide (∀ e, truth f (some e) range = true → truth f (some e) consequence = true)
  | .forSome inner => decide (∃ e, truth f (some e) inner = true)
  | .forNone inner => decide (∀ e, truth f (some e) inner = false)
  | .result rule outcome => decide ((rule, outcome) ∈ f.results)

def truthAll (f : Facts ε) (focus : Option ε) : List Condition → Bool
  | [] => true
  | term :: rest => truth f focus term && truthAll f focus rest

def truthAny (f : Facts ε) (focus : Option ε) : List Condition → Bool
  | [] => false
  | term :: rest => truth f focus term || truthAny f focus rest

end

/-- A guard holds if it evaluates to true over the facts as its atoms. -/
def Holds (f : Facts ε) (focus : Option ε) (c : Condition) : Prop :=
  c.evaluate (f.truth focus) = true

instance {c : Condition} : Decidable (f.Holds focus c) := inferInstanceAs (Decidable (_ = true))

mutual

theorem evaluate_truth (f : Facts ε) (focus : Option ε) (c : Condition)
    : c.evaluate (f.truth focus) = f.truth focus c := by
  cases c with
  | status target s negated =>
      cases negated <;> simp [Condition.evaluate, Condition.has, truth]
  | not inner => simp only [Condition.evaluate, truth, evaluate_truth f focus inner]
  | and terms => simp only [Condition.evaluate, truth, evaluateAll_truth f focus terms]
  | or terms => simp only [Condition.evaluate, truth, evaluateAny_truth f focus terms]
  | _ => rfl
termination_by sizeOf c

theorem evaluateAll_truth (f : Facts ε) (focus : Option ε) (terms : List Condition)
    : Condition.evaluateAll (f.truth focus) terms = f.truthAll focus terms := by
  cases terms with
  | nil => rfl
  | cons term rest =>
      simp only [Condition.evaluateAll, truthAll, evaluate_truth f focus term,
        evaluateAll_truth f focus rest]
termination_by sizeOf terms

theorem evaluateAny_truth (f : Facts ε) (focus : Option ε) (terms : List Condition)
    : Condition.evaluateAny (f.truth focus) terms = f.truthAny focus terms := by
  cases terms with
  | nil => rfl
  | cons term rest =>
      simp only [Condition.evaluateAny, truthAny, evaluate_truth f focus term,
        evaluateAny_truth f focus rest]
termination_by sizeOf terms

end

@[simp]
theorem truth_test {t : PropertyTest} : f.truth (some e) (.test t) = f.passes e t := by
  simp [truth]

@[simp]
theorem truth_has {target : RulePath} {s : Status}
    : f.truth (some e) (.has target s) = decide ((e, target, s) ∈ f.statuses) := by
  simp [truth, Condition.has]

theorem holds_iff_truth {c : Condition} : f.Holds focus c ↔ f.truth focus c = true := by
  rw [Holds, evaluate_truth]

@[simp]
theorem holds_test {t : PropertyTest} : f.Holds (some e) (.test t) ↔ f.passes e t = true := by
  simp [holds_iff_truth]

@[simp]
theorem holds_has {target : RulePath} {s : Status}
    : f.Holds (some e) (.has target s) ↔ (e, target, s) ∈ f.statuses := by
  simp [holds_iff_truth]

@[simp]
theorem holds_lacks {target : RulePath} {s : Status}
    : f.Holds (some e) (.lacks target s) ↔ (e, target, s) ∉ f.statuses := by
  simp [holds_iff_truth, truth, Condition.lacks]

@[simp]
theorem holds_not {c : Condition} : f.Holds focus (.not c) ↔ ¬f.Holds focus c := by
  simp [holds_iff_truth, truth]

@[simp]
theorem holds_and {terms : List Condition}
    : f.Holds focus (.and terms) ↔ ∀ c ∈ terms, f.Holds focus c := by
  simp only [holds_iff_truth, truth]
  induction terms with
  | nil => simp [truthAll]
  | cons term rest ih => simp [truthAll, ih]

@[simp]
theorem holds_or {terms : List Condition}
    : f.Holds focus (.or terms) ↔ ∃ c ∈ terms, f.Holds focus c := by
  simp only [holds_iff_truth, truth]
  induction terms with
  | nil => simp [truthAny]
  | cons term rest ih => simp [truthAny, ih]

@[simp]
theorem holds_forAll {range consequence : Condition}
    : f.Holds focus (.forAll range consequence)
      ↔ ∀ e, f.Holds (some e) range → f.Holds (some e) consequence := by
  simp [holds_iff_truth, truth]

@[simp]
theorem holds_forSome {c : Condition}
    : f.Holds focus (.forSome c) ↔ ∃ e, f.Holds (some e) c := by
  simp [holds_iff_truth, truth]

@[simp]
theorem holds_forNone {c : Condition}
    : f.Holds focus (.forNone c) ↔ ∀ e, ¬f.Holds (some e) c := by
  simp [holds_iff_truth, truth]

@[simp]
theorem holds_result {rule : RulePath} {outcome : Outcome}
    : f.Holds focus (.result rule outcome) ↔ (rule, outcome) ∈ f.results := by
  simp [holds_iff_truth, truth]

/-! ### Firing -/

/-- A rule with an object class matches the entities of that class, any other rule none. -/
def Matches (f : Facts ε) (r : Rule) : Option ε → Prop
  | some e => ∃ type, r.entityType = some type ∧ f.isA e type = true
  | none => r.entityType = none

/-- One of the rules fires. -/
def Step (rules : Set Rule) (f g : Facts ε) : Prop :=
  ∃ r ∈ rules, ∃ focus, f.Matches r focus ∧ f.Holds focus r.guard ∧ g = f.record focus r.effect

/-- Rules fire one after the other, in any order and any number of times. -/
def Run (rules : Set Rule) : Facts ε → Facts ε → Prop := Relation.ReflTransGen (Step rules)

/-- No rule can add anything. -/
def Settled (rules : Set Rule) (f : Facts ε) : Prop := ∀ g, Step rules f g → g = f

variable {g : Facts ε} {rules : Set Rule}

theorem run_passes (run : Run rules f g) : g.passes = f.passes := by
  induction run with
  | refl => rfl
  | tail _ step ih =>
      obtain ⟨_, _, _, _, _, rfl⟩ := step
      rw [record_passes, ih]

theorem run_isA (run : Run rules f g) : g.isA = f.isA := by
  induction run with
  | refl => rfl
  | tail _ step ih =>
      obtain ⟨_, _, _, _, _, rfl⟩ := step
      rw [record_isA, ih]

end Facts

/-- The rules of a set that record statuses of entities. -/
def RuleSet.computing (rules : RuleSet) : Set Rule :=
  {r | r ∈ rules ∧ r.purpose.phase = .compute}

end ClauseRules
