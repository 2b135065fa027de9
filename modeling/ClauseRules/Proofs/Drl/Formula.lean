import ClauseRules.Proofs.Drl.Quote
import ClauseRules.Proofs.Rule.Evaluation

/-! Constraints can be told apart by what they mean. A single term of a conjunction or a disjunction
loses its parentheses, a negation gets some only if there are none yet, and names, values and
paths may be any texts, even ones that look like constraints. Still the text of a constraint can be
read in one way only, as a formula that is true where the condition is.
-/

namespace ClauseRules

namespace Condition

mutual

/-- The tests in a condition, however deep. -/
def tests : Condition → List PropertyTest
  | .test t => [t]
  | .status _ _ _ => []
  | .not inner => tests inner
  | .and terms => testsOfList terms
  | .or terms => testsOfList terms
  | .forAll range consequence => tests range ++ tests consequence
  | .forSome inner => tests inner
  | .forNone inner => tests inner
  | .result _ _ => []

def testsOfList : List Condition → List PropertyTest
  | [] => []
  | term :: rest => tests term ++ testsOfList rest

end

end Condition

namespace Comparator

def recognised : List Comparator :=
  [.equal, .lessOrEqual, .less, .greater, .greaterOrEqual, .includes, .excludes]

/-- The comparator is not an unrecognised one that is spelled like one of the others. -/
def Distinct (c : Comparator) : Prop :=
  ∀ token, c = .unrecognised token → token ∉ recognised.map symbol

/-- The comparator that a symbol stands for. -/
def ofSymbol (text : String) : Comparator :=
  (recognised.find? (·.symbol == text)).getD (.unrecognised text)

theorem ofSymbol_symbol {c : Comparator} (distinct : c.Distinct) : ofSymbol c.symbol = c := by
  cases c with
  | unrecognised token =>
      have unknown : recognised.find? (·.symbol == token) = none := by
        refine List.find?_eq_none.mpr fun c listed same => distinct token rfl ?_
        exact List.mem_map.mpr ⟨c, listed, beq_iff_eq.mp same⟩
      show (recognised.find? (·.symbol == token)).getD (.unrecognised token) = _
      rw [unknown, Option.getD_none]
  | _ => decide

end Comparator

namespace Drl

variable {clause : String}

/-! ### Formulas -/

/-- How a constraint starts. -/
inductive Word where
  | get
  | bang
  | opening
  | constant (value : Bool)
  | status (s : Status) (negated : Bool)
deriving DecidableEq

namespace Word

def text : Word → String
  | .get => "get("
  | .bang => "!"
  | .opening => "("
  | .constant value => if value then "true" else "false"
  | .status s negated => statusField s ++ if negated then " not contains " else " contains "

def all : List Word :=
  .get :: .bang :: .opening :: [true, false].flatMap fun flag =>
    .constant flag :: [Status.notApplicable, .applicable, .pass, .fail].map (.status · flag)

theorem mem_all (word : Word) : word ∈ all := by
  rcases word with _ | _ | _ | value | ⟨s, negated⟩
  · decide
  · decide
  · decide
  · cases value <;> decide
  · cases s <;> cases negated <;> decide

theorem legible : Legible (fun _ => True) fun word => (text word).toList := by
  have free : ∀ a ∈ all, ∀ b ∈ all, a.text.toList <+: b.text.toList → a = b := by decide
  exact .of_prefix_free fun a b _ _ => free a a.mem_all b b.mem_all

end Word

/-- What can be seen of a condition in the text of its constraint. -/
inductive Formula where
  | test (property symbol value unit : String)
  | status (target : RulePath) (s : Status) (negated : Bool)
  | constant (value : Bool)
  | not (inner : Formula)
  | paren (inner : Formula)
  /-- A conjunction or a disjunction of several terms. -/
  | group (conjunctive : Bool) (first second : Formula) (rest : List Formula)

namespace Formula

def operator (conjunctive : Bool) : String := if conjunctive then " && " else " || "

mutual

/-- The text of a formula, with the clause on whose behalf properties are looked up. -/
def text (clause : String) : Formula → String
  | .test property symbol value unit =>
      "get(" ++ ",".intercalate ([property, symbol, value, unit, clause].map quote) ++ ")"
  | .status target s negated => statusText target s negated
  | .constant value => if value then "true" else "false"
  | .not inner => "!" ++ text clause inner
  | .paren inner => "(" ++ text clause inner ++ ")"
  | .group conjunctive first second rest =>
      "(" ++ (operator conjunctive).intercalate
        (text clause first :: text clause second :: texts clause rest) ++ ")"

def texts (clause : String) : List Formula → List String
  | [] => []
  | formula :: rest => text clause formula :: texts clause rest

end

def word : Formula → Word
  | .test _ _ _ _ => .get
  | .status _ s negated => .status s negated
  | .constant value => .constant value
  | .not _ => .bang
  | .paren _ | .group _ _ _ _ => .opening

/-- The negation of a formula; one that is no look-up and has no parentheses is put into some. -/
def negate (formula : Formula) : Formula :=
  if formula.word = .get ∨ formula.word = .opening then .not formula else .not (.paren formula)

/-- Several formulas as one; a single one stands for itself. -/
def junction (conjunctive : Bool) : List Formula → Formula
  | [] => .constant conjunctive
  | [formula] => formula
  | first :: second :: rest => .group conjunctive first second rest

mutual

/-- The formula in the text of a condition on an entity. There is none for other conditions. -/
def of? : Condition → Option Formula
  | .test t => some (.test t.property t.comparator.symbol t.value t.unit)
  | .status target s negated => some (.status target s negated)
  | .not inner => (of? inner).map negate
  | .and terms => (ofList? terms).map (junction true)
  | .or terms => (ofList? terms).map (junction false)
  | .forAll _ _ | .forSome _ | .forNone _ | .result _ _ => none

def ofList? : List Condition → Option (List Formula)
  | [] => some []
  | term :: rest =>
      match of? term, ofList? rest with
      | some formula, some formulas => some (formula :: formulas)
      | _, _ => none

end

theorem texts_eq_map (formulas : List Formula)
    : texts clause formulas = formulas.map (text clause) := by
  induction formulas with
  | nil => rfl
  | cons formula rest ih => rw [texts, ih, List.map_cons]

/-- Every formula starts with its word. -/
theorem exists_text_eq (clause : String) (formula : Formula)
    : ∃ others, (formula.text clause).toList = formula.word.text.toList ++ others := by
  cases formula with
  | test property symbol value unit =>
      exact ⟨_, by rw [text, String.append_assoc, String.toList_append]; rfl⟩
  | status target s negated => exact ⟨_, by rw [text, statusText, String.toList_append]; rfl⟩
  | constant value => exact ⟨[], by rw [text]; simp [word, Word.text]⟩
  | not inner => exact ⟨_, by rw [text, String.toList_append]; rfl⟩
  | paren inner => exact ⟨_, by rw [text, String.append_assoc, String.toList_append]; rfl⟩
  | group conjunctive first second rest =>
      exact ⟨_, by rw [text, String.append_assoc, String.toList_append]; rfl⟩

/-- The words at the front tell formulas of different forms apart. -/
theorem word_eq {f g : Formula} {rest more : List Char}
    (same : (f.text clause).toList ++ rest = (g.text clause).toList ++ more)
    : f.word = g.word := by
  obtain ⟨_, first⟩ := f.exists_text_eq clause
  obtain ⟨_, second⟩ := g.exists_text_eq clause
  rw [first, second, List.append_assoc, List.append_assoc] at same
  exact (Word.legible trivial trivial same).1

theorem startsWith_word (formula : Formula) (word : Word)
    : (formula.text clause).startsWith word.text = true ↔ formula.word = word := by
  obtain ⟨others, start⟩ := formula.exists_text_eq clause
  rw [String.startsWith_string_iff, start]
  constructor
  · rintro ⟨_, same⟩
    exact (Word.legible trivial trivial same).1.symm
  · rintro rfl
    exact List.prefix_append _ _

theorem negation_text (formula : Formula)
    : negation (formula.text clause) = formula.negate.text clause := by
  have get : (formula.text clause).startsWith "get(" = true ↔ formula.word = .get :=
    formula.startsWith_word .get
  have opening : (formula.text clause).startsWith "(" = true ↔ formula.word = .opening :=
    formula.startsWith_word .opening
  simp only [negation, negate, Bool.or_eq_true, get, opening]
  split
  · rw [text]
  · rw [text, text, ← String.append_assoc, ← String.append_assoc]
    rfl

theorem junction_text (conjunctive : Bool) (formulas : List Formula)
    : Drl.junction "(" (operator conjunctive) ")" (if conjunctive then "true" else "false")
        (texts clause formulas)
      = (junction conjunctive formulas).text clause := by
  match formulas with
  | [] => simp [texts, Drl.junction, junction, text]
  | [formula] => simp [texts, Drl.junction, junction]
  | first :: second :: rest => simp [texts, Drl.junction, junction, text]

mutual

/-- The text of a condition is the text of its formula. -/
theorem constraint_eq : ∀ c : Condition, constraint clause c = (of? c).map (text clause)
  | .test t => by rw [constraint, of?, Option.map_some, text]; rfl
  | .status target s negated => by rw [constraint, of?, Option.map_some, text]
  | .not inner => by
      rw [constraint, constraint_eq inner, of?, Option.map_map, Option.map_map]
      exact congrArg (Option.map · _) (funext negation_text)
  | .and terms => by
      rw [constraint, constraints_eq terms, of?, Option.map_map, Option.map_map]
      exact congrArg (Option.map · _) (funext (junction_text true))
  | .or terms => by
      rw [constraint, constraints_eq terms, of?, Option.map_map, Option.map_map]
      exact congrArg (Option.map · _) (funext (junction_text false))
  | .forAll _ _ | .forSome _ | .forNone _ | .result _ _ => by rw [constraint, of?, Option.map_none]

theorem constraints_eq : ∀ terms, constraints clause terms = (ofList? terms).map (texts clause)
  | [] => by rw [constraints, ofList?, Option.map_some, texts]
  | term :: rest => by
      simp only [constraints, ofList?, constraint_eq term, constraints_eq rest]
      cases of? term <;> cases ofList? rest <;> rfl

end

/-! ### Reading -/

theorem toList_intercalate_cons (separator first : String) (rest : List String)
    : (separator.intercalate (first :: rest)).toList
      = first.toList ++ rest.flatMap fun text => separator.toList ++ text.toList := by
  induction rest generalizing first with
  | nil => simp
  | cons second rest ih =>
      rw [String.intercalate_cons_cons, String.toList_append, ih, String.toList_append]
      simp

theorem operator_legible
    : Legible (fun _ => True) fun conjunctive => (operator conjunctive).toList := by
  refine .of_prefix_free fun a b _ _ => ?_
  revert a b
  decide

theorem toList_test {property symbol value unit : String}
    : (text clause (.test property symbol value unit)).toList
      = "get(".toList ++ ((quote property).toList ++ ',' :: ((quote symbol).toList
        ++ ',' :: ((quote value).toList ++ ',' :: ((quote unit).toList
          ++ ',' :: ((quote clause).toList ++ [')']))))) := by
  rw [text]
  simp

theorem toList_group {conjunctive : Bool} {first second : Formula} {rest : List Formula}
    : (text clause (.group conjunctive first second rest)).toList
      = '(' :: ((text clause first).toList ++ ((operator conjunctive).toList
        ++ ((text clause second).toList
          ++ (rest.flatMap (fun f => (operator conjunctive).toList ++ (text clause f).toList)
            ++ [')'])))) := by
  rw [text, String.toList_append, String.toList_append, toList_intercalate_cons, texts_eq_map]
  simp [List.flatMap_map]

theorem operator_start (conjunctive : Bool)
    : ∃ others, (operator conjunctive).toList = ' ' :: others := by
  cases conjunctive <;> exact ⟨_, rfl⟩

/-- A formula can be told from all others, whatever follows. -/
def Told (clause : String) (f : Formula) : Prop :=
  ∀ ⦃g : Formula⦄ ⦃rest more : List Char⦄,
    (f.text clause).toList ++ rest = (g.text clause).toList ++ more → f = g ∧ rest = more

theorem told_test {property symbol value unit : String}
    : Told clause (.test property symbol value unit) := by
  intro g rest more same
  cases g with
  | test property' symbol' value' unit' =>
      rw [toList_test, toList_test] at same
      simp only [List.append_assoc, List.cons_append, List.append_cancel_left_eq] at same
      obtain ⟨rfl, second⟩ := quote_legible trivial trivial same
      obtain ⟨rfl, third⟩ := quote_legible trivial trivial (List.cons.inj second).2
      obtain ⟨rfl, fourth⟩ := quote_legible trivial trivial (List.cons.inj third).2
      obtain ⟨rfl, after⟩ := quote_legible trivial trivial (List.cons.inj fourth).2
      exact ⟨rfl, by simpa using after⟩
  | _ => cases word_eq same

theorem told_status {target : RulePath} {s : Status} {negated : Bool}
    : Told clause (.status target s negated) := by
  intro g rest more same
  cases g with
  | status other t flag =>
      have start : Word.status s negated = .status t flag := word_eq same
      cases start
      simp only [text, statusText, String.toList_append, List.append_assoc,
        List.append_cancel_left_eq] at same
      obtain ⟨path, after⟩ := quote_legible trivial trivial same
      obtain ⟨path⟩ := target
      obtain ⟨other⟩ := other
      cases path
      exact ⟨rfl, after⟩
  | _ => cases word_eq same

theorem told_constant {value : Bool} : Told clause (.constant value) := by
  intro g rest more same
  cases g with
  | constant other =>
      have start : Word.constant value = .constant other := word_eq same
      cases start
      exact ⟨rfl, List.append_cancel_left same⟩
  | _ => cases word_eq same

theorem told_not {inner : Formula} (below : inner.Told clause) : Told clause (.not inner) := by
  intro g rest more same
  cases g with
  | not other =>
      simp only [text, String.toList_append, List.append_assoc, List.append_cancel_left_eq] at same
      obtain ⟨rfl, after⟩ := below same
      exact ⟨rfl, after⟩
  | _ => cases word_eq same

theorem toList_paren {inner : Formula}
    : (text clause (.paren inner)).toList = '(' :: ((text clause inner).toList ++ [')']) := by
  rw [text]
  simp

theorem told_paren {inner : Formula} (below : inner.Told clause)
    : Told clause (.paren inner) := by
  intro g rest more same
  cases g with
  | paren other =>
      simp only [toList_paren, List.cons_append, List.append_assoc, List.cons.injEq,
        true_and] at same
      obtain ⟨rfl, after⟩ := below same
      exact ⟨rfl, (List.cons.inj after).2⟩
  | group conjunctive first second others =>
      simp only [toList_paren, toList_group, List.cons_append, List.append_assoc, List.cons.injEq,
        true_and] at same
      -- The first term of a group is followed by an operator, not by a parenthesis.
      obtain ⟨_, after⟩ := below same
      obtain ⟨_, start⟩ := operator_start conjunctive
      rw [start] at after
      cases (List.cons.inj after).1
  | _ => cases word_eq same

theorem told_group {conjunctive : Bool} {first second : Formula} {others : List Formula}
    (one : first.Told clause) (two : second.Told clause) (each : ∀ f ∈ others, f.Told clause)
    : Told clause (.group conjunctive first second others) := by
  intro g rest more same
  cases g with
  | paren other =>
      simp only [toList_paren, toList_group, List.cons_append, List.append_assoc, List.cons.injEq,
        true_and] at same
      obtain ⟨_, after⟩ := one same
      obtain ⟨_, start⟩ := operator_start conjunctive
      rw [start] at after
      cases (List.cons.inj after).1
  | group flag first' second' others' =>
      simp only [toList_group, List.cons_append, List.append_assoc, List.cons.injEq, true_and,
        List.nil_append] at same
      obtain ⟨rfl, joined⟩ := one same
      obtain ⟨rfl, behind⟩ := operator_legible trivial trivial joined
      obtain ⟨rfl, later⟩ := two behind
      -- Further terms start with the operator, so their end can be told by the parenthesis.
      have terms
          : ∀ f ∈ others, ∀ ⦃g : Formula⦄ ⦃rest more : List Char⦄,
              (operator conjunctive).toList ++ (text clause f).toList ++ rest
                = (operator conjunctive).toList ++ (text clause g).toList ++ more
              → f = g ∧ rest = more := by
        intro f listed g rest more same
        rw [List.append_assoc, List.append_assoc] at same
        exact each f listed (List.append_cancel_left same)
      have starts (f : Formula)
          : ∃ start others,
              (operator conjunctive).toList ++ (text clause f).toList = start :: others
              ∧ start ≠ ')' := by
        obtain ⟨others, start⟩ := operator_start conjunctive
        exact ⟨' ', _, by rw [start]; rfl, by decide⟩
      obtain ⟨rfl, after⟩ := eq_of_flatMap_stop terms starts later
      exact ⟨rfl, after⟩
  | _ => cases word_eq same

mutual

theorem told : ∀ f : Formula, f.Told clause
  | .test _ _ _ _ => told_test
  | .status _ _ _ => told_status
  | .constant _ => told_constant
  | .not inner => told_not (told inner)
  | .paren inner => told_paren (told inner)
  | .group _ first second others => told_group (told first) (told second) (toldAll others)

theorem toldAll : ∀ formulas : List Formula, ∀ f ∈ formulas, f.Told clause
  | [] => List.forall_mem_nil _
  | f :: others => List.forall_mem_cons.mpr ⟨told f, toldAll others⟩

end

/-- The text of a formula can be read in one way only. -/
theorem legible : Legible (fun _ => True) fun f => (text clause f).toList :=
  fun f _ _ _ _ _ same => f.told same

theorem text_injective {f g : Formula} (same : f.text clause = g.text clause) : f = g :=
  legible.injective trivial trivial (congrArg String.toList same)

/-! ### Meaning -/

/-- The values of several terms as one. -/
def combine (conjunctive : Bool) (values : List Bool) : Bool :=
  if conjunctive then values.all id else values.any id

mutual

/-- The truth of a formula, with the comparators that its symbols stand for. -/
def evaluate (atom : Condition → Bool) : Formula → Bool
  | .test property symbol value unit => atom (.test ⟨property, .ofSymbol symbol, value, unit⟩)
  | .status target s negated => Condition.evaluate atom (.status target s negated)
  | .constant value => value
  | .not inner => !evaluate atom inner
  | .paren inner => evaluate atom inner
  | .group conjunctive first second rest =>
      combine conjunctive (evaluate atom first :: evaluate atom second :: evaluateAll atom rest)

def evaluateAll (atom : Condition → Bool) : List Formula → List Bool
  | [] => []
  | formula :: rest => evaluate atom formula :: evaluateAll atom rest

end

variable {atom : Condition → Bool}

theorem evaluate_negate (formula : Formula)
    : formula.negate.evaluate atom = !formula.evaluate atom := by
  simp only [negate]
  split
  · rw [evaluate]
  · rw [evaluate, evaluate]

theorem evaluate_junction (conjunctive : Bool) (formulas : List Formula)
    : (junction conjunctive formulas).evaluate atom
      = combine conjunctive (evaluateAll atom formulas) := by
  match formulas with
  | [] => cases conjunctive <;> rfl
  | [formula] => cases conjunctive <;> simp [junction, evaluateAll, combine]
  | first :: second :: rest => simp only [junction, evaluate, evaluateAll]

mutual

/-- The formula of a condition is true where the condition is. -/
theorem evaluate_of?
    : ∀ {c : Condition} {formula : Formula},
        of? c = some formula → (∀ t ∈ c.tests, t.comparator.Distinct)
        → formula.evaluate atom = c.evaluate atom
  | .test t, _, seen, distinct => by
      cases seen
      have same := Comparator.ofSymbol_symbol (distinct t (by simp [Condition.tests]))
      rw [evaluate, same, Condition.evaluate_test]
  | .status target s negated, _, seen, _ => by
      cases seen
      rw [evaluate]
  | .not inner, _, seen, distinct => by
      obtain ⟨formula, below, rfl⟩ := Option.map_eq_some_iff.mp seen
      rw [evaluate_negate, Condition.evaluate_not, evaluate_of? below distinct]
  | .and terms, _, seen, distinct => by
      obtain ⟨formulas, below, rfl⟩ := Option.map_eq_some_iff.mp seen
      rw [evaluate_junction, evaluateAll_ofList? below distinct, Condition.evaluate,
        Condition.evaluateAll_eq_all]
      simp [combine]
  | .or terms, _, seen, distinct => by
      obtain ⟨formulas, below, rfl⟩ := Option.map_eq_some_iff.mp seen
      rw [evaluate_junction, evaluateAll_ofList? below distinct, Condition.evaluate,
        Condition.evaluateAny_eq_any]
      simp [combine]

theorem evaluateAll_ofList?
    : ∀ {terms : List Condition} {formulas : List Formula},
        ofList? terms = some formulas
        → (∀ t ∈ Condition.testsOfList terms, t.comparator.Distinct)
        → evaluateAll atom formulas = terms.map (Condition.evaluate atom)
  | [], _, seen, _ => by cases seen; rfl
  | term :: rest, _, seen, distinct => by
      simp only [ofList?] at seen
      split at seen
      case h_1 formula formulas here later =>
        cases seen
        obtain ⟨first, others⟩ := List.forall_mem_append.mp distinct
        rw [evaluateAll, evaluate_of? here first, evaluateAll_ofList? later others, List.map_cons]
      case h_2 => cases seen

end

end Formula

/-- Conditions with the same constraint are true under the same interpretations, as long as no
unrecognised comparator is spelled like one of the others.
-/
theorem evaluate_eq_of_constraint {a b : Condition} {text : String}
    (first : constraint clause a = some text) (second : constraint clause b = some text)
    (distinct : ∀ t ∈ a.tests ++ b.tests, t.comparator.Distinct) (atom : Condition → Bool)
    : a.evaluate atom = b.evaluate atom := by
  rw [Formula.constraint_eq] at first second
  obtain ⟨f, left, written⟩ := Option.map_eq_some_iff.mp first
  obtain ⟨g, right, same⟩ := Option.map_eq_some_iff.mp second
  obtain rfl : f = g := Formula.text_injective (written.trans same.symm)
  obtain ⟨one, other⟩ := List.forall_mem_append.mp distinct
  calc a.evaluate atom
    _ = f.evaluate atom := (Formula.evaluate_of? left one).symm
    _ = b.evaluate atom := Formula.evaluate_of? right other

/-- A test of a property whose name looks like the end of a look-up and the start of another one. -/
def crookedTest : PropertyTest := ⟨"a\"),get(\"b", .unrecognised "= \"", "\\", "(true && "⟩

/-- A conjunction whose terms are single ones of others. -/
def looseTerms : Condition := .not (.and [.or [.test crookedTest], .lacks ⟨"/b/s1"⟩ .fail, .or []])

/-- The same conjunction, as a single term itself. -/
def closeTerms : Condition :=
  .and [.not (.and [.test crookedTest, .and [.lacks ⟨"/b/s1"⟩ .fail], .or []])]

theorem evaluate_eq_of_constraint_crookedTest
    : (∃ text, constraint "/b" looseTerms = some text ∧ constraint "/b" closeTerms = some text)
      ∧ (∀ t ∈ looseTerms.tests ++ closeTerms.tests, t.comparator.Distinct)
      ∧ ∀ atom, looseTerms.evaluate atom = closeTerms.evaluate atom := by
  obtain ⟨text, first⟩ : ∃ text, constraint "/b" looseTerms = some text := ⟨_, rfl⟩
  have second : constraint "/b" closeTerms = some text := by rw [← first]; rfl
  have distinct : ∀ t ∈ looseTerms.tests ++ closeTerms.tests, t.comparator.Distinct := by
    have tests : looseTerms.tests ++ closeTerms.tests = [crookedTest, crookedTest] := rfl
    rw [tests]
    simp only [List.mem_cons, List.not_mem_nil, or_false, or_self, forall_eq]
    rintro token ⟨⟩
    decide
  exact ⟨⟨text, first, second⟩, distinct, evaluate_eq_of_constraint first second distinct⟩

end Drl

end ClauseRules
