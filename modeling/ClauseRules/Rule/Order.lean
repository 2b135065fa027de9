import ClauseRules.Rule.Basic

/-! The order of rules: field by field, and alternatives in the order of their declaration. -/

namespace ClauseRules

def Status.rank : Status → Nat
  | .notApplicable => 0
  | .applicable => 1
  | .pass => 2
  | .fail => 3

instance : Ord Status where
  compare a b := compare a.rank b.rank

def Outcome.rank : Outcome → Nat
  | .pass => 0
  | .fail => 1

instance : Ord Outcome where
  compare a b := compare a.rank b.rank

def Purpose.rank : Purpose → Nat
  | .notApplicable => 0
  | .applicable => 1
  | .pass => 2
  | .fail => 3
  | .transferPass => 4
  | .transferPassVacuous => 5
  | .transferFail => 6
  | .metaPass => 7
  | .metaPassVacuous => 8
  | .metaFail => 9
  | .documentFinalPass => 10
  | .documentFinalFail => 11
  | .stepPass => 12
  | .clausePass => 13
  | .clauseFail => 14

instance : Ord Purpose where
  compare a b := compare a.rank b.rank

instance : Ord PropertyTest where
  compare a b :=
    (compare a.property b.property).then <| (compare a.comparator b.comparator).then <|
      (compare a.value b.value).then (compare a.unit b.unit)

/-- A list comes after each of its own beginnings, and otherwise the first difference decides. -/
def compareLists {α : Type} [Ord α] : List α → List α → Ordering
  | [], [] => .eq
  | [], _ :: _ => .lt
  | _ :: _, [] => .gt
  | a :: as, b :: bs => (compare a b).then (compareLists as bs)

namespace Condition

def rank : Condition → Nat
  | .test _ => 0
  | .status _ _ _ => 1
  | .not _ => 2
  | .and _ => 3
  | .or _ => 4
  | .forAll _ _ => 5
  | .forSome _ => 6
  | .forNone _ => 7
  | .result _ _ => 8

mutual

def order : Condition → Condition → Ordering
  | .test a, .test b => compare a b
  | .status a s m, .status b t n =>
      (compare a b).then ((compare s t).then (compare m n))
  | .not a, .not b => order a b
  | .and as, .and bs => orderLists as bs
  | .or as, .or bs => orderLists as bs
  | .forAll a c, .forAll b d => (order a b).then (order c d)
  | .forSome a, .forSome b => order a b
  | .forNone a, .forNone b => order a b
  | .result a o, .result b p => (compare a b).then (compare o p)
  | a, b => compare a.rank b.rank

def orderLists : List Condition → List Condition → Ordering
  | [], [] => .eq
  | [], _ :: _ => .lt
  | _ :: _, [] => .gt
  | a :: as, b :: bs => (order a b).then (orderLists as bs)

end

instance : Ord Condition := ⟨order⟩

instance : BEq Condition where
  beq a b := order a b == .eq

end Condition

instance : Ord Effect where
  compare
    | .setStatus p as, .setStatus q bs => (compare p q).then (compareLists as bs)
    | .setStatus _ _, .insertResult _ _ => .lt
    | .insertResult _ _, .setStatus _ _ => .gt
    | .insertResult p a, .insertResult q b => (compare p q).then (compare a b)

/-- A missing object class comes before every other one. -/
def compareEntityTypes : Option String → Option String → Ordering
  | none, none => .eq
  | none, some _ => .lt
  | some _, none => .gt
  | some a, some b => compare a b

instance : Ord Rule where
  compare a b :=
    (compare a.id b.id).then <| (compare a.clause b.clause).then <|
      (compare a.purpose b.purpose).then <|
        (compareEntityTypes a.entityType b.entityType).then <|
          (compare a.guard b.guard).then (compare a.effect b.effect)

instance : BEq Rule where
  beq a b := compare a b == .eq

end ClauseRules
