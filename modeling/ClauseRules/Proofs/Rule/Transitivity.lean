import ClauseRules.Proofs.Rule.Comparison

/-! The order of rules is a total order. Most parts are compared field by field or by a key, so they
inherit it from texts and numbers; conditions nest, and are followed in step.
-/

namespace ClauseRules

open Std (LawfulEqOrd OrientedCmp OrientedOrd TransCmp TransOrd)

/-- An order is total and transitive if it agrees with one that is. -/
theorem transOrd_of_eq {α : Type} [Ord α] (cmp : α → α → Ordering) [TransCmp cmp]
    (same : ∀ a b, compare a b = cmp a b)
    : TransOrd α := by
  have orders : (compare : α → α → Ordering) = cmp := funext fun a => funext (same a)
  rw [TransOrd, orders]
  infer_instance

/-- Where only equal values compare equal, it is enough to look at the strict part of an order. -/
theorem transOrd_of_lt_trans {α : Type} [Ord α] [LawfulEqOrd α]
    (swap : ∀ a b : α, compare a b = (compare b a).swap)
    (trans : ∀ a b c : α, compare a b = .lt → compare b c = .lt → compare a c = .lt)
    : TransOrd α where
  eq_swap := swap _ _
  isLE_trans {a b c} first second := by
    cases start : compare a b with
    | gt => simp [start] at first
    | eq => rwa [LawfulEqOrd.eq_of_compare start]
    | lt =>
        cases next : compare b c with
        | gt => simp [next] at second
        | eq => rw [← LawfulEqOrd.eq_of_compare next, start]; rfl
        | lt => rw [trans a b c start next]; rfl

/-- Two comparisons one after the other are transitive if each is and only equal values pass the
first.
-/
theorem then_lt_trans {α : Type} {cmp : α → α → Ordering} {a b c : α} {o p q : Ordering}
    (equal : ∀ x y, cmp x y = .eq → x = y)
    (here : cmp a b = .lt → cmp b c = .lt → cmp a c = .lt) (later : o = .lt → p = .lt → q = .lt)
    (first : (cmp a b).then o = .lt) (second : (cmp b c).then p = .lt)
    : (cmp a c).then q = .lt := by
  rw [Ordering.then_eq_lt] at first second ⊢
  rcases first with less | ⟨same, less⟩
  · rcases second with next | ⟨same, _⟩
    · exact .inl (here less next)
    · exact .inl (equal b c same ▸ less)
  · obtain rfl := equal a b same
    rcases second with next | ⟨also, next⟩
    · exact .inl next
    · exact .inr ⟨also, later less next⟩

/-! ### Names, tests and lists -/

instance : TransOrd RulePath := transOrd_of_eq (compareOn RulePath.text) fun _ _ => rfl

instance : TransOrd Status := transOrd_of_eq (compareOn Status.rank) fun _ _ => rfl

instance : TransOrd Outcome := transOrd_of_eq (compareOn Outcome.rank) fun _ _ => rfl

instance : TransOrd Purpose := transOrd_of_eq (compareOn Purpose.rank) fun _ _ => rfl

/-- The token that tells unrecognised comparators apart. -/
def Comparator.token : Comparator → String
  | .unrecognised token => token
  | _ => ""

instance : TransOrd Comparator :=
  transOrd_of_eq (compareLex (compareOn Comparator.rank) (compareOn Comparator.token))
    fun a b => by cases a <;> cases b <;> rfl

instance : TransOrd PropertyTest :=
  transOrd_of_eq
    (compareLex (compareOn PropertyTest.property)
      (compareLex (compareOn PropertyTest.comparator)
        (compareLex (compareOn PropertyTest.value) (compareOn PropertyTest.unit))))
    fun _ _ => rfl

theorem compareLists_eq {α : Type} [Ord α] (as bs : List α)
    : compareLists as bs = List.compareLex compare as bs := by
  induction as generalizing bs with
  | nil => cases bs <;> rfl
  | cons a rest ih =>
      cases bs with
      | nil => rfl
      | cons b more => rw [compareLists, ih, List.compareLex_cons_cons]

theorem compareEntityTypes_eq (a b : Option String) : compareEntityTypes a b = compare a b := by
  cases a <;> cases b <;> rfl

/-! ### Conditions -/

namespace Condition

mutual

theorem order_swap (a b : Condition) : order a b = (order b a).swap := by
  cases a <;> cases b
  case test.test s t => exact OrientedOrd.eq_swap
  case status.status p s m q t n =>
    simp only [order, Ordering.swap_then]
    rw [← OrientedOrd.eq_swap, ← OrientedOrd.eq_swap, ← OrientedOrd.eq_swap]
  case not.not a b => simp only [order]; exact order_swap a b
  case and.and as bs => simp only [order]; exact orderLists_swap as bs
  case or.or as bs => simp only [order]; exact orderLists_swap as bs
  case forAll.forAll a c b d =>
    simp only [order, Ordering.swap_then, ← order_swap a b, ← order_swap c d]
  case forSome.forSome a b => simp only [order]; exact order_swap a b
  case forNone.forNone a b => simp only [order]; exact order_swap a b
  case result.result p o q u =>
    simp only [order, Ordering.swap_then]
    rw [← OrientedOrd.eq_swap, ← OrientedOrd.eq_swap]
  all_goals rfl
termination_by sizeOf a

theorem orderLists_swap (as bs : List Condition) : orderLists as bs = (orderLists bs as).swap := by
  cases as with
  | nil => cases bs <;> rfl
  | cons a rest =>
      cases bs with
      | nil => rfl
      | cons b more =>
          simp only [orderLists, Ordering.swap_then, ← order_swap a b, ← orderLists_swap rest more]
termination_by sizeOf as

end

/-- Different alternatives are compared by their rank alone. -/
theorem order_of_rank_ne {a b : Condition} (differ : a.rank ≠ b.rank)
    : order a b = compare a.rank b.rank := by
  cases a <;> cases b <;> first | rfl | exact absurd rfl differ

theorem rank_le_of_lt {a b : Condition} (less : order a b = .lt) : a.rank ≤ b.rank := by
  by_cases same : a.rank = b.rank
  · exact Nat.le_of_eq same
  · rw [order_of_rank_ne same, Nat.compare_eq_lt] at less
    exact Nat.le_of_lt less

theorem lt_of_rank_lt {a b : Condition} (less : a.rank < b.rank) : order a b = .lt := by
  rw [order_of_rank_ne (Nat.ne_of_lt less), Nat.compare_eq_lt]
  exact less

mutual

theorem order_trans (a b c : Condition) (first : order a b = .lt) (second : order b c = .lt)
    : order a c = .lt := by
  by_cases apart : a.rank < c.rank
  · exact lt_of_rank_lt apart
  -- Otherwise all three are the same alternative.
  have low := rank_le_of_lt first
  have high := rank_le_of_lt second
  have left : a.rank = b.rank := by omega
  have right : b.rank = c.rank := by omega
  clear low high apart
  cases a <;> cases b <;> simp only [rank, reduceCtorEq, Nat.reduceEqDiff] at left
  all_goals
    cases c <;> simp only [rank, Nat.reduceEqDiff] at right
  all_goals simp only [order] at first second ⊢
  case test.test.test s t u => exact TransCmp.lt_trans first second
  case status.status.status p s m q t n r u o =>
    exact then_lt_trans (fun _ _ => LawfulEqOrd.eq_of_compare) TransCmp.lt_trans
      (then_lt_trans (fun _ _ => LawfulEqOrd.eq_of_compare) TransCmp.lt_trans TransCmp.lt_trans)
      first second
  case not.not.not a b c => exact order_trans a b c first second
  case and.and.and as bs cs => exact orderLists_trans as bs cs first second
  case or.or.or as bs cs => exact orderLists_trans as bs cs first second
  case forAll.forAll.forAll a d b e c f =>
    exact then_lt_trans (fun x y => (order_eq_iff x y).mp) (order_trans a b c) (order_trans d e f)
      first second
  case forSome.forSome.forSome a b c => exact order_trans a b c first second
  case forNone.forNone.forNone a b c => exact order_trans a b c first second
  case result.result.result p o q u r v =>
    exact then_lt_trans (fun _ _ => LawfulEqOrd.eq_of_compare) TransCmp.lt_trans TransCmp.lt_trans
      first second
termination_by sizeOf a

theorem orderLists_trans (as bs cs : List Condition) (first : orderLists as bs = .lt)
    (second : orderLists bs cs = .lt)
    : orderLists as cs = .lt := by
  cases as with
  | nil =>
      cases cs with
      | nil => cases bs <;> simp [orderLists] at first second
      | cons => rfl
  | cons a rest =>
      cases bs with
      | nil => simp [orderLists] at first
      | cons b more =>
          cases cs with
          | nil => simp [orderLists] at second
          | cons c others =>
              simp only [orderLists] at first second ⊢
              exact then_lt_trans (fun x y => (order_eq_iff x y).mp) (order_trans a b c)
                (orderLists_trans rest more others) first second
termination_by sizeOf as

end

end Condition

instance : TransOrd Condition := transOrd_of_lt_trans Condition.order_swap Condition.order_trans

/-! ### Rules -/

namespace Effect

theorem compare_setStatus (p q : RulePath) (as bs : List Status)
    : compare (setStatus p as) (setStatus q bs)
      = (compare p q).then (List.compareLex compare as bs) := by
  rw [← compareLists_eq]
  rfl

theorem compare_insertResult (p q : RulePath) (a b : Outcome)
    : compare (insertResult p a) (insertResult q b) = (compare p q).then (compare a b) := rfl

theorem compare_swap (a b : Effect) : compare a b = (compare b a).swap := by
  cases a <;> cases b
  case setStatus.setStatus p as q bs =>
    rw [compare_setStatus, compare_setStatus, Ordering.swap_then, ← OrientedOrd.eq_swap,
      ← OrientedCmp.eq_swap]
  case insertResult.insertResult p a q b =>
    rw [compare_insertResult, compare_insertResult, Ordering.swap_then, ← OrientedOrd.eq_swap,
      ← OrientedOrd.eq_swap]
  all_goals rfl

theorem compare_trans (a b c : Effect) (first : compare a b = .lt) (second : compare b c = .lt)
    : compare a c = .lt := by
  cases a <;> cases b <;> cases c
  case setStatus.setStatus.setStatus p as q bs r cs =>
    rw [compare_setStatus] at *
    exact then_lt_trans (fun _ _ => LawfulEqOrd.eq_of_compare) TransCmp.lt_trans TransCmp.lt_trans
      first second
  case insertResult.insertResult.insertResult p a q b r c =>
    exact then_lt_trans (fun _ _ => LawfulEqOrd.eq_of_compare) TransCmp.lt_trans TransCmp.lt_trans
      first second
  -- Effects on statuses come before results.
  case setStatus.insertResult.setStatus => cases second
  case insertResult.setStatus.insertResult => cases first
  all_goals first | rfl | cases first | cases second

end Effect

instance : TransOrd Effect := transOrd_of_lt_trans Effect.compare_swap Effect.compare_trans

instance : TransOrd Rule :=
  transOrd_of_eq
    (compareLex (compareOn Rule.id)
      (compareLex (compareOn Rule.clause)
        (compareLex (compareOn Rule.purpose)
          (compareLex (compareOn Rule.entityType)
            (compareLex (compareOn Rule.guard) (compareOn Rule.effect))))))
    fun a b => by
      simp only [compareLex, compareOn, ← compareEntityTypes_eq]
      rfl

end ClauseRules
