import ClauseRules.Node.Kind
import ClauseRules.Rule.Order

/-! Only equal rules compare equal. Every part of a rule has the property for itself: keys and
ranks tell values apart, and fields are compared one after the other until they differ.
-/

namespace ClauseRules

open Std (LawfulEqOrd)
open Std.LawfulEqOrd renaming compare_eq_iff_eq → lawful_iff

/-- An order in which the result `eq` means equality is lawful. -/
theorem lawfulEqOrd_of_iff {α : Type} [Ord α]
    (iff : ∀ a b : α, compare a b = .eq ↔ a = b)
    : LawfulEqOrd α where
  compare_self := (iff _ _).mpr rfl
  eq_of_compare := (iff _ _).mp

/-- An order by a key is lawful if the key tells all values apart. -/
theorem lawfulEqOrd_of_key {α β : Type} [Ord α] [Ord β] [LawfulEqOrd β] (key : α → β)
    (byKey : ∀ a b, compare a b = compare (key a) (key b))
    (injective : ∀ a b, key a = key b → a = b)
    : LawfulEqOrd α :=
  lawfulEqOrd_of_iff fun a b => by
    rw [byKey, lawful_iff]
    exact ⟨injective a b, congrArg key⟩

/-! ### Names, statuses and purposes -/

theorem NodeId.eq_of_text {a b : NodeId} (same : a.text = b.text) : a = b := by
  cases a
  cases b
  cases same
  rfl

instance : LawfulEqOrd NodeId :=
  lawfulEqOrd_of_key NodeId.text (fun _ _ => rfl) fun _ _ => NodeId.eq_of_text

instance : LawfulEqOrd RulePath :=
  lawfulEqOrd_of_key RulePath.text (fun _ _ => rfl) fun ⟨_⟩ ⟨_⟩ same => by
    cases same
    rfl

instance : LawfulEqOrd Status :=
  lawfulEqOrd_of_key Status.rank (fun _ _ => rfl) fun a b same => by
    cases a <;> cases b <;> first | rfl | cases same

instance : LawfulEqOrd Outcome :=
  lawfulEqOrd_of_key Outcome.rank (fun _ _ => rfl) fun a b same => by
    cases a <;> cases b <;> first | rfl | cases same

instance : LawfulEqOrd Purpose :=
  lawfulEqOrd_of_key Purpose.rank (fun _ _ => rfl) fun a b same => by
    cases a <;> cases b <;> first | rfl | cases same

/-! ### Tests and conditions -/

instance : LawfulEqOrd Comparator := lawfulEqOrd_of_iff fun a b => by
  cases a with
  | unrecognised s =>
      cases b with
      | unrecognised t =>
          have tokens : compare (Comparator.unrecognised s) (.unrecognised t) = compare s t := rfl
          rw [tokens, lawful_iff, Comparator.unrecognised.injEq]
      | _ => exact iff_of_false nofun nofun
  | _ =>
      cases b <;> first
        | exact iff_of_true rfl rfl
        | exact iff_of_false nofun nofun

instance : LawfulEqOrd PropertyTest := lawfulEqOrd_of_iff fun ⟨p, c, v, u⟩ ⟨q, d, w, x⟩ => by
  have fields : compare (⟨p, c, v, u⟩ : PropertyTest) ⟨q, d, w, x⟩
      = (compare p q).then ((compare c d).then ((compare v w).then (compare u x))) := rfl
  simp only [fields, Ordering.then_eq_eq, lawful_iff, PropertyTest.mk.injEq]

theorem compareLists_eq_iff {α : Type} [Ord α] [LawfulEqOrd α] {as bs : List α}
    : compareLists as bs = .eq ↔ as = bs := by
  induction as generalizing bs with
  | nil => cases bs <;> simp [compareLists]
  | cons a rest ih =>
      cases bs with
      | nil => simp [compareLists]
      | cons b more =>
          simp only [compareLists, Ordering.then_eq_eq, lawful_iff, ih, List.cons.injEq]

namespace Condition

mutual

theorem order_eq_iff (a b : Condition) : order a b = .eq ↔ a = b := by
  cases a <;> cases b
  case test.test s t => simp only [order, lawful_iff, test.injEq]
  case status.status p s m q t n =>
    simp only [order, Ordering.then_eq_eq, lawful_iff, status.injEq]
  case not.not a b => simp only [order, order_eq_iff a b, not.injEq]
  case and.and as bs => simp only [order, orderLists_eq_iff as bs, and.injEq]
  case or.or as bs => simp only [order, orderLists_eq_iff as bs, or.injEq]
  case forAll.forAll a c b d =>
    simp only [order, Ordering.then_eq_eq, order_eq_iff a b, order_eq_iff c d, forAll.injEq]
  case forSome.forSome a b => simp only [order, order_eq_iff a b, forSome.injEq]
  case forNone.forNone a b => simp only [order, order_eq_iff a b, forNone.injEq]
  case result.result p o q u =>
    simp only [order, Ordering.then_eq_eq, lawful_iff, result.injEq]
  all_goals exact iff_of_false nofun nofun
termination_by sizeOf a

theorem orderLists_eq_iff (as bs : List Condition) : orderLists as bs = .eq ↔ as = bs := by
  cases as with
  | nil => cases bs <;> simp [orderLists]
  | cons a rest =>
      cases bs with
      | nil => simp [orderLists]
      | cons b more =>
          simp only [orderLists, Ordering.then_eq_eq, order_eq_iff a b,
            orderLists_eq_iff rest more, List.cons.injEq]
termination_by sizeOf as

end

end Condition

instance : LawfulEqOrd Condition := lawfulEqOrd_of_iff Condition.order_eq_iff

/-! ### Rules -/

instance : LawfulEqOrd Effect := lawfulEqOrd_of_iff fun a b => by
  cases a with
  | setStatus p as =>
      cases b with
      | setStatus q bs =>
          have fields : compare (Effect.setStatus p as) (.setStatus q bs)
              = (compare p q).then (compareLists as bs) := rfl
          simp only [fields, Ordering.then_eq_eq, lawful_iff, compareLists_eq_iff,
            Effect.setStatus.injEq]
      | insertResult q o => exact iff_of_false nofun nofun
  | insertResult p o =>
      cases b with
      | setStatus q bs => exact iff_of_false nofun nofun
      | insertResult q u =>
          have fields : compare (Effect.insertResult p o) (.insertResult q u)
              = (compare p q).then (compare o u) := rfl
          simp only [fields, Ordering.then_eq_eq, lawful_iff, Effect.insertResult.injEq]

theorem compareEntityTypes_eq_iff {a b : Option String}
    : compareEntityTypes a b = .eq ↔ a = b := by
  cases a <;> cases b <;> simp [compareEntityTypes]

instance : LawfulEqOrd Rule :=
  lawfulEqOrd_of_iff fun ⟨i, p, u, t, g, e⟩ ⟨j, q, v, s, h, f⟩ => by
    have fields : compare (⟨i, p, u, t, g, e⟩ : Rule) ⟨j, q, v, s, h, f⟩
        = (compare i j).then ((compare p q).then ((compare u v).then
          ((compareEntityTypes t s).then ((compare g h).then (compare e f))))) := rfl
    simp only [fields, Ordering.then_eq_eq, lawful_iff, compareEntityTypes_eq_iff,
      Rule.mk.injEq]

end ClauseRules
