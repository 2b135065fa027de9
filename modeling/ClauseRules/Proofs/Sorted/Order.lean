import ClauseRules.Proofs.Sorted.Members
import Mathlib.Data.List.Nodup

/-! Sets are kept in increasing order. Every set that is made by inserting members is, such a set is
made again by inserting its members in their order, and it is known by its members.
-/

namespace ClauseRules.SortedSet

open Std (LawfulEqOrd OrientedCmp ReflCmp TransCmp TransOrd)

variable {α : Type} [Ord α] {s t : SortedSet α} {a : α} {l as : List α}

/-- The members stand in increasing order, each of them once. -/
def Increasing (s : SortedSet α) : Prop := s.toList.Pairwise fun a b => compare a b = .lt

theorem increasing_empty : (∅ : SortedSet α).Increasing := List.Pairwise.nil

section

variable [TransOrd α] [LawfulEqOrd α]

theorem pairwise_insertInto (increasing : l.Pairwise fun a b => compare a b = .lt)
    : (insertInto a l).Pairwise fun a b => compare a b = .lt := by
  induction l with
  | nil => exact List.pairwise_singleton _ _
  | cons b rest ih =>
      obtain ⟨first, later⟩ := List.pairwise_cons.mp increasing
      simp only [insertInto]
      split
      case h_1 less =>
        refine List.pairwise_cons.mpr ⟨List.forall_mem_cons.mpr ⟨less, ?_⟩, increasing⟩
        exact fun c member => TransCmp.lt_trans less (first c member)
      case h_2 => exact increasing
      case h_3 greater =>
        refine List.pairwise_cons.mpr ⟨fun c member => ?_, ih later⟩
        rcases mem_insertInto.mp member with rfl | old
        · exact OrientedCmp.gt_iff_lt.mp greater
        · exact first c old

theorem Increasing.insert (increasing : s.Increasing) (a : α) : (s.insert a).Increasing :=
  pairwise_insertInto increasing

theorem Increasing.insertAll (increasing : s.Increasing) (as : List α)
    : (s.insertAll as).Increasing := by
  induction as generalizing s with
  | nil => exact increasing
  | cons a rest ih => exact ih (increasing.insert a)

theorem increasing_ofList (as : List α) : (ofList as).Increasing := increasing_empty.insertAll as

end

/-- What is greater than all members is added at the end. -/
theorem insertInto_of_lt [OrientedCmp (compare (α := α))] (greatest : ∀ b ∈ l, compare b a = .lt)
    : insertInto a l = l ++ [a] := by
  induction l with
  | nil => rfl
  | cons b rest ih =>
      obtain ⟨here, later⟩ := List.forall_mem_cons.mp greatest
      simp only [insertInto, OrientedCmp.gt_iff_lt.mpr here, ih later, List.cons_append]

theorem insertAll_of_pairwise [OrientedCmp (compare (α := α))]
    (increasing : (l ++ as).Pairwise fun a b => compare a b = .lt)
    : insertAll as ⟨l⟩ = ⟨l ++ as⟩ := by
  induction as generalizing l with
  | nil => rw [List.append_nil]; rfl
  | cons a rest ih =>
      have greatest : ∀ b ∈ l, compare b a = .lt := fun b member =>
        (List.pairwise_append.mp increasing).2.2 b member a List.mem_cons_self
      -- The set grows at its end only, so that what is left to insert stays greater.
      have step : insertAll (a :: rest) ⟨l⟩ = insertAll rest ⟨l ++ [a]⟩ := by
        rw [← insertInto_of_lt greatest]
        rfl
      rw [List.append_cons] at increasing ⊢
      rw [step, ih increasing]

/-- A set is made again from the list of its members. -/
theorem Increasing.ofList_toList [OrientedCmp (compare (α := α))] (increasing : s.Increasing)
    : ofList s.toList = s :=
  insertAll_of_pairwise (l := []) increasing

/-- Narrowing a set keeps the order of its members. -/
theorem Increasing.inter (increasing : s.Increasing) (t : SortedSet α) : (s.inter t).Increasing :=
  List.Pairwise.filter _ increasing

theorem Increasing.nodup [OrientedCmp (compare (α := α))] (increasing : s.Increasing)
    : s.toList.Nodup :=
  increasing.imp fun less equal => by
    rw [equal] at less
    cases ReflCmp.compare_self.symm.trans less

/-- Sets with the same members are equal. -/
theorem Increasing.ext [OrientedCmp (compare (α := α))] (first : s.Increasing)
    (second : t.Increasing) (same : ∀ a, a ∈ s ↔ a ∈ t)
    : s = t := by
  have perm : s.toList.Perm t.toList :=
    (List.perm_ext_iff_of_nodup first.nodup second.nodup).mpr same
  have lists : s.toList = t.toList := by
    refine perm.eq_of_pairwise (fun a b _ _ less greater => ?_) first second
    rw [OrientedCmp.gt_iff_lt.mpr less] at greater
    cases greater
  cases s
  cases t
  exact congrArg SortedSet.mk lists

end ClauseRules.SortedSet
