import ClauseRules.Sorted.Map
import Mathlib.Data.List.Pairwise

/-! Maps are kept in increasing order of their keys. Every map that is made by setting values is, a
value is found under its key, and a map is made again by setting its values in their order.
-/

namespace ClauseRules.SortedMap

open Std (LawfulEqOrd OrientedCmp ReflCmp TransCmp TransOrd)

variable {κ α : Type} [Ord κ] {m : SortedMap κ α} {k key : κ} {a : α} {f : Option α → α}
  {l rest entries : List (κ × α)}

/-- The keys stand in increasing order, each of them once. -/
def Increasing (m : SortedMap κ α) : Prop :=
  m.toList.Pairwise fun entry next => compare entry.1 next.1 = .lt

theorem increasing_empty : (∅ : SortedMap κ α).Increasing := List.Pairwise.nil

/-! ### Altering -/

/-- What holds of all entries holds of them after one was altered if it holds of that one. -/
theorem forall_alterIn [LawfulEqOrd κ] {P : κ → α → Prop} (old : ∀ entry ∈ l, P entry.1 entry.2)
    (altered : ∀ before, (∀ a ∈ before, P k a) → P k (f before))
    : ∀ entry ∈ alterIn k f l, P entry.1 entry.2 := by
  have new : P k (f none) := altered none nofun
  induction l with
  | nil => exact List.forall_mem_singleton.mpr new
  | cons entry rest ih =>
      obtain ⟨here, later⟩ := List.forall_mem_cons.mp old
      simp only [alterIn]
      split
      case h_1 => exact List.forall_mem_cons.mpr ⟨new, old⟩
      case h_2 same =>
        obtain rfl := LawfulEqOrd.eq_of_compare same
        refine List.forall_mem_cons.mpr ⟨altered _ fun b found => ?_, later⟩
        exact Option.some.inj found ▸ here
      case h_3 => exact List.forall_mem_cons.mpr ⟨here, ih later⟩

theorem forall_alter [LawfulEqOrd κ] {P : κ → α → Prop}
    (old : ∀ entry ∈ m.toList, P entry.1 entry.2)
    (altered : ∀ before, (∀ a ∈ before, P k a) → P k (f before))
    : ∀ entry ∈ (m.alter k f).toList, P entry.1 entry.2 :=
  forall_alterIn old altered

theorem forall_insert [LawfulEqOrd κ] {P : κ → α → Prop}
    (old : ∀ entry ∈ m.toList, P entry.1 entry.2) (new : P k a)
    : ∀ entry ∈ (m.insert k a).toList, P entry.1 entry.2 :=
  forall_alterIn old fun _ _ => new

theorem pairwise_alterIn [TransOrd κ] [LawfulEqOrd κ]
    (increasing : l.Pairwise fun entry next => compare entry.1 next.1 = .lt)
    : (alterIn k f l).Pairwise fun entry next => compare entry.1 next.1 = .lt := by
  induction l with
  | nil => exact List.pairwise_singleton _ _
  | cons entry rest ih =>
      obtain ⟨first, later⟩ := List.pairwise_cons.mp increasing
      simp only [alterIn]
      split
      case h_1 less =>
        refine List.pairwise_cons.mpr ⟨List.forall_mem_cons.mpr ⟨less, ?_⟩, increasing⟩
        exact fun next member => TransCmp.lt_trans less (first next member)
      case h_2 => exact List.pairwise_cons.mpr ⟨first, later⟩
      case h_3 greater =>
        refine List.pairwise_cons.mpr ⟨?_, ih later⟩
        exact forall_alterIn (P := fun key _ => compare entry.1 key = .lt) first
          fun _ _ => OrientedCmp.gt_iff_lt.mp greater

theorem Increasing.alter [TransOrd κ] [LawfulEqOrd κ] (increasing : m.Increasing)
    : (m.alter k f).Increasing :=
  pairwise_alterIn increasing

theorem Increasing.insert [TransOrd κ] [LawfulEqOrd κ] (increasing : m.Increasing)
    : (m.insert k a).Increasing :=
  increasing.alter

/-! ### Looking up -/

/-- A value is found under its key. -/
theorem Increasing.get?_of_mem [TransOrd κ] [LawfulEqOrd κ] (increasing : m.Increasing)
    (member : (k, a) ∈ m.toList)
    : m.get? k = some a := by
  obtain ⟨front, rest, split⟩ := List.append_of_mem member
  -- All keys in front of the entry are less than its own, so that the search passes over them.
  have passed : ∀ entry ∈ front, ¬(compare k entry.1 == .eq) = true := by
    intro entry before same
    have less : compare entry.1 k = .lt := by
      rw [Increasing, split] at increasing
      exact (List.pairwise_append.mp increasing).2.2 entry before _ List.mem_cons_self
    rw [LawfulEqOrd.eq_of_compare (beq_iff_eq.mp same)] at less
    cases ReflCmp.compare_self.symm.trans less
  have found : m.toList.find? (fun entry => compare k entry.1 == .eq) = some (k, a) := by
    rw [split, List.find?_append, List.find?_eq_none.mpr passed, Option.none_or,
      List.find?_cons_of_pos (by simp)]
  rw [get?, found]
  rfl

/-- Only a value that stands under its key is found. -/
theorem mem_of_get? [LawfulEqOrd κ] (found : m.get? k = some a) : (k, a) ∈ m.toList := by
  obtain ⟨entry, here, rfl⟩ := Option.map_eq_some_iff.mp found
  have same := List.find?_some here
  rw [LawfulEqOrd.eq_of_compare (beq_iff_eq.mp same)]
  exact List.mem_of_find?_eq_some here

theorem mem_keys_of_get? [LawfulEqOrd κ] (found : m.get? k = some a) : k ∈ m.keys :=
  List.mem_map_of_mem (mem_of_get? found)

/-! ### Looking up after altering -/

theorem get?_cons_of_eq (same : compare key k = .eq)
    : (⟨(k, a) :: rest⟩ : SortedMap κ α).get? key = some a := by
  rw [get?, List.find?_cons_of_pos (by simpa using same), Option.map_some]

theorem get?_cons_of_ne (differs : compare key k ≠ .eq)
    : (⟨(k, a) :: rest⟩ : SortedMap κ α).get? key = (⟨rest⟩ : SortedMap κ α).get? key := by
  rw [get?, List.find?_cons_of_neg (by simpa using differs), get?]

/-- Altering a map at a key leaves the values at all other keys. -/
theorem get?_alter_of_ne [LawfulEqOrd κ] (differs : key ≠ k)
    : (m.alter k f).get? key = m.get? key := by
  have apart : compare key k ≠ .eq := fun same => differs (LawfulEqOrd.eq_of_compare same)
  obtain ⟨l⟩ := m
  simp only [alter]
  induction l with
  | nil => exact get?_cons_of_ne apart
  | cons entry rest ih =>
      simp only [alterIn]
      split
      case h_1 => exact get?_cons_of_ne apart
      case h_2 same =>
        obtain rfl := LawfulEqOrd.eq_of_compare same
        rw [get?_cons_of_ne apart, get?_cons_of_ne apart]
      case h_3 =>
        by_cases here : compare key entry.1 = .eq
        · rw [get?_cons_of_eq here, get?_cons_of_eq here]
        · rw [get?_cons_of_ne here, get?_cons_of_ne here, ih]

theorem Increasing.get?_alter_self [TransOrd κ] [LawfulEqOrd κ] (increasing : m.Increasing)
    : (m.alter k f).get? k = some (f (m.get? k)) := by
  obtain ⟨l⟩ := m
  simp only [SortedMap.alter]
  induction l with
  | nil => exact get?_cons_of_eq ReflCmp.compare_self
  | cons entry rest ih =>
      obtain ⟨first, later⟩ := List.pairwise_cons.mp increasing
      simp only [alterIn]
      split
      case h_1 less =>
        have absent : (⟨entry :: rest⟩ : SortedMap κ α).get? k = none := by
          refine Option.eq_none_iff_forall_ne_some.mpr fun b found => ?_
          rcases List.mem_cons.mp (mem_of_get? found) with same | inside
          · rw [← same] at less
            cases ReflCmp.compare_self.symm.trans less
          · cases ReflCmp.compare_self.symm.trans (TransCmp.lt_trans less (first _ inside))
        rw [get?_cons_of_eq ReflCmp.compare_self, absent]
      case h_2 same => rw [get?_cons_of_eq same, get?_cons_of_eq same]
      case h_3 greater =>
        have differs : compare k entry.1 ≠ .eq := by simp [greater]
        rw [get?_cons_of_ne differs, get?_cons_of_ne differs, ih later]

/-! ### Making a map again -/

/-- An entry is altered behind all those whose keys are less. -/
theorem alterIn_append [OrientedCmp (compare (α := κ))]
    (less : ∀ entry ∈ l, compare entry.1 k = .lt)
    : alterIn k f (l ++ rest) = l ++ alterIn k f rest := by
  induction l with
  | nil => rfl
  | cons entry more ih =>
      obtain ⟨here, later⟩ := List.forall_mem_cons.mp less
      simp only [List.cons_append, alterIn, OrientedCmp.gt_iff_lt.mpr here, ih later]

/-- A key that is greater than all others gets the last entry. -/
theorem alterIn_of_lt [OrientedCmp (compare (α := κ))] (less : ∀ entry ∈ l, compare entry.1 k = .lt)
    : alterIn k f l = l ++ [(k, f none)] := by
  have behind : alterIn k f (l ++ []) = l ++ alterIn k f [] := alterIn_append less
  rwa [List.append_nil] at behind

/-- Values that are set in increasing order of their keys stand in this order. -/
theorem foldl_insert_of_pairwise [OrientedCmp (compare (α := κ))]
    (increasing : (l ++ entries).Pairwise fun entry next => compare entry.1 next.1 = .lt)
    : entries.foldl (fun (m : SortedMap κ α) entry => m.insert entry.1 entry.2) ⟨l⟩
      = ⟨l ++ entries⟩ := by
  induction entries generalizing l with
  | nil => rw [List.append_nil]; rfl
  | cons entry rest ih =>
      have less : ∀ other ∈ l, compare other.1 entry.1 = .lt := fun other member =>
        (List.pairwise_append.mp increasing).2.2 other member entry List.mem_cons_self
      have step : (⟨l⟩ : SortedMap κ α).insert entry.1 entry.2 = ⟨l ++ [entry]⟩ := by
        exact congrArg SortedMap.mk (alterIn_of_lt less)
      rw [List.append_cons] at increasing ⊢
      rw [List.foldl_cons, step, ih increasing]

end ClauseRules.SortedMap
