import ClauseRules.Sorted.Set

/-! The members of a set are those that were inserted. Nothing here needs the list to be
increasing: it suffices that members which compare equal are equal.
-/

namespace ClauseRules.SortedSet

variable {α : Type}

instance : Membership α (SortedSet α) := ⟨fun s a => a ∈ s.toList⟩

theorem mem_toList {a : α} {s : SortedSet α} : a ∈ s.toList ↔ a ∈ s := Iff.rfl

@[simp]
theorem not_mem_empty {a : α} : a ∉ (∅ : SortedSet α) := List.not_mem_nil

instance {p : α → Prop} [DecidablePred p] {s : SortedSet α} : Decidable (∀ a ∈ s, p a) :=
  inferInstanceAs (Decidable (∀ a ∈ s.toList, p a))

instance {p : α → Prop} [DecidablePred p] {s : SortedSet α} : Decidable (∃ a ∈ s, p a) :=
  inferInstanceAs (Decidable (∃ a ∈ s.toList, p a))

variable [Ord α] [Std.LawfulEqOrd α]

theorem mem_insertInto {a b : α} {l : List α} : b ∈ insertInto a l ↔ b = a ∨ b ∈ l := by
  induction l with
  | nil => simp [insertInto]
  | cons c rest ih =>
      cases order : compare a c with
      | lt => simp [insertInto, order]
      | eq =>
          have same : a = c := Std.LawfulEqOrd.compare_eq_iff_eq.mp order
          simp [insertInto, same]
      | gt =>
          simp only [insertInto, order, List.mem_cons, ih]
          exact or_left_comm

@[simp]
theorem mem_insert {a b : α} {s : SortedSet α} : b ∈ s.insert a ↔ b = a ∨ b ∈ s :=
  mem_insertInto

@[simp]
theorem mem_insertAll {as : List α} {b : α} {s : SortedSet α}
    : b ∈ s.insertAll as ↔ b ∈ as ∨ b ∈ s := by
  induction as generalizing s with
  | nil => simp [insertAll]
  | cons a rest ih =>
      have step : b ∈ (s.insert a).insertAll rest ↔ b ∈ rest ∨ b ∈ s.insert a := ih
      simp only [mem_insert] at step
      simpa [insertAll, or_assoc, or_left_comm] using step

theorem mem_ofList {as : List α} {b : α} : b ∈ ofList as ↔ b ∈ as :=
  mem_insertAll.trans (or_iff_left not_mem_empty)

@[simp]
theorem contains_iff {a : α} {s : SortedSet α} : s.contains a = true ↔ a ∈ s := by
  simp only [contains, List.any_eq_true, Std.LawfulEqOrd.compare_beq_iff_eq]
  exact ⟨fun ⟨_, member, same⟩ => same ▸ member, fun member => ⟨a, member, rfl⟩⟩

instance {a : α} {s : SortedSet α} : Decidable (a ∈ s) := decidable_of_iff _ contains_iff

@[simp]
theorem mem_inter {a : α} {s t : SortedSet α} : a ∈ s.inter t ↔ a ∈ s ∧ a ∈ t := by
  simp only [inter, ← mem_toList, List.mem_filter, contains_iff]

end ClauseRules.SortedSet
