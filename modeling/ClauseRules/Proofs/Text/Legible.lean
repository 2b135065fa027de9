import Mathlib.Data.List.Basic

/-! Writing that can be read without looking ahead. If two values are written with anything behind
them and the outcomes are equal, then the values are equal, and so is what stands behind them. Parts
written one after the other are told apart one after the other.
-/

namespace ClauseRules

/-- The values with the property `ok` can be told apart by how `write` writes them, whatever
follows.
-/
def Legible {α β : Type} (ok : α → Prop) (write : α → List β) : Prop :=
  ∀ ⦃a b⦄, ok a → ok b → ∀ ⦃rest more⦄, write a ++ rest = write b ++ more → a = b ∧ rest = more

namespace Legible

variable {α β : Type} {ok : α → Prop} {write : α → List β} {rest more : List β}

/-- Words none of which starts another one can be told apart. -/
theorem of_prefix_free
    (free : ∀ ⦃a b⦄, ok a → ok b → write a <+: write b → a = b)
    : Legible ok write := by
  intro a b first second rest more same
  have front : write a <+: write b ++ more := ⟨rest, same⟩
  obtain rfl : a = b := by
    rcases List.prefix_or_prefix_of_prefix front (List.prefix_append _ _) with short | long
    · exact free first second short
    · exact (free second first long).symm
  exact ⟨rfl, List.append_cancel_left same⟩

theorem injective (legible : Legible ok write) {a b : α} (first : ok a) (second : ok b)
    (same : write a = write b)
    : a = b :=
  (legible first second (congrArg (· ++ []) same)).1

/-- Of lists the number of items has to be known. -/
theorem flatMap (legible : Legible ok write) {as bs : List α} (first : ∀ a ∈ as, ok a)
    (second : ∀ b ∈ bs, ok b) (length : as.length = bs.length)
    (same : as.flatMap write ++ rest = bs.flatMap write ++ more)
    : as = bs ∧ rest = more := by
  induction as generalizing bs with
  | nil =>
      cases bs with
      | nil => exact ⟨rfl, same⟩
      | cons b bs => simp at length
  | cons a as ih =>
      cases bs with
      | nil => simp at length
      | cons b bs =>
          simp only [List.flatMap_cons, List.append_assoc] at same
          obtain ⟨okA, okAs⟩ := List.forall_mem_cons.mp first
          obtain ⟨okB, okBs⟩ := List.forall_mem_cons.mp second
          obtain ⟨rfl, others⟩ := legible okA okB same
          obtain ⟨rfl, after⟩ := ih okAs okBs (Nat.succ.inj length) others
          exact ⟨rfl, after⟩

end Legible

/-- Of lists that end with a mark the number of items need not be known, if no item starts with the
mark.
-/
theorem eq_of_flatMap_stop {α β : Type} {write : α → List β} {stop : β} {as bs : List α}
    {rest more : List β}
    (legible
      : ∀ a ∈ as, ∀ ⦃b rest more⦄, write a ++ rest = write b ++ more → a = b ∧ rest = more)
    (starts : ∀ a, ∃ first others, write a = first :: others ∧ first ≠ stop)
    (same : as.flatMap write ++ stop :: rest = bs.flatMap write ++ stop :: more)
    : as = bs ∧ rest = more := by
  induction as generalizing bs with
  | nil =>
      cases bs with
      | nil => exact ⟨rfl, List.tail_eq_of_cons_eq same⟩
      | cons b bs =>
          obtain ⟨first, others, start, differs⟩ := starts b
          simp only [List.flatMap_cons, start, List.cons_append, List.flatMap_nil,
            List.nil_append] at same
          exact absurd (List.head_eq_of_cons_eq same).symm differs
  | cons a as ih =>
      cases bs with
      | nil =>
          obtain ⟨first, others, start, differs⟩ := starts a
          simp only [List.flatMap_cons, start, List.cons_append, List.flatMap_nil,
            List.nil_append] at same
          exact absurd (List.head_eq_of_cons_eq same) differs
      | cons b bs =>
          obtain ⟨here, each⟩ := List.forall_mem_cons.mp legible
          simp only [List.flatMap_cons, List.append_assoc] at same
          obtain ⟨rfl, others⟩ := here same
          obtain ⟨rfl, after⟩ := ih each others
          exact ⟨rfl, after⟩

end ClauseRules
