import Mathlib.Data.List.Forall2

/-! Runs that end with a result or with an error, and what is known of their parts when the whole
run succeeds.
-/

namespace ClauseRules

variable {ε α β : Type}

theorem exists_of_isOk {x : Except ε α} (succeeds : x.isOk = true) : ∃ a, x = .ok a := by
  cases x with
  | error e => cases succeeds
  | ok a => exact ⟨a, rfl⟩

theorem exists_of_bind {x : Except ε α} {f : α → Except ε β} {b : β} (succeeds : x >>= f = .ok b)
    : ∃ a, x = .ok a ∧ f a = .ok b := by
  cases x with
  | error e => cases succeeds
  | ok a => exact ⟨a, rfl, succeeds⟩

theorem exists_of_map {f : α → β} {x : Except ε α} {b : β} (succeeds : f <$> x = .ok b)
    : ∃ a, x = .ok a ∧ f a = b := by
  cases x with
  | error e => cases succeeds
  | ok a => exact ⟨a, rfl, Except.ok.inj succeeds⟩

theorem map_eq_error_iff {f : α → β} {x : Except ε α} {e : ε}
    : f <$> x = .error e ↔ x = .error e := by
  cases x with
  | error e' =>
      exact ⟨fun same => congrArg _ (Except.error.inj same),
        fun same => congrArg _ (Except.error.inj same)⟩
  | ok a => exact ⟨nofun, nofun⟩

variable {f : α → Except ε β} {as : List α} {bs : List β}

/-- A run over a list succeeds with the results of its elements, one by one. -/
theorem mapM_eq_ok_iff : as.mapM f = .ok bs ↔ List.Forall₂ (fun a b => f a = .ok b) as bs := by
  induction as generalizing bs with
  | nil =>
      rw [List.forall₂_nil_left_iff, List.mapM_nil]
      exact ⟨fun same => (Except.ok.inj same).symm, fun same => congrArg _ same.symm⟩
  | cons a rest ih =>
      rw [List.mapM_cons, List.forall₂_cons_left_iff]
      constructor
      · intro succeeds
        obtain ⟨b, here, succeeds⟩ := exists_of_bind succeeds
        obtain ⟨others, later, same⟩ := exists_of_bind succeeds
        exact ⟨b, others, here, ih.mp later, (Except.ok.inj same).symm⟩
      · rintro ⟨b, others, here, later, rfl⟩
        rw [here, ih.mpr later]
        rfl

theorem mapM_eq_map {g : α → β} (each : ∀ a b, f a = .ok b → g a = b)
    (succeeds : as.mapM f = .ok bs)
    : bs = as.map g := by
  have same : List.Forall₂ (fun a b => g a = b) as bs := (mapM_eq_ok_iff.mp succeeds).imp each
  rw [← List.forall₂_map_left_iff (R := Eq), List.forall₂_eq_eq_eq] at same
  exact same.symm

theorem exists_of_mapM (succeeds : as.mapM f = .ok bs) : ∀ a ∈ as, ∃ b ∈ bs, f a = .ok b := by
  induction mapM_eq_ok_iff.mp succeeds with
  | nil => exact List.forall_mem_nil _
  | cons here later ih =>
      refine List.forall_mem_cons.mpr ⟨⟨_, List.mem_cons_self, here⟩, fun a listed => ?_⟩
      obtain ⟨b, member, made⟩ := ih (mapM_eq_ok_iff.mpr later) a listed
      exact ⟨b, List.mem_cons_of_mem _ member, made⟩

theorem exists_bind {x : Except ε α} {f : α → Except ε β} (first : ∃ a, x = .ok a)
    (next : ∀ a, x = .ok a → ∃ b, f a = .ok b)
    : ∃ b, x >>= f = .ok b := by
  obtain ⟨a, first⟩ := first
  obtain ⟨b, next⟩ := next a first
  exact ⟨b, by rw [first]; exact next⟩

theorem exists_mapM (each : ∀ a ∈ as, ∃ b, f a = .ok b) : ∃ bs, as.mapM f = .ok bs := by
  induction as with
  | nil => exact ⟨[], rfl⟩
  | cons a rest ih =>
      obtain ⟨here, others⟩ := List.forall_mem_cons.mp each
      rw [List.mapM_cons]
      exact exists_bind here fun b _ => exists_bind (ih others) fun bs _ => ⟨b :: bs, rfl⟩

end ClauseRules
