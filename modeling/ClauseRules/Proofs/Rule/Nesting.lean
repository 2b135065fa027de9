import ClauseRules.Proofs.Json.Printed
import ClauseRules.Proofs.Rule.Json

/-! How deep rules nest when they are written as JSON, which is by some levels deeper than their
guards do. Files that nest too deep are not read; any others give the rules that they were written
from.
-/

namespace ClauseRules

open Json (Plain list record)

variable {levels : Nat} {r : Rule}

/-! ### Conditions -/

theorem Comparator.plain (c : Comparator) : Plain 1 c.toJson := by
  cases c with
  | unrecognised token => exact Json.plain_record (List.forall_mem_singleton.mpr .string)
  | _ => exact .string

theorem PropertyTest.plain (t : PropertyTest) : Plain 2 t.toJson := by
  refine Json.plain_record ?_
  simpa using ⟨.string, t.comparator.plain, .string, .string⟩

namespace Condition

variable {c d : Condition} {terms : List Condition}

theorem plain_test (t : PropertyTest) : Plain 3 (test t).toJson := by
  rw [toJson]
  exact Json.plain_record (List.forall_mem_singleton.mpr t.plain)

theorem plain_status (target : RulePath) (s : Status) (negated : Bool)
    : Plain 2 (status target s negated).toJson := by
  rw [toJson]
  refine Json.plain_record (List.forall_mem_singleton.mpr (Json.plain_record ?_))
  simpa using ⟨.string, .string, .bool⟩

theorem plain_result (rule : RulePath) (outcome : Outcome)
    : Plain 2 (result rule outcome).toJson := by
  rw [toJson]
  refine Json.plain_record (List.forall_mem_singleton.mpr (Json.plain_record ?_))
  simpa using ⟨.string, .string⟩

theorem plain_not (inner : Plain levels c.toJson) : Plain (levels + 1) (not c).toJson := by
  rw [toJson]
  exact Json.plain_record (List.forall_mem_singleton.mpr inner)

theorem plain_forSome (inner : Plain levels c.toJson) : Plain (levels + 1) (forSome c).toJson := by
  rw [toJson]
  exact Json.plain_record (List.forall_mem_singleton.mpr inner)

theorem plain_forNone (inner : Plain levels c.toJson) : Plain (levels + 1) (forNone c).toJson := by
  rw [toJson]
  exact Json.plain_record (List.forall_mem_singleton.mpr inner)

theorem plain_forAll (range : Plain levels c.toJson) (consequence : Plain levels d.toJson)
    : Plain (levels + 2) (forAll c d).toJson := by
  rw [toJson]
  refine Json.plain_record (List.forall_mem_singleton.mpr (Json.plain_record ?_))
  simpa using ⟨range, consequence⟩

theorem plain_and (each : ∀ c ∈ terms, Plain levels c.toJson)
    : Plain (levels + 2) (and terms).toJson := by
  rw [toJson, toJsonList_eq]
  refine Json.plain_record (List.forall_mem_singleton.mpr (Json.plain_list ?_))
  exact List.forall_mem_map.mpr each

theorem plain_or (each : ∀ c ∈ terms, Plain levels c.toJson)
    : Plain (levels + 2) (or terms).toJson := by
  rw [toJson, toJsonList_eq]
  refine Json.plain_record (List.forall_mem_singleton.mpr (Json.plain_list ?_))
  exact List.forall_mem_map.mpr each

end Condition

/-! ### Rules and sets of rules -/

theorem Effect.plain (e : Effect) : Plain 3 e.toJson := by
  cases e with
  | setStatus target statuses =>
      have items : Plain 1 (list (statuses.map Status.toJson)) :=
        Json.plain_list (List.forall_mem_map.mpr fun _ _ => .string)
      refine Json.plain_record (List.forall_mem_singleton.mpr (Json.plain_record ?_))
      simpa using ⟨.string, items⟩
  | insertResult rule outcome =>
      refine Json.plain_record (List.forall_mem_singleton.mpr (Json.plain_record ?_))
      simpa using ⟨.string, .string⟩

/-- A rule nests one level deeper than its guard, unless its effect does. -/
theorem Rule.plain (guard : Plain levels r.guard.toJson) (enough : 3 ≤ levels)
    : Plain (levels + 1) r.toJson := by
  refine Json.plain_record (List.forall_mem_append.mpr ⟨List.forall_mem_append.mpr ⟨?_, ?_⟩, ?_⟩)
  · simpa using ⟨.string, .string, .string⟩
  · simpa using fun _ _ => .string
  · simpa using ⟨guard, r.effect.plain.mono enough⟩

namespace RuleSet

variable {rules : RuleSet}

/-- Rules are read back from the JSON file that they are written to if none of their guards nests
too deep.
-/
theorem ofJsonText_jsonText_of_plain (increasing : rules.Increasing)
    (shallow : ∀ r ∈ rules, Plain (Json.maxDepth - 2) r.guard.toJson)
    : ofJsonText rules.jsonText = .ok rules := by
  have each : ∀ v ∈ rules.toList.map Rule.toJson, Plain (Json.maxDepth - 1) v :=
    List.forall_mem_map.mpr fun r member => Rule.plain (shallow r member) (by decide)
  have plain : Plain Json.maxDepth rules.toJson := Json.plain_list each
  simp only [ofJsonText, jsonText, Json.parse_pretty plain, Json.Document.read,
    ofJson_toJson increasing]
  rfl

end RuleSet

end ClauseRules
