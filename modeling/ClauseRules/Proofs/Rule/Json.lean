import ClauseRules.Proofs.Json.Records
import ClauseRules.Proofs.Rule.Transitivity
import ClauseRules.Proofs.Sorted.Order
import ClauseRules.Rule.Json

/-! A rule that was written as JSON is read as the same rule: every alternative has a name of its
own, every record its fields, and conditions are followed down to their tests.
-/

namespace ClauseRules

open Json (fields_object list_array payload_holding readVariant_object read_pair)

/-! ### Named values -/

theorem Status.ofJson_toJson (s : Status) : ofJson s.toJson = .ok s :=
  Json.readName_string (by cases s <;> rfl)

theorem Outcome.ofJson_toJson (o : Outcome) : ofJson o.toJson = .ok o :=
  Json.readName_string (by cases o <;> rfl)

theorem Purpose.ofJson_toJson (p : Purpose) : ofJson p.toJson = .ok p :=
  Json.readName_string (by cases p <;> rfl)

theorem RulePath.ofJson_toJson (p : RulePath) : ofJson p.toJson = .ok p := rfl

/-! ### Tests -/

theorem Comparator.ofJson_toJson (c : Comparator) : ofJson c.toJson = .ok c := by
  cases c with
  | unrecognised token => rfl
  | _ => rfl

theorem PropertyTest.ofJson_toJson (t : PropertyTest) : ofJson t.toJson = .ok t := by
  obtain ⟨r, run, complete⟩ :=
    fields_object "struct PropertyTest" ["property", "comparator", "value", "unit"]
      [("property", .string t.property), ("comparator", t.comparator.toJson),
        ("value", .string t.value), ("unit", .string t.unit)] (by simp) (by simp)
  have property := complete.requiredText "property" (s := t.property) (by simp)
  have comparator :=
    complete.required "comparator" (fun w _ => Comparator.ofJson w) (by simp)
      fun _ => Comparator.ofJson_toJson t.comparator
  have value := complete.requiredText "value" (s := t.value) (by simp)
  have unit := complete.requiredText "unit" (s := t.unit) (by simp)
  simp only [ofJson, toJson, Json.record, run, bind, Except.bind, property, comparator, value, unit,
    Ranked.map_pure, Ranked.pure_seq_pure, complete.finish]

/-! ### Conditions -/

namespace Condition

theorem toJsonList_eq (terms : List Condition) : toJsonList terms = terms.map toJson := by
  induction terms with
  | nil => rfl
  | cons term rest ih => simp only [toJsonList, ih, List.map_cons]

theorem ofJson_status (target : RulePath) (s : Status) (negated : Bool)
    : ofJson (status target s negated).toJson = .ok (status target s negated) := by
  obtain ⟨r, run, complete⟩ :=
    fields_object "struct variant BooleanExpr::Status" ["target", "status", "negated"]
      [("target", target.toJson), ("status", s.toJson), ("negated", .bool negated)]
      (by simp) (by simp)
  have first := complete.required "target" (fun x _ => RulePath.ofJson x)
    (by simp) fun _ => target.ofJson_toJson
  have second := complete.required "status" (fun x _ => Status.ofJson x)
    (by simp) fun _ => s.ofJson_toJson
  have third := complete.required "negated" (fun x _ => Json.readBool x)
    (v := .bool negated) (by simp) fun _ => rfl
  obtain ⟨_, variant⟩ := readVariant_object "status" (.object [("target", target.toJson),
    ("status", s.toJson), ("negated", .bool negated)] none)
  rw [ofJson]
  simp only [toJson, Json.record, variant, bind, Except.bind, Json.Variant.name, payload_holding,
    run, first, second, third, Ranked.map_pure, Ranked.pure_seq_pure, complete.finish]

theorem ofJson_result (rule : RulePath) (outcome : Outcome)
    : ofJson (result rule outcome).toJson = .ok (result rule outcome) := by
  obtain ⟨_, variant⟩ := readVariant_object "result"
    (.object [("rule", rule.toJson), ("outcome", outcome.toJson)] none)
  rw [ofJson]
  simp only [toJson, Json.record, variant, bind, Except.bind, Json.Variant.name, payload_holding]
  exact read_pair "struct variant BooleanExpr::Result" (by decide) (fun _ => rule.ofJson_toJson)
    fun _ => outcome.ofJson_toJson

theorem ofJson_forAll {range consequence : Condition} (first : ofJson range.toJson = .ok range)
    (second : ofJson consequence.toJson = .ok consequence)
    : ofJson (forAll range consequence).toJson = .ok (forAll range consequence) := by
  obtain ⟨_, variant⟩ := readVariant_object "for_all"
    (.object [("condition", range.toJson), ("consequence", consequence.toJson)] none)
  rw [ofJson]
  simp only [toJson, Json.record, variant, bind, Except.bind, Json.Variant.name, payload_holding]
  exact read_pair "struct variant BooleanExpr::ForAll" (by decide) (fun _ => first) fun _ => second

theorem ofJson_terms {terms : List Condition} (each : ∀ c ∈ terms, ofJson c.toJson = .ok c)
    : ofJson (and terms).toJson = .ok (and terms) ∧ ofJson (or terms).toJson = .ok (or terms) := by
  have items := list_array terms toJson (fun x _ => ofJson x) fun c member _ => each c member
  have conjunction
      : (and terms).toJson = .object [("and", .array (terms.map toJson) none)] none := by
    rw [toJson, toJsonList_eq]
    rfl
  have disjunction
      : (or terms).toJson = .object [("or", .array (terms.map toJson) none)] none := by
    rw [toJson, toJsonList_eq]
    rfl
  obtain ⟨_, first⟩ := readVariant_object "and" (.array (terms.map toJson) none)
  obtain ⟨_, second⟩ := readVariant_object "or" (.array (terms.map toJson) none)
  constructor
  · rw [conjunction, ofJson]
    simp only [first, bind, Except.bind, Json.Variant.name, payload_holding, items]
    rfl
  · rw [disjunction, ofJson]
    simp only [second, bind, Except.bind, Json.Variant.name, payload_holding, items]
    rfl

mutual

theorem ofJson_toJson (c : Condition) : ofJson c.toJson = .ok c := by
  cases c with
  | test t =>
      obtain ⟨_, variant⟩ := readVariant_object "property" t.toJson
      rw [ofJson]
      simp only [toJson, Json.record, variant, bind, Except.bind, Json.Variant.name,
        payload_holding, t.ofJson_toJson]
      rfl
  | status target s negated => exact ofJson_status target s negated
  | not inner =>
      obtain ⟨_, variant⟩ := readVariant_object "not" inner.toJson
      rw [ofJson]
      simp only [toJson, Json.record, variant, bind, Except.bind, Json.Variant.name,
        payload_holding, ofJson_toJson inner]
      rfl
  | and terms => exact (ofJson_terms (ofJson_toJson_of_mem terms)).1
  | or terms => exact (ofJson_terms (ofJson_toJson_of_mem terms)).2
  | forAll range consequence =>
      exact ofJson_forAll (ofJson_toJson range) (ofJson_toJson consequence)
  | forSome inner =>
      obtain ⟨_, variant⟩ := readVariant_object "exists" inner.toJson
      rw [ofJson]
      simp only [toJson, Json.record, variant, bind, Except.bind, Json.Variant.name,
        payload_holding, ofJson_toJson inner]
      rfl
  | forNone inner =>
      obtain ⟨_, variant⟩ := readVariant_object "not_exists" inner.toJson
      rw [ofJson]
      simp only [toJson, Json.record, variant, bind, Except.bind, Json.Variant.name,
        payload_holding, ofJson_toJson inner]
      rfl
  | result rule outcome => exact ofJson_result rule outcome
termination_by sizeOf c

theorem ofJson_toJson_of_mem (terms : List Condition) : ∀ c ∈ terms, ofJson c.toJson = .ok c := by
  cases terms with
  | nil => exact List.forall_mem_nil _
  | cons term rest =>
      exact List.forall_mem_cons.mpr ⟨ofJson_toJson term, ofJson_toJson_of_mem rest⟩
termination_by sizeOf terms

end

end Condition

/-! ### Rules -/

theorem Effect.ofJson_toJson (e : Effect) : ofJson e.toJson = .ok e := by
  cases e with
  | setStatus target statuses =>
      obtain ⟨_, variant⟩ := readVariant_object "set_status"
        (.object [("target", target.toJson),
          ("statuses", .array (statuses.map Status.toJson) none)] none)
      simp only [ofJson, toJson, Json.record, Json.list, variant, bind, Except.bind,
        Json.Variant.name, payload_holding]
      exact read_pair "struct variant Effect::SetStatus" (by decide)
        (fun _ => target.ofJson_toJson)
        fun _ => list_array statuses Status.toJson _ fun s _ _ => s.ofJson_toJson
  | insertResult rule outcome =>
      obtain ⟨_, variant⟩ := readVariant_object "insert_result"
        (.object [("rule", rule.toJson), ("outcome", outcome.toJson)] none)
      simp only [ofJson, toJson, Json.record, variant, bind, Except.bind, Json.Variant.name,
        payload_holding]
      exact read_pair "struct variant Effect::InsertResult" (by decide)
        (fun _ => rule.ofJson_toJson) fun _ => outcome.ofJson_toJson

/-- The fields of a rule, one of which is left out where there is no object class. -/
def Rule.jsonFields (r : Rule) : List (String × Json) :=
  [("id", .string r.id), ("clause", r.clause.toJson), ("purpose", r.purpose.toJson)]
    ++ (r.entityType.map fun s => ("entity_type", Json.string s)).toList
    ++ [("guard", r.guard.toJson), ("effect", r.effect.toJson)]

theorem Rule.ofJson_toJson (r : Rule) : ofJson r.toJson = .ok r := by
  obtain ⟨record, run, complete⟩ :=
    fields_object "struct CompiledRule"
      ["id", "clause", "purpose", "entity_type", "guard", "effect"] r.jsonFields
      (by cases h : r.entityType <;> simp [jsonFields, h])
      (by cases h : r.entityType <;> simp [jsonFields, h])
  have id := complete.requiredText "id" (s := r.id) (by simp [jsonFields])
  have clause := complete.required "clause" (fun w _ => RulePath.ofJson w)
    (v := r.clause.toJson) (by simp [jsonFields]) fun _ => r.clause.ofJson_toJson
  have purpose := complete.required "purpose" (fun w _ => Purpose.ofJson w)
    (v := r.purpose.toJson) (by simp [jsonFields]) fun _ => r.purpose.ofJson_toJson
  have guard := complete.required "guard" (fun w _ => Condition.ofJson w)
    (v := r.guard.toJson) (by simp [jsonFields]) fun _ => r.guard.ofJson_toJson
  have effect := complete.required "effect" (fun w _ => Effect.ofJson w)
    (v := r.effect.toJson) (by simp [jsonFields]) fun _ => r.effect.ofJson_toJson
  have entityType : record.optionalText "entity_type" = .pure r.entityType := by
    cases type : r.entityType with
    | none => exact complete.optional_of_absent _ (by simp [jsonFields, type])
    | some s => exact complete.optional _ (by simp [jsonFields, type]) fun _ => rfl
  have written : r.toJson = .object r.jsonFields none := rfl
  rw [written]
  simp only [ofJson, run, bind, Except.bind, id, clause, purpose, entityType, guard, effect,
    Ranked.map_pure, Ranked.pure_seq_pure, complete.finish]

namespace RuleSet

variable {rules : RuleSet}

theorem ofJson_toJson (increasing : rules.Increasing) : ofJson rules.toJson = .ok rules := by
  have items :=
    list_array rules.toList Rule.toJson (fun x _ => Rule.ofJson x) fun r _ _ => r.ofJson_toJson
  simp only [ofJson, toJson, Json.list, items]
  exact congrArg Except.ok increasing.ofList_toList

end RuleSet

end ClauseRules
