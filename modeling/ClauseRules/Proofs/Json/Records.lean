import ClauseRules.Json.Reader
import ClauseRules.Proofs.Except
import Mathlib.Data.List.Nodup

/-! Reading what was written. A record with distinct fields that are all known yields each of them,
a list its items, and a variant of one field its payload.
-/

namespace ClauseRules

theorem Ranked.map_pure {ε α β : Type} (f : α → β) (a : α)
    : f <$> (Ranked.pure a : Ranked ε α) = .pure (f a) := rfl

theorem Ranked.pure_seq_pure {ε α β : Type} (f : α → β) (a : α)
    : (Ranked.pure f : Ranked ε (α → β)) <*> .pure a = .pure (f a) := rfl

namespace Json

open Nested (Below)

variable {α : Type} {v whole : Json} {fields : List (String × Json)} {names : List String}
  {name : String}

/-! ### Records -/

/-- The record has these fields and no problem of its own. -/
structure Complete (r : Record Error whole) (fields : List (String × Json)) : Prop where
  sound : r.issue = none
  found : ∀ name v, (name, v) ∈ fields → ∃ rank h, r.find? name = some (rank, ⟨v, h⟩)
  absent : ∀ name, name ∉ fields.map (·.1) → r.find? name = none

theorem isRepeated_of_nodup (distinct : (fields.map (·.1)).Nodup) {field : String × Json} {i : Nat}
    (place : fields[i]? = some field)
    : isRepeated fields i field.1 = false := by
  obtain ⟨inside, same⟩ := List.getElem?_eq_some_iff.mp place
  have split : fields = fields.take i ++ field :: fields.drop (i + 1) := by
    rw [← same, ← List.drop_eq_getElem_cons inside, List.take_append_drop]
  rw [split, List.map_append, List.map_cons, List.nodup_append] at distinct
  simp only [isRepeated, List.any_eq_false, beq_iff_eq]
  intro earlier before repeated
  exact distinct.2.2 earlier.1 (List.mem_map_of_mem before) field.1 List.mem_cons_self repeated

theorem objectIssue_of_known (known : ∀ field ∈ fields, field.1 ∈ names)
    (distinct : (fields.map (·.1)).Nodup)
    : objectIssue names fields none = none := by
  simp only [objectIssue, Option.map_none, Option.or_none, List.findSome?_eq_none_iff]
  rintro ⟨field, i⟩ member
  have place : fields[i]? = some field := List.mem_zipIdx_iff_getElem?.mp member
  have listed := known field (List.mem_of_getElem? place)
  simp [listed, isRepeated_of_nodup distinct place]

/-- A record of distinct fields that are all known is complete. -/
theorem fields_object (typeName : String) (names : List String) (fields : List (String × Json))
    (known : ∀ field ∈ fields, field.1 ∈ names) (distinct : (fields.map (·.1)).Nodup)
    : ∃ r,
        Source.fields typeName names (Json.object fields none) = Except.ok r
        ∧ Complete r fields := by
  refine ⟨_, rfl, objectIssue_of_known known distinct, fun name v listed => ?_,
    fun name absent => ?_⟩
  · obtain ⟨i, place⟩ := List.mem_iff_getElem?.mp (List.mem_attach fields ⟨(name, v), listed⟩)
    have slot : (⟨(name, v), listed⟩, i) ∈ fields.attach.zipIdx :=
      List.mem_zipIdx_iff_getElem?.mpr place
    simp only [Record.find?]
    rw [List.find?_map, Option.map_map]
    cases first : (fields.attach.zipIdx).find? (fun slot => slot.1.1.1 == name) with
    | none =>
        have differs := List.find?_eq_none.mp first _ slot
        simp at differs
    | some other =>
        obtain ⟨⟨field, inside⟩, rank⟩ := other
        have same : field.1 = name := by simpa using List.find?_some first
        -- The first field with the name is the listed one, as there is no other.
        obtain rfl := List.inj_on_of_nodup_map distinct inside listed same
        exact ⟨rank, sizeOf_mem_fields inside, Option.map_eq_some_iff.mpr ⟨_, first, rfl⟩⟩
  · refine Option.map_eq_none_iff.mpr (List.find?_eq_none.mpr fun slot member same => ?_)
    obtain ⟨⟨⟨field, inside⟩, i⟩, _, rfl⟩ := List.mem_map.mp member
    exact absent (List.mem_map.mpr ⟨field, inside, beq_iff_eq.mp same⟩)

namespace Complete

variable {r : Record Error whole} (complete : Complete r fields)

include complete

theorem required (name : String) (read : (v : Json) → Below v whole → Except Error α) {a : α}
    (listed : (name, v) ∈ fields) (outcome : ∀ h, read v h = .ok a)
    : r.required name read = .pure a := by
  obtain ⟨rank, h, found⟩ := complete.found name v listed
  simp only [Record.required, found, outcome]

theorem requiredText (name : String) {s : String} (listed : (name, .string s) ∈ fields)
    : r.requiredText name = .pure s :=
  complete.required name _ listed fun _ => rfl

theorem withDefault (default : α) (read : (v : Json) → Below v whole → Except Error α) {a : α}
    (listed : (name, v) ∈ fields) (outcome : ∀ h, read v h = .ok a)
    : r.withDefault name default read = .pure a := by
  obtain ⟨rank, h, found⟩ := complete.found name v listed
  simp only [Record.withDefault, found, outcome]

theorem withDefault_of_absent (default : α) (read : (v : Json) → Below v whole → Except Error α)
    (absent : name ∉ fields.map (·.1))
    : r.withDefault name default read = .pure default := by
  simp only [Record.withDefault, complete.absent name absent]

/-- A text is read as a value that may be missing. -/
theorem optional (read : (v : Json) → Below v whole → Except Error α) {a : α} {s : String}
    (listed : (name, .string s) ∈ fields) (outcome : ∀ h, read (.string s) h = .ok a)
    : r.optional name read = .pure (some a) := by
  refine complete.withDefault none _ listed fun h => ?_
  simp only [Source.isAbsent, readIsNull, bind, Except.bind, Bool.false_eq_true, if_false,
    outcome h]
  rfl

theorem optional_of_absent (read : (v : Json) → Below v whole → Except Error α)
    (absent : name ∉ fields.map (·.1))
    : r.optional name read = .pure none :=
  complete.withDefault_of_absent none _ absent

theorem finish (a : α) : r.finish (.pure a) = .ok a := by
  simp only [Record.finish, complete.sound, Ranked.pure]

end Complete

/-- A record of two fields is read field by field. -/
theorem read_pair {β γ : Type} (typeName : String) {first second : String} {w : Json}
    {f : α → β → γ} {a : α} {b : β}
    {readFirst : (x : Json) → Below x (.object [(first, v), (second, w)] none) → Except Error α}
    {readSecond : (x : Json) → Below x (.object [(first, v), (second, w)] none) → Except Error β}
    (differ : first ≠ second) (one : ∀ h, readFirst v h = .ok a) (two : ∀ h, readSecond w h = .ok b)
    : (Source.fields typeName [first, second] (Json.object [(first, v), (second, w)] none)
        >>= fun r => r.finish (f <$> r.required first readFirst <*> r.required second readSecond))
      = .ok (f a b) := by
  obtain ⟨r, run, complete⟩ :=
    fields_object typeName [first, second] [(first, v), (second, w)] (by simp)
      (by simpa using differ)
  have left := complete.required first readFirst (by simp) one
  have right := complete.required second readSecond (by simp) two
  simp only [run, bind, Except.bind, left, right, Ranked.map_pure, Ranked.pure_seq_pure,
    complete.finish]

/-! ### Lists and variants -/

/-- Values that were written one by one are read one by one. -/
theorem mapM_of_map {β γ : Type} {bs : List β} {as : List α} {key : β → γ} {print : α → γ}
    {read : β → Except Error α} (same : bs.map key = as.map print)
    (each : ∀ b, ∀ a ∈ as, key b = print a → read b = .ok a)
    : bs.mapM read = .ok as := by
  induction bs generalizing as with
  | nil =>
      obtain rfl := List.map_eq_nil_iff.mp same.symm
      rfl
  | cons b rest ih =>
      obtain ⟨a, more, rfl⟩ : ∃ a more, as = a :: more := by
        cases as with
        | nil => simp at same
        | cons a more => exact ⟨a, more, rfl⟩
      simp only [List.map_cons, List.cons.injEq] at same
      obtain ⟨first, later⟩ := same
      have others := ih later fun b c member => each b c (List.mem_cons_of_mem a member)
      rw [List.mapM_cons, each b a List.mem_cons_self first, others]
      rfl

/-- A list is read item by item. -/
theorem list_array (as : List α) (print : α → Json)
    (read : (v : Json) → Below v (.array (as.map print) none) → Except Error α)
    (each : ∀ a ∈ as, ∀ h, read (print a) h = .ok a)
    : Source.list (Json.array (as.map print) none) read = .ok as := by
  let parts : List (Part (Json.array (as.map print) none)) :=
    (as.map print).attach.map fun item => ⟨item.1, sizeOf_mem_items item.2⟩
  have same : parts.map (·.1) = as.map print := by
    rw [List.map_map]
    exact List.attach_map_subtype_val _
  have values : parts.mapM (fun part => read part.1 part.2) = .ok as := by
    refine mapM_of_map same ?_
    rintro ⟨_, h⟩ a member rfl
    exact each a member h
  simp only [Source.list, Source.items, readItemList, bind, Except.bind] at values ⊢
  rw [values]
  rfl

theorem Complete.listOf {r : Record Error whole} (complete : Complete r fields) (as : List α)
    (print : α → Json) (read : (v : Json) → Below v whole → Except Error α)
    (listed : (name, .array (as.map print) none) ∈ fields)
    (each : ∀ a ∈ as, ∀ h, read (print a) h = .ok a)
    : r.listOf name read = .pure as :=
  complete.withDefault [] _ listed fun _ => list_array as print _ fun a member _ => each a member _

/-- A map is read entry by entry. -/
theorem readMap_record (entries : List (String × α)) (print : α → Json)
    (read : (v : Json) → Below v (record (entries.map fun entry => (entry.1, print entry.2))) →
      Except Error α)
    (each : ∀ entry ∈ entries, ∀ h, read (print entry.2) h = .ok entry.2)
    : readMap (record (entries.map fun entry => (entry.1, print entry.2))) read = .ok entries := by
  let fields := entries.map fun entry => (entry.1, print entry.2)
  let readField (field : { field // field ∈ fields }) : Except Error (String × α) := do
    let a ← read field.1.2 (sizeOf_mem_fields field.2)
    return (field.1.1, a)
  have values : fields.attach.mapM readField = .ok entries := by
    refine mapM_of_map (List.attach_map_subtype_val fields) ?_
    rintro ⟨_, listed⟩ entry member rfl
    have value := each entry member (sizeOf_mem_fields listed)
    simp only [readField, bind, Except.bind, value]
    rfl
  simp only [readMap, record, bind, Except.bind, fields, readField] at values ⊢
  rw [values]
  rfl

/-- A value is read by its name if it is in the table under that name. -/
theorem readName_string {names : List (String × α)} {a : α} (known : names.lookup name = some a)
    : readName names (.string name) = .ok a := by
  have variant : readVariant (.string name) = .ok (.bare name) := rfl
  simp only [readName, variant, bind, Except.bind, Variant.name, known]
  rfl

/-- A variant with a payload is read by reading the payload. -/
theorem readVariant_object (name : String) (v : Json)
    : ∃ h, readVariant (.object [(name, v)] none) = .ok (.holding name ⟨v, h⟩ none) := ⟨_, rfl⟩

theorem payload_holding {part : Part whole} (kind : String)
    (read : (v : Json) → Below v whole → Except Error α)
    : (Variant.holding name part none).payload kind read = read part.1 part.2 := by
  simp only [Variant.payload, bind, Except.bind]
  cases read part.1 part.2 <;> rfl

end Json

end ClauseRules
