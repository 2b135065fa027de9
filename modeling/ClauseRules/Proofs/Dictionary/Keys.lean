import ClauseRules.Dictionary.Json
import ClauseRules.Proofs.Json.Records
import ClauseRules.Proofs.Sorted.Entries
import ClauseRules.Proofs.Sorted.Members
import ClauseRules.Proofs.Text.Lowering

/-! The keys of dictionaries. However a dictionary is made, its classes and properties stand in
order under the names by which they are found, and it is made again from the entries of a file that
lists them.
-/

namespace ClauseRules

theorem objectKey_objectKey (object : String) : objectKey (objectKey object) = objectKey object :=
  Text.lower_trim_lower_trim object

/-- Properties stand in order, each under its own name. -/
structure PropertiesKeyed (properties : SortedMap String PropertyDescriptor) : Prop where
  increasing : properties.Increasing
  key : ∀ entry ∈ properties.toList, entry.1 = propertyKey entry.2.name

namespace PropertiesKeyed

variable {properties : SortedMap String PropertyDescriptor}

theorem empty : PropertiesKeyed ∅ := ⟨SortedMap.increasing_empty, List.forall_mem_nil _⟩

theorem insert (keyed : PropertiesKeyed properties) (descriptor : PropertyDescriptor)
    : PropertiesKeyed (properties.insert (propertyKey descriptor.name) descriptor) where
  increasing := keyed.increasing.insert
  key := SortedMap.forall_insert
    (P := fun key (p : PropertyDescriptor) => key = propertyKey p.name) keyed.key rfl

/-- The properties are made again from their list. -/
theorem foldl_values (keyed : PropertiesKeyed properties)
    : properties.values.foldl (fun m p => m.insert (propertyKey p.name) p) ∅ = properties := by
  have entries : properties.toList = properties.values.map fun p => (propertyKey p.name, p) := by
    have each (entry) (member : entry ∈ properties.toList)
        : (propertyKey entry.2.name, entry.2) = entry :=
      Prod.ext (keyed.key entry member).symm rfl
    rw [SortedMap.values, List.map_map]
    exact ((List.map_congr_left each (g := id)).trans (List.map_id _)).symm
  calc
    properties.values.foldl (fun m p => m.insert (propertyKey p.name) p) ∅
      = properties.toList.foldl (fun m entry => m.insert entry.1 entry.2) ∅ := by
        rw [entries, List.foldl_map]
    _ = properties := SortedMap.foldl_insert_of_pairwise (l := []) keyed.increasing

end PropertiesKeyed

namespace Dictionary

/-- Classes stand in order, each under its own name, and so do the properties of each. -/
structure Keyed (d : Dictionary) : Prop where
  increasing : d.objects.Increasing
  object : ∀ entry ∈ d.objects.toList, objectKey entry.1 = entry.1
  properties : ∀ entry ∈ d.objects.toList, PropertiesKeyed entry.2

/-- Dictionaries that can be made from the empty one and from files. -/
inductive Reachable : Dictionary → Prop
  | empty : Reachable .empty
  | addObject {d : Dictionary} (before : d.Reachable) (object : String)
    : Reachable (d.addObject object)
  | addProperty {d : Dictionary} (before : d.Reachable) (object : String)
    (descriptor : PropertyDescriptor)
    : Reachable (d.addProperty object descriptor)
  | ofJsonText {d : Dictionary} {text : String} (read : ofJsonText text = .ok d) : Reachable d

variable {d : Dictionary} {object : String}

/-! ### Adding classes and properties -/

namespace Keyed

theorem empty : Dictionary.empty.Keyed :=
  ⟨SortedMap.increasing_empty, List.forall_mem_nil _, List.forall_mem_nil _⟩

theorem alter (keyed : d.Keyed) (object : String)
    {f : Option (SortedMap String PropertyDescriptor) → SortedMap String PropertyDescriptor}
    (each : ∀ before, (∀ properties ∈ before, PropertiesKeyed properties) →
      PropertiesKeyed (f before))
    : Keyed ⟨d.objects.alter (objectKey object) f⟩ where
  increasing := keyed.increasing.alter
  object := SortedMap.forall_alter (P := fun key _ => objectKey key = key) keyed.object
    fun _ _ => objectKey_objectKey object
  properties := SortedMap.forall_alter (P := fun _ properties => PropertiesKeyed properties)
    keyed.properties each

theorem getD {before : Option (SortedMap String PropertyDescriptor)}
    (each : ∀ properties ∈ before, PropertiesKeyed properties)
    : PropertiesKeyed (before.getD ∅) := by
  cases before with
  | none => exact .empty
  | some properties => exact each properties rfl

theorem addObject (keyed : d.Keyed) (object : String) : (d.addObject object).Keyed :=
  keyed.alter object fun _ each => getD each

theorem addProperty (keyed : d.Keyed) (object : String) (descriptor : PropertyDescriptor)
    : (d.addProperty object descriptor).Keyed :=
  keyed.alter object fun _ each => (getD each).insert descriptor

end Keyed

theorem keyed_ofEntries (entries : List (String × List PropertyDescriptor))
    : (ofEntries entries).Keyed := by
  refine List.foldlRecOn _ _ Keyed.empty fun d keyed entry _ => ?_
  exact List.foldlRecOn _ _ (keyed.addObject _) fun d keyed p _ => keyed.addProperty _ p

/-- What a file is read as is made of entries. -/
theorem exists_ofEntries {text : String} (read : ofJsonText text = .ok d)
    : ∃ entries, d = ofEntries entries := by
  obtain ⟨made, value, last⟩ := exists_of_bind read
  have same : made = d := by
    split at last
    · cases last
    · exact Except.ok.inj last
  subst same
  obtain ⟨r, _, fields⟩ := exists_of_bind value
  obtain ⟨entries, _, ends⟩ := exists_of_bind fields
  exact ⟨entries, (Except.ok.inj ends).symm⟩

theorem Reachable.keyed (reachable : d.Reachable) : d.Keyed := by
  induction reachable with
  | empty => exact .empty
  | addObject _ object keyed => exact keyed.addObject object
  | addProperty _ object descriptor keyed => exact keyed.addProperty object descriptor
  | ofJsonText read =>
      obtain ⟨entries, rfl⟩ := exists_ofEntries read
      exact keyed_ofEntries entries

/-! ### Looking up -/

/-- A class is among the owners of a property exactly if the property is found on it. -/
theorem Keyed.mem_owners_iff (keyed : d.Keyed) (listed : object ∈ d.objectNames) (property : String)
    : object ∈ d.owners property ↔ (d.property? object property).isSome := by
  obtain ⟨⟨object, properties⟩, member, rfl⟩ := List.mem_map.mp listed
  have found : d.property? object property = properties.get? (propertyKey property) := by
    have entry : d.objects.get? (objectKey object) = some properties := by
      rw [keyed.object _ member]
      exact keyed.increasing.get?_of_mem member
    rw [property?, entry]
    rfl
  rw [found, owners, ← SortedSet.mem_toList, List.mem_map]
  constructor
  · rintro ⟨⟨_, others⟩, owns, rfl⟩
    obtain ⟨also, contains⟩ := List.mem_filter.mp owns
    have same :=
      (keyed.increasing.get?_of_mem also).symm.trans (keyed.increasing.get?_of_mem member)
    exact Option.some.inj same ▸ contains
  · exact fun some => ⟨_, List.mem_filter.mpr ⟨member, some⟩, rfl⟩

/-- The owners of a property are the keys of the classes on which it is found. -/
theorem Keyed.mem_owners (keyed : d.Keyed) (property : String)
    : object ∈ d.owners property
      ↔ objectKey object = object ∧ (d.property? object property).isSome := by
  constructor
  · intro owns
    obtain ⟨entry, member, rfl⟩ := List.mem_map.mp (SortedSet.mem_toList.mpr owns)
    have listed := (List.mem_filter.mp member).1
    exact ⟨keyed.object _ listed,
      (keyed.mem_owners_iff (List.mem_map_of_mem listed) property).mp owns⟩
  · rintro ⟨own, found⟩
    obtain ⟨descriptor, found⟩ := Option.isSome_iff_exists.mp found
    obtain ⟨properties, entry, _⟩ := Option.bind_eq_some_iff.mp found
    have listed : object ∈ d.objectNames := by
      rw [own] at entry
      exact SortedMap.mem_keys_of_get? entry
    exact (keyed.mem_owners_iff listed property).mpr (by rw [found]; rfl)

theorem Keyed.objectKey_mem_owners (keyed : d.Keyed) (property : String)
    : objectKey object ∈ d.owners property ↔ (d.property? object property).isSome := by
  rw [keyed.mem_owners, objectKey_objectKey, eq_self, true_and, property?, objectKey_objectKey]
  rfl

/-! ### Making a dictionary again -/

/-- The entries of a dictionary as a file lists them. -/
def entries (d : Dictionary) : List (String × List PropertyDescriptor) :=
  d.objects.toList.map fun entry => (entry.1, entry.2.values)

/-- Takes over the entry of a class. -/
def addEntry (d : Dictionary) (entry : String × List PropertyDescriptor) : Dictionary :=
  entry.2.foldl (·.addProperty entry.1 ·) (d.addObject entry.1)

theorem ofEntries_eq (entries : List (String × List PropertyDescriptor))
    : ofEntries entries
      = (entries.foldl (fun (m : SortedMap String (List PropertyDescriptor)) entry =>
          m.insert entry.1 entry.2) ∅).toList.foldl addEntry empty := rfl

section

variable {l rest : List (String × SortedMap String PropertyDescriptor)}
  {properties : SortedMap String PropertyDescriptor}

theorem foldl_addProperty (less : ∀ entry ∈ l, compare entry.1 object = .lt)
    (own : objectKey object = object) (descriptors : List PropertyDescriptor)
    : descriptors.foldl (addProperty · object ·) ⟨⟨l ++ [(object, properties)]⟩⟩
      = ⟨⟨l ++ [(object,
          descriptors.foldl (fun m p => m.insert (propertyKey p.name) p) properties)]⟩⟩ := by
  induction descriptors generalizing properties with
  | nil => rfl
  | cons p rest ih =>
      have step
          : addProperty ⟨⟨l ++ [(object, properties)]⟩⟩ object p
            = ⟨⟨l ++ [(object, properties.insert (propertyKey p.name) p)]⟩⟩ := by
        rw [addProperty, SortedMap.alter, own, SortedMap.alterIn_append less]
        simp [SortedMap.alterIn]
      rw [List.foldl_cons, List.foldl_cons, step, ih]

/-- A class whose name is greater than those of all others is added behind them. -/
theorem addEntry_of_lt (less : ∀ entry ∈ l, compare entry.1 object = .lt)
    (own : objectKey object = object) (keyed : PropertiesKeyed properties)
    : addEntry ⟨⟨l⟩⟩ (object, properties.values) = ⟨⟨l ++ [(object, properties)]⟩⟩ := by
  have added : addObject ⟨⟨l⟩⟩ object = ⟨⟨l ++ [(object, ∅)]⟩⟩ := by
    rw [addObject, SortedMap.alter, own, SortedMap.alterIn_of_lt less]
    rfl
  rw [addEntry, added, foldl_addProperty less own, keyed.foldl_values]

theorem foldl_addEntry
    (increasing : (l ++ rest).Pairwise fun entry next => compare entry.1 next.1 = .lt)
    (own : ∀ entry ∈ rest, objectKey entry.1 = entry.1)
    (keyed : ∀ entry ∈ rest, PropertiesKeyed entry.2)
    : (rest.map fun entry => (entry.1, entry.2.values)).foldl addEntry ⟨⟨l⟩⟩ = ⟨⟨l ++ rest⟩⟩ := by
  induction rest generalizing l with
  | nil => rw [List.append_nil]; rfl
  | cons entry rest ih =>
      obtain ⟨here, later⟩ := List.forall_mem_cons.mp own
      obtain ⟨first, others⟩ := List.forall_mem_cons.mp keyed
      have less : ∀ other ∈ l, compare other.1 entry.1 = .lt := fun other member =>
        (List.pairwise_append.mp increasing).2.2 other member entry List.mem_cons_self
      rw [List.map_cons, List.foldl_cons, addEntry_of_lt less here first]
      rw [List.append_cons] at increasing
      rw [List.append_cons l entry rest]
      exact ih increasing later others

end

/-- A dictionary is made again from its entries. -/
theorem Keyed.ofEntries_entries (keyed : d.Keyed) : ofEntries d.entries = d := by
  have increasing : d.entries.Pairwise fun entry next => compare entry.1 next.1 = .lt :=
    List.pairwise_map.mpr keyed.increasing
  -- The entries stand in order already.
  have sorted := SortedMap.foldl_insert_of_pairwise (l := []) increasing
  rw [ofEntries_eq]
  refine (congrArg (fun m => m.toList.foldl addEntry Dictionary.empty) sorted).trans ?_
  exact foldl_addEntry (l := []) keyed.increasing keyed.object keyed.properties

end Dictionary

end ClauseRules
