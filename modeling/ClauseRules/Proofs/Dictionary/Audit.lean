import ClauseRules.Proofs.Dictionary.Keys
import ClauseRules.Proofs.Document.Coverage
import ClauseRules.Proofs.Rule.Transitivity
import ClauseRules.Proofs.Sorted.Order

/-! Audits of several documents. What is amiss with a tag does not depend on the tags around it, and
a property is used as soon as a single tag uses it. So what is found in tags adds up, of the unused
properties those are left that no document uses, and nothing else depends on the documents.
-/

namespace ClauseRules

open Std (TransOrd)

/-! ### The order of findings -/

namespace Finding

/-- The texts by which findings of one kind are compared first. -/
def texts : Finding → List String
  | .unknownProperty property citation => [property, citation]
  | .unusedProperty object property => [object, property]
  | .unlistedUnit object property unit citation => [object, property, unit, citation]
  | .dataTypeMismatch object property _ _ _ => [object, property]

/-- The place of the expected data type, if a finding tells one. -/
def typeRank : Finding → Nat
  | .dataTypeMismatch _ _ expected _ _ => expected.rank
  | _ => 0

/-- The texts that stand behind the expected data type. -/
def valueTexts : Finding → List String
  | .dataTypeMismatch _ _ _ value citation => [value, citation]
  | _ => []

/-- Whether the finding is about a property of the dictionary that no tag uses. -/
def isUnused : Finding → Bool
  | .unusedProperty _ _ => true
  | _ => false

end Finding

instance : TransOrd Finding :=
  transOrd_of_eq
    (compareLex (compareOn Finding.rank)
      (compareLex (compareOn Finding.texts)
        (compareLex (compareOn Finding.typeRank) (compareOn Finding.valueTexts))))
    fun a b => by
      have lists (as bs : List String) : compare as bs = compareLists as bs :=
        (compareLists_eq as bs).symm
      cases a <;> cases b
      case dataTypeMismatch.dataTypeMismatch =>
        simp only [compareLex, compareOn, lists]
        rfl
      case unknownProperty.unknownProperty | unusedProperty.unusedProperty |
          unlistedUnit.unlistedUnit =>
        simp only [compareLex, compareOn, lists]
        exact Ordering.then_eq.symm
      -- Findings of different kinds are told apart by their kinds.
      all_goals rfl

namespace Dictionary

variable {d : Dictionary} {nodes more : List Node} {t : Tag} {f : Finding}
  {object property : String} {descriptor : PropertyDescriptor}

/-! ### What is found -/

theorem exists_of_isUnused (unused : f.isUnused = true)
    : ∃ object property, f = .unusedProperty object property := by
  cases f with
  | unusedProperty object property => exact ⟨object, property, rfl⟩
  | _ => cases unused

theorem isUnused_of_mem_descriptorFindings (member : f ∈ descriptorFindings t object descriptor)
    : f.isUnused = false := by
  simp only [descriptorFindings, List.mem_append] at member
  rcases member with unit | type
  · split at unit
    · cases unit
    · obtain rfl := List.mem_singleton.mp unit
      rfl
  · split at type
    · split at type
      · cases type
      · obtain rfl := List.mem_singleton.mp type
        rfl
    · cases type

theorem isUnused_of_mem_tagFindings (member : f ∈ d.tagFindings t) : f.isUnused = false := by
  simp only [tagFindings] at member
  split at member
  · cases member
  · split at member
    · obtain rfl := List.mem_singleton.mp member
      rfl
    · obtain ⟨entry, _, inside⟩ := List.mem_flatMap.mp member
      exact isUnused_of_mem_descriptorFindings inside

/-- What is found in the tags below some nodes. -/
theorem mem_audit (found : f.isUnused = false)
    : f ∈ (audit nodes d).findings ↔ ∃ t ∈ Node.tagsOfList nodes, f ∈ d.tagFindings t := by
  simp only [audit, SortedSet.mem_ofList, List.mem_append, List.mem_flatMap, List.mem_filterMap]
  refine or_iff_left ?_
  rintro ⟨entry, _, unused⟩
  split at unused
  · cases unused
  · cases unused
    cases found

/-- The properties that none of the tags below some nodes uses. -/
theorem unusedProperty_mem_audit
    : .unusedProperty object property ∈ (audit nodes d).findings
      ↔ (∃ descriptor, (object, descriptor) ∈ d.properties ∧ descriptor.name = property)
        ∧ ∀ t ∈ Node.tagsOfList nodes, (object, property) ∉ d.usedBy t := by
  have noTag : ∀ t ∈ Node.tagsOfList nodes, .unusedProperty object property ∉ d.tagFindings t :=
    fun _ _ member => absurd (isUnused_of_mem_tagFindings member) nofun
  have used (object property : String)
      : ((Node.tagsOfList nodes).flatMap d.usedBy).contains (object, property) = true
        ↔ ¬∀ t ∈ Node.tagsOfList nodes, (object, property) ∉ d.usedBy t := by
    simp
  simp only [audit, SortedSet.mem_ofList, List.mem_append, List.mem_flatMap, List.mem_filterMap]
  constructor
  · rintro (⟨t, member, found⟩ | ⟨⟨owner, descriptor⟩, listed, unused⟩)
    · exact absurd found (noTag t member)
    · split at unused
      · cases unused
      case isFalse none =>
        cases unused
        refine ⟨⟨descriptor, listed, rfl⟩, Decidable.not_not.mp fun some => ?_⟩
        exact none ((used _ _).mpr some)
  · rintro ⟨⟨descriptor, listed, rfl⟩, none⟩
    refine .inr ⟨(object, descriptor), listed, if_neg fun some => ?_⟩
    exact (used _ _).mp some none

/-- The same is found in any order of the nodes, however often a tag occurs and however deep. -/
theorem audit_congr (same : ∀ t, t ∈ Node.tagsOfList nodes ↔ t ∈ Node.tagsOfList more)
    : (audit nodes d).findings = (audit more d).findings := by
  refine (SortedSet.increasing_ofList _).ext (SortedSet.increasing_ofList _) fun f => ?_
  change f ∈ (audit nodes d).findings ↔ f ∈ (audit more d).findings
  cases kind : f.isUnused with
  | false => simp only [mem_audit kind, same]
  | true =>
      obtain ⟨object, property, rfl⟩ := exists_of_isUnused kind
      simp only [unusedProperty_mem_audit, same]

/-! ### Properties that are used -/

theorem mem_properties
    : (object, descriptor) ∈ d.properties
      ↔ ∃ properties, (object, properties) ∈ d.objects.toList ∧ descriptor ∈ properties.values := by
  simp only [properties, List.mem_flatMap, List.mem_map, Prod.mk.injEq]
  constructor
  · rintro ⟨entry, listed, _, inside, rfl, rfl⟩
    exact ⟨entry.2, listed, inside⟩
  · rintro ⟨properties, listed, inside⟩
    exact ⟨(object, properties), listed, descriptor, inside, rfl, rfl⟩

theorem mem_descriptors_iff_found
    : (object, descriptor) ∈ d.descriptors property
      ↔ object ∈ d.owners property ∧ d.property? object property = some descriptor := by
  simp only [descriptors, List.mem_filterMap, SortedSet.mem_toList, Option.map_eq_some_iff,
    Prod.mk.injEq]
  constructor
  · rintro ⟨_, owns, _, found, rfl, rfl⟩
    exact ⟨owns, found⟩
  · rintro ⟨owns, found⟩
    exact ⟨object, owns, descriptor, found, rfl, rfl⟩

/-- What a property is to the classes of a dictionary: all that it has under the same name. -/
theorem Keyed.mem_descriptors (keyed : d.Keyed)
    : (object, descriptor) ∈ d.descriptors property
      ↔ (object, descriptor) ∈ d.properties
        ∧ propertyKey descriptor.name = propertyKey property := by
  rw [mem_properties, mem_descriptors_iff_found]
  constructor
  · rintro ⟨owns, found⟩
    have own := ((keyed.mem_owners property).mp owns).1
    obtain ⟨properties, entry, value⟩ := Option.bind_eq_some_iff.mp found
    rw [own] at entry
    have place := SortedMap.mem_of_get? entry
    have inside := SortedMap.mem_of_get? value
    exact ⟨⟨properties, place, List.mem_map_of_mem inside⟩,
      ((keyed.properties _ place).key _ inside).symm⟩
  · rintro ⟨⟨properties, place, inside⟩, same⟩
    obtain ⟨⟨key, descriptor⟩, entry, rfl⟩ := List.mem_map.mp inside
    have own := keyed.object _ place
    have found : d.property? object property = some descriptor := by
      have name : key = propertyKey property := ((keyed.properties _ place).key _ entry).trans same
      rw [property?, own, keyed.increasing.get?_of_mem place, ← name]
      exact (keyed.properties _ place).increasing.get?_of_mem entry
    exact ⟨(keyed.mem_owners property).mpr ⟨own, by rw [found]; rfl⟩, found⟩

/-- A tag uses the properties that are kept under the name of its own. -/
theorem Keyed.mem_usedBy (keyed : d.Keyed)
    (listed : (object, descriptor) ∈ d.properties)
    : (object, descriptor.name) ∈ d.usedBy t
      ↔ d.containsObject t.property = false
        ∧ propertyKey t.property = propertyKey descriptor.name := by
  rw [usedBy]
  split
  case isTrue declares => simp [declares]
  case isFalse checked =>
    simp only [Bool.eq_false_iff.mpr checked, true_and, List.mem_map, Prod.mk.injEq]
    constructor
    · rintro ⟨⟨_, other⟩, member, rfl, name⟩
      rw [← name]
      exact ((keyed.mem_descriptors.mp member).2).symm
    · intro same
      exact ⟨(object, descriptor), keyed.mem_descriptors.mpr ⟨listed, same.symm⟩, rfl, rfl⟩

/-- Audits of several documents add up. Together they look at all tags, what is amiss with a tag of
either is found, and a property is unused if it is in both. What is found depends only on which tags
there are, and a property of a dictionary is unused exactly if all tags that ask for one under the
same name declare an object class.
-/
theorem audit_append (d : Dictionary) (nodes more : List Node)
    : (audit (nodes ++ more) d).tags = (audit nodes d).tags + (audit more d).tags
      ∧ (∀ f : Finding,
        f.isUnused = false →
          (f ∈ (audit (nodes ++ more) d).findings
            ↔ f ∈ (audit nodes d).findings ∨ f ∈ (audit more d).findings))
      ∧ (∀ f : Finding,
        f.isUnused = true →
          (f ∈ (audit (nodes ++ more) d).findings
            ↔ f ∈ (audit nodes d).findings ∧ f ∈ (audit more d).findings))
      ∧ (audit (nodes ++ more) d).findings.toList.Pairwise (fun f g => compare f g = .lt)
      ∧ ((∀ t, t ∈ Node.tagsOfList nodes ↔ t ∈ Node.tagsOfList more) →
        (audit nodes d).findings = (audit more d).findings)
      ∧ (d.Reachable → ∀ object property,
        .unusedProperty object property ∈ (audit nodes d).findings
          ↔ (∃ descriptor, (object, descriptor) ∈ d.properties ∧ descriptor.name = property)
            ∧ ∀ t ∈ Node.tagsOfList nodes,
              d.containsObject t.property = false →
                propertyKey t.property ≠ propertyKey property) := by
  have tags
      : Node.tagsOfList (nodes ++ more) = Node.tagsOfList nodes ++ Node.tagsOfList more := by
    simp only [Node.tagsOfList_eq_flatMap, List.flatMap_append]
  refine ⟨?_, fun f found => ?_, fun f unused => ?_, SortedSet.increasing_ofList _, audit_congr,
    fun reachable object property => ?_⟩
  · simp only [audit, tags, List.length_append]
  · simp only [mem_audit found, tags, List.mem_append, or_and_right, exists_or]
  · obtain ⟨object, property, rfl⟩ := exists_of_isUnused unused
    simp only [unusedProperty_mem_audit, tags, List.forall_mem_append]
    exact and_and_left
  · rw [unusedProperty_mem_audit, and_congr_right_iff]
    rintro ⟨descriptor, listed, rfl⟩
    simp only [reachable.keyed.mem_usedBy listed, not_and, ne_eq]

/-- Doors and windows, both of which have a width. -/
def openings : Dictionary :=
  ((empty.addProperty "Door" { name := "width", dataType := some .number, units := ["mm"] })
    |>.addProperty "door" { name := "fire rating" }).addProperty "window" { name := "Width" }

/-- A section with a width, and with a property that the dictionary does not know. -/
def widths : List Node :=
  [.container { text := "d5" } "/b" .requirement
    [.tag { id := { text := "d6" }, reference := "/b", kind := .requirement, property := "WIDTH",
            value := "wide", unit := "in" },
      .tag { id := { text := "d7" }, reference := "/b", kind := .selection, property := "colour" }]]

/-- A tag that spells its property in another way than the dictionary does. -/
def ratings : List Node :=
  [.tag { id := { text := "d8" }, reference := "/b", kind := .exception,
          property := "Fire (Rating)" }]

/-- One document uses the widths and the other one the rating, so that nothing is left unused, in
either order.
-/
theorem audit_append_openings
    : openings.Reachable
      ∧ (audit (widths ++ ratings) openings).tags = 2 + 1
      ∧ (Finding.unknownProperty "colour" "/b/d7").isUnused = false
      ∧ .unknownProperty "colour" "/b/d7" ∈ (audit (widths ++ ratings) openings).findings
      ∧ (Finding.unusedProperty "door" "fire rating").isUnused = true
      ∧ .unusedProperty "door" "fire rating" ∈ (audit widths openings).findings
      ∧ .unusedProperty "door" "fire rating" ∉ (audit (widths ++ ratings) openings).findings
      ∧ (∀ t,
        t ∈ Node.tagsOfList (widths ++ ratings)
          ↔ t ∈ Node.tagsOfList (ratings ++ widths ++ ratings))
      ∧ (audit (widths ++ ratings) openings).findings
        = (audit (ratings ++ widths ++ ratings) openings).findings := by
  have reachable : openings.Reachable :=
    ((Reachable.empty.addProperty _ _).addProperty _ _).addProperty _ _
  obtain ⟨tags, found, unused, _, _, unusedOf⟩ := audit_append openings widths ratings
  have two : (audit widths openings).tags = 2 := by decide +kernel
  have one : (audit ratings openings).tags = 1 := by decide +kernel
  rw [two, one] at tags
  have rating : .unusedProperty "door" "fire rating" ∈ (audit widths openings).findings :=
    (unusedOf reachable _ _).mpr ⟨⟨{ name := "fire rating" }, by decide +kernel, rfl⟩,
      by decide +kernel⟩
  have colour : .unknownProperty "colour" "/b/d7" ∈ (audit widths openings).findings := by
    decide +kernel
  have rated : .unusedProperty "door" "fire rating" ∉ (audit ratings openings).findings := by
    decide +kernel
  have together
      : .unknownProperty "colour" "/b/d7" ∈ (audit (widths ++ ratings) openings).findings :=
    (found (.unknownProperty "colour" "/b/d7") rfl).mpr (.inl colour)
  have used
      : .unusedProperty "door" "fire rating" ∉ (audit (widths ++ ratings) openings).findings :=
    fun both => rated ((unused (.unusedProperty "door" "fire rating") rfl).mp both).2
  have same (t : Tag)
      : t ∈ Node.tagsOfList (widths ++ ratings)
        ↔ t ∈ Node.tagsOfList (ratings ++ widths ++ ratings) := by
    simp only [Node.tagsOfList_eq_flatMap, List.flatMap_append, List.mem_append]
    rw [or_right_comm, or_self, or_comm]
  have again := (audit_append openings (widths ++ ratings) (ratings ++ widths ++ ratings)).2.2.2.2.1
  exact ⟨reachable, tags, rfl, together, rfl, rating, used, same, again same⟩

end Dictionary

end ClauseRules
