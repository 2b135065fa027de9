import ClauseRules.Proofs.Compile.ObjectClass
import ClauseRules.Proofs.Dictionary.Keys
import ClauseRules.Proofs.Sorted.Order

/-! Tags that test properties only. Narrowing by one after the other comes to the classes that own
all of the properties, in whatever order the tags stand, and the first tag that cannot be tested is
the reason for a failure.
-/

namespace ClauseRules

/-- The property of the tag has owners, and the declared class is one of them. -/
structure Vocabulary.Accepts (vocabulary : Vocabulary) (declared : Option String) (t : Tag)
    : Prop where
  owned : ∃ object, object ∈ vocabulary.owners t.property
  declared : ∀ object, declared = some object → object ∈ vocabulary.owners t.property

/-- Why a tag is refused: its property has no owner, or has some but not the declared class. -/
inductive Vocabulary.Refuses (vocabulary : Vocabulary) (declared : Option String) (t : Tag)
    : ResolveError → Prop
  | unknown (unowned : ∀ object, object ∉ vocabulary.owners t.property)
    : Refuses vocabulary declared t (.unknownProperty t.id t.property)
  | inconsistent {object} (owned : ∃ other, other ∈ vocabulary.owners t.property)
    (isDeclared : declared = some object) (other : object ∉ vocabulary.owners t.property)
    : Refuses vocabulary declared t (.inconsistentObject t.id t.property object)

/-- The classes that own the property of every tag. -/
structure Vocabulary.Shares (vocabulary : Vocabulary) (tags : List Tag)
    (shared : SortedSet String)
    : Prop where
  increasing : shared.Increasing
  mem_iff : ∀ object, object ∈ shared ↔ ∀ t ∈ tags, object ∈ vocabulary.owners t.property

/-- What comes of the classes that own all properties: of several the class of the enclosing section
is preferred, and then the declared one.
-/
structure SortedSet.Settles (shared : SortedSet String) (declared ancestor : Option String)
    (container : NodeId) (outcome : Except ResolveError String)
    : Prop where
  unowned : shared.toList = [] → outcome = .error (.noViableParent container)
  single : ∀ object, shared.toList = [object] → outcome = .ok object
  enclosing : ∀ object, 2 ≤ shared.size → ancestor = some object → object ∈ shared →
    outcome = .ok object
  own : ∀ object, 2 ≤ shared.size → (∀ a, ancestor = some a → a ∉ shared) →
    declared = some object → outcome = .ok object
  ambiguous : 2 ≤ shared.size → (∀ a, ancestor = some a → a ∉ shared) → declared = none →
    outcome = .error (.ambiguousParent container shared)

namespace Vocabulary

variable {vocabulary : Vocabulary} {declared : Option String} {container : NodeId} {t : Tag}
  {tags shuffled : List Tag} {shared other : SortedSet String} {e : ResolveError}

/-! ### One tag -/

theorem isEmpty_owners_iff
    : (vocabulary.owners t.property).isEmpty = true
      ↔ ∀ object, object ∉ vocabulary.owners t.property := by
  simp only [SortedSet.isEmpty, List.isEmpty_iff, List.eq_nil_iff_forall_not_mem,
    SortedSet.mem_toList]

theorem classesOf_of_accepts (accepts : vocabulary.Accepts declared t)
    : vocabulary.classesOf declared t = .ok (vocabulary.owners t.property) := by
  obtain ⟨object, owns⟩ := accepts.owned
  have filled : (vocabulary.owners t.property).isEmpty = false :=
    Bool.eq_false_iff.mpr fun unowned => isEmpty_owners_iff.mp unowned object owns
  cases declared with
  | none => simp [classesOf, filled]
  | some d => simp [classesOf, filled, SortedSet.contains_iff.mpr (accepts.declared d rfl)]

theorem classesOf_of_refuses (refuses : vocabulary.Refuses declared t e)
    : vocabulary.classesOf declared t = .error e := by
  cases refuses with
  | unknown unowned => simp [classesOf, isEmpty_owners_iff.mpr unowned]
  | inconsistent owned isDeclared missing =>
      have filled : (vocabulary.owners t.property).isEmpty = false :=
        Bool.eq_false_iff.mpr fun unowned =>
          owned.elim fun other => isEmpty_owners_iff.mp unowned other
      simp [classesOf, filled, isDeclared, missing]

theorem accepts_or_refuses (vocabulary : Vocabulary) (declared : Option String) (t : Tag)
    : vocabulary.Accepts declared t ∨ ∃ e, vocabulary.Refuses declared t e := by
  by_cases owned : ∃ object, object ∈ vocabulary.owners t.property
  · by_cases missing : ∃ object, declared = some object ∧ object ∉ vocabulary.owners t.property
    · obtain ⟨object, isDeclared, missing⟩ := missing
      exact .inr ⟨_, .inconsistent owned isDeclared missing⟩
    · refine .inl ⟨owned, fun object isDeclared => ?_⟩
      exact Classical.byContradiction fun other => missing ⟨object, isDeclared, other⟩
  · exact .inr ⟨_, .unknown fun object owns => owned ⟨object, owns⟩⟩

/-- A tag that is not accepted is refused, and so is the first of several. -/
theorem exists_first_refusal (refused : ¬∀ t ∈ tags, vocabulary.Accepts declared t)
    : ∃ before t after e,
        tags = before ++ t :: after ∧ (∀ u ∈ before, vocabulary.Accepts declared u)
        ∧ vocabulary.Refuses declared t e := by
  induction tags with
  | nil => exact absurd (List.forall_mem_nil _) refused
  | cons head rest ih =>
      rcases vocabulary.accepts_or_refuses declared head with accepts | ⟨e, refuses⟩
      · obtain ⟨before, t, after, e, rfl, accepted, refuses⟩ :=
          ih fun all => refused (List.forall_mem_cons.mpr ⟨accepts, all⟩)
        exact ⟨head :: before, t, after, e, rfl, List.forall_mem_cons.mpr ⟨accepts, accepted⟩,
          refuses⟩
      · exact ⟨[], head, rest, e, rfl, List.forall_mem_nil _, refuses⟩

/-! ### All tags -/

theorem Shares.unique (first : vocabulary.Shares tags shared)
    (second : vocabulary.Shares tags other)
    : shared = other :=
  first.increasing.ext second.increasing fun object =>
    (first.mem_iff object).trans (second.mem_iff object).symm

theorem Shares.perm (shares : vocabulary.Shares tags shared) (same : shuffled.Perm tags)
    : vocabulary.Shares shuffled shared where
  increasing := shares.increasing
  mem_iff object :=
    (shares.mem_iff object).trans (forall_congr' fun _ => imp_congr_left same.mem_iff.symm)

/-- An accepted tag leaves the candidates that own its property. -/
theorem narrow_of_accepts {candidates : SortedSet String}
    (property : vocabulary.isObject t.property = false) (accepts : vocabulary.Accepts declared t)
    : (narrow vocabulary declared container (some candidates) (t :: tags)).1
      = (narrow vocabulary declared container
          (some (candidates.inter (vocabulary.owners t.property))) tags).1 := by
  simp only [narrow, property, Bool.false_eq_true, if_false, classesOf_of_accepts accepts]
  split <;> rfl

theorem narrow_first (property : vocabulary.isObject t.property = false)
    (accepts : vocabulary.Accepts declared t)
    : (narrow vocabulary declared container none (t :: tags)).1
      = (narrow vocabulary declared container (some (vocabulary.owners t.property)) tags).1 := by
  simp only [narrow, property, Bool.false_eq_true, if_false, classesOf_of_accepts accepts]

/-- Accepted tags leave those of the candidates that own all of their properties. -/
theorem exists_narrow_of_accepts {candidates : SortedSet String} (container : NodeId)
    (increasing : candidates.Increasing)
    (properties : ∀ t ∈ tags, vocabulary.isObject t.property = false)
    (accepted : ∀ t ∈ tags, vocabulary.Accepts declared t)
    : ∃ left,
        (narrow vocabulary declared container (some candidates) tags).1 = .ok (some left)
        ∧ left.Increasing
        ∧ ∀ object,
          object ∈ left
          ↔ object ∈ candidates ∧ ∀ t ∈ tags, object ∈ vocabulary.owners t.property := by
  induction tags generalizing candidates with
  | nil => exact ⟨candidates, rfl, increasing, by simp⟩
  | cons head rest ih =>
      obtain ⟨property, properties⟩ := List.forall_mem_cons.mp properties
      obtain ⟨accepts, accepted⟩ := List.forall_mem_cons.mp accepted
      obtain ⟨left, outcome, ordered, members⟩ := ih (increasing.inter _) properties accepted
      refine ⟨left, (narrow_of_accepts property accepts).trans outcome, ordered, fun object => ?_⟩
      rw [members, SortedSet.mem_inter, List.forall_mem_cons, and_assoc]

/-- The first tag that is refused ends the narrowing. -/
theorem narrow_of_refuses {before after : List Tag} (container : NodeId)
    (candidates : Option (SortedSet String))
    (properties : ∀ u ∈ before ++ t :: after, vocabulary.isObject u.property = false)
    (accepted : ∀ u ∈ before, vocabulary.Accepts declared u)
    (refuses : vocabulary.Refuses declared t e)
    : (narrow vocabulary declared container candidates (before ++ t :: after)).1 = .error e := by
  induction before generalizing candidates with
  | nil =>
      have property := properties t List.mem_cons_self
      simp [narrow, property, classesOf_of_refuses refuses]
  | cons head rest ih =>
      obtain ⟨property, properties⟩ := List.forall_mem_cons.mp properties
      obtain ⟨accepts, accepted⟩ := List.forall_mem_cons.mp accepted
      cases candidates with
      | none => exact (narrow_first property accepts).trans (ih _ properties accepted)
      | some candidates =>
          exact (narrow_of_accepts property accepts).trans (ih _ properties accepted)

end Vocabulary

/-! ### The choice among several classes -/

/-- Preferring the class of the enclosing section and then the declared one settles the class. -/
theorem choose_settles {shared : SortedSet String} {declared ancestor : Option String}
    {container : NodeId} (owned : ∀ object, declared = some object → object ∈ shared)
    : shared.Settles declared ancestor container
        (choose container (ancestor.toList ++ declared.toList) shared) := by
  have several (many : 2 ≤ shared.size)
      : choose container (ancestor.toList ++ declared.toList) shared
        = ((ancestor.toList ++ declared.toList).find? shared.contains).elim
            (.error (.ambiguousParent container shared)) .ok := by
    unfold choose
    split
    case h_1 none => simp [SortedSet.size, none] at many
    case h_2 only => simp [SortedSet.size, only] at many
    case h_3 =>
      cases (ancestor.toList ++ declared.toList).find? shared.contains with
      | none => rfl
      | some object => rfl
  have foreign (unshared : ∀ a, ancestor = some a → a ∉ shared)
      : (ancestor.toList ++ declared.toList).find? shared.contains
        = declared.toList.find? shared.contains := by
    cases ancestor with
    | none => rfl
    | some a =>
        have unlisted : shared.contains a = false :=
          Bool.eq_false_iff.mpr (mt SortedSet.contains_iff.mp (unshared a rfl))
        simp [unlisted]
  constructor
  case unowned => exact fun none => by simp [choose, none]
  case single => exact fun object only => by simp [choose, only]
  case enclosing =>
    rintro object many rfl member
    rw [several many]
    simp [SortedSet.contains_iff.mpr member]
  case own =>
    rintro object many unshared rfl
    rw [several many, foreign unshared]
    simp [SortedSet.contains_iff.mpr (owned object rfl)]
  case ambiguous =>
    rintro many unshared rfl
    rw [several many, foreign unshared]
    rfl

/-- With a declared class that owns all properties, there is always a class to choose. -/
theorem SortedSet.Settles.exists_ok {shared : SortedSet String} {declared ancestor : Option String}
    {container : NodeId} {outcome : Except ResolveError String} {object : String}
    (settles : shared.Settles declared ancestor container outcome)
    (isDeclared : declared = some object) (owned : object ∈ shared)
    : ∃ chosen, outcome = .ok chosen := by
  have member := SortedSet.mem_toList.mpr owned
  cases list : shared.toList with
  | nil => simp [list] at member
  | cons first rest =>
      cases rest with
      | nil => exact ⟨first, settles.single first list⟩
      | cons second rest =>
          have many : 2 ≤ shared.size := by
            simp only [size, list, List.length_cons]
            omega
          by_cases enclosed : ∃ a, ancestor = some a ∧ a ∈ shared
          · obtain ⟨a, encloses, shares⟩ := enclosed
            exact ⟨a, settles.enclosing a many encloses shares⟩
          · have unshared : ∀ a, ancestor = some a → a ∉ shared :=
              fun a encloses shares => enclosed ⟨a, encloses, shares⟩
            exact ⟨object, settles.own object many unshared isDeclared⟩

section Resolution

variable {vocabulary : Vocabulary} {tags shuffled : List Tag} {declared ancestor : Option String}
  {container : NodeId} {e : ResolveError}

/-- Tags of which none is refused have the classes that own all of their properties. -/
theorem resolveContext_of_accepts (ancestor : Option String) (container : NodeId)
    (increasing : ∀ property, (vocabulary.owners property).Increasing)
    (nonempty : tags ≠ []) (properties : ∀ t ∈ tags, vocabulary.isObject t.property = false)
    (accepted : ∀ t ∈ tags, vocabulary.Accepts (declared.map Text.lower) t)
    : ∃ shared, vocabulary.Shares tags shared
        ∧ (resolveContext vocabulary tags declared container ancestor).1
          = choose container
              ((ancestor.map Text.lower).toList ++ (declared.map Text.lower).toList) shared := by
  cases tags with
  | nil => exact absurd rfl nonempty
  | cons head rest =>
      obtain ⟨property, later⟩ := List.forall_mem_cons.mp properties
      obtain ⟨accepts, others⟩ := List.forall_mem_cons.mp accepted
      obtain ⟨left, outcome, ordered, members⟩ :=
        Vocabulary.exists_narrow_of_accepts container (increasing head.property) later others
      refine ⟨left, ⟨ordered, fun object => by rw [members, List.forall_mem_cons]⟩, ?_⟩
      have narrowed := (Vocabulary.narrow_first property accepts).trans outcome
      simp [resolveContext, narrowed, bind, Except.bind]

theorem resolveContext_of_refuses {before after : List Tag} {t : Tag}
    (split : tags = before ++ t :: after)
    (properties : ∀ t ∈ tags, vocabulary.isObject t.property = false)
    (accepted : ∀ u ∈ before, vocabulary.Accepts (declared.map Text.lower) u)
    (refuses : vocabulary.Refuses (declared.map Text.lower) t e)
    : (resolveContext vocabulary tags declared container ancestor).1 = .error e := by
  subst split
  have narrowed :=
    Vocabulary.narrow_of_refuses container none properties accepted refuses
  simp [resolveContext, narrowed, bind, Except.bind]

theorem exists_refusal_of_resolveContext (declared ancestor : Option String) (container : NodeId)
    (properties : ∀ t ∈ tags, vocabulary.isObject t.property = false)
    (refused : ¬∀ t ∈ tags, vocabulary.Accepts (declared.map Text.lower) t)
    : ∃ before t after e,
        tags = before ++ t :: after
        ∧ (∀ u ∈ before, vocabulary.Accepts (declared.map Text.lower) u)
        ∧ vocabulary.Refuses (declared.map Text.lower) t e
        ∧ (resolveContext vocabulary tags declared container ancestor).1 = .error e := by
  obtain ⟨before, t, after, e, split, accepted, refuses⟩ := Vocabulary.exists_first_refusal refused
  exact ⟨before, t, after, e, split, accepted, refuses,
    resolveContext_of_refuses split properties accepted refuses⟩

/-- The order of tags that are accepted makes no difference at all. -/
theorem resolveContext_perm (increasing : ∀ property, (vocabulary.owners property).Increasing)
    (nonempty : tags ≠ []) (properties : ∀ t ∈ tags, vocabulary.isObject t.property = false)
    (accepted : ∀ t ∈ tags, vocabulary.Accepts (declared.map Text.lower) t)
    (same : shuffled.Perm tags)
    : (resolveContext vocabulary shuffled declared container ancestor).1
      = (resolveContext vocabulary tags declared container ancestor).1 := by
  have filled : shuffled ≠ [] := by
    rintro rfl
    exact nonempty same.symm.eq_nil
  obtain ⟨shared, shares, outcome⟩ :=
    resolveContext_of_accepts ancestor container increasing nonempty properties accepted
  obtain ⟨other, also, result⟩ :=
    resolveContext_of_accepts ancestor container increasing filled
      (fun t member => properties t (same.mem_iff.mp member))
      (fun t member => accepted t (same.mem_iff.mp member))
  rw [outcome, result, also.unique (shares.perm same)]

/-- Of tags that test properties only, the first one that is refused is the reason for a failure.
Where none is, the classes that own all of the properties settle the outcome. The object class is
therefore the same in whatever order the tags stand, and where a class is declared there is one
unless a tag is refused.
-/
theorem resolveContext_settles (increasing : ∀ property, (vocabulary.owners property).Increasing)
    (nonempty : tags ≠ []) (properties : ∀ t ∈ tags, vocabulary.isObject t.property = false)
    (declared ancestor : Option String) (container : NodeId)
    : ((¬∀ t ∈ tags, vocabulary.Accepts (declared.map Text.lower) t) →
        ∃ before t after e,
          tags = before ++ t :: after
          ∧ (∀ u ∈ before, vocabulary.Accepts (declared.map Text.lower) u)
          ∧ vocabulary.Refuses (declared.map Text.lower) t e
          ∧ (resolveContext vocabulary tags declared container ancestor).1 = .error e)
      ∧ ((∀ t ∈ tags, vocabulary.Accepts (declared.map Text.lower) t) →
        ∃ shared,
          vocabulary.Shares tags shared
          ∧ shared.Settles (declared.map Text.lower) (ancestor.map Text.lower) container
              (resolveContext vocabulary tags declared container ancestor).1)
      ∧ (∀ shuffled, shuffled.Perm tags →
        ((∀ t ∈ tags, vocabulary.Accepts (declared.map Text.lower) t) →
          (resolveContext vocabulary shuffled declared container ancestor).1
          = (resolveContext vocabulary tags declared container ancestor).1)
        ∧ ∀ object,
          (resolveContext vocabulary shuffled declared container ancestor).1 = .ok object
          ↔ (resolveContext vocabulary tags declared container ancestor).1 = .ok object)
      ∧ (declared.isSome = true → ∀ id candidates,
        (resolveContext vocabulary tags declared container ancestor).1
          ≠ .error (.noViableParent id)
        ∧ (resolveContext vocabulary tags declared container ancestor).1
          ≠ .error (.ambiguousParent id candidates)) := by
  have refused := exists_refusal_of_resolveContext declared ancestor container properties
  have settled (accepted : ∀ t ∈ tags, vocabulary.Accepts (declared.map Text.lower) t)
      : ∃ shared,
          vocabulary.Shares tags shared
          ∧ shared.Settles (declared.map Text.lower) (ancestor.map Text.lower) container
              (resolveContext vocabulary tags declared container ancestor).1 := by
    obtain ⟨shared, shares, outcome⟩ :=
      resolveContext_of_accepts ancestor container increasing nonempty properties accepted
    refine ⟨shared, shares, outcome ▸ choose_settles fun object isDeclared => ?_⟩
    exact (shares.mem_iff object).mpr fun t member => (accepted t member).declared object isDeclared
  refine ⟨refused, settled, ?_, ?_⟩
  · intro shuffled same
    refine ⟨fun accepted => resolveContext_perm increasing nonempty properties accepted same,
      fun object => ?_⟩
    by_cases accepted : ∀ t ∈ tags, vocabulary.Accepts (declared.map Text.lower) t
    · rw [resolveContext_perm increasing nonempty properties accepted same]
    · -- Both lists hold a refused tag, though each may fail for another one.
      obtain ⟨_, _, _, _, _, _, _, failed⟩ := refused accepted
      have shuffledRefused : ¬∀ t ∈ shuffled, vocabulary.Accepts (declared.map Text.lower) t :=
        fun all => accepted fun t member => all t (same.mem_iff.mpr member)
      obtain ⟨_, _, _, _, _, _, _, fails⟩ :=
        exists_refusal_of_resolveContext declared ancestor container
          (fun t member => properties t (same.mem_iff.mp member)) shuffledRefused
      simp [failed, fails]
  · intro isSome id candidates
    obtain ⟨object, rfl⟩ := Option.isSome_iff_exists.mp isSome
    by_cases accepted : ∀ t ∈ tags, vocabulary.Accepts ((some object).map Text.lower) t
    · obtain ⟨shared, shares, settles⟩ := settled accepted
      have owned : Text.lower object ∈ shared :=
        (shares.mem_iff _).mpr fun t member => (accepted t member).declared _ rfl
      obtain ⟨chosen, outcome⟩ := settles.exists_ok rfl owned
      simp [outcome]
    · obtain ⟨_, _, _, e, _, _, refuses, outcome⟩ := refused accepted
      rw [outcome]
      cases refuses <;> simp

end Resolution

theorem Dictionary.Keyed.increasing_owners {d : Dictionary} (keyed : d.Keyed) (property : String)
    : (d.vocabulary.owners property).Increasing :=
  List.pairwise_map.mpr (keyed.increasing.filter _)

/-- Doors and windows have a width and a height, walls only a width. -/
def apertures : Dictionary :=
  ((((Dictionary.empty.addProperty "door" { name := "width" }).addProperty "door"
    { name := "height" }).addProperty "window" { name := "width" }).addProperty "window"
    { name := "height" }).addProperty "wall" { name := "width" }

theorem apertures_keyed : apertures.Keyed :=
  ((((Dictionary.Keyed.empty.addProperty _ _).addProperty _ _).addProperty _ _).addProperty _
    _).addProperty _ _

def widthTag : Tag := { id := { text := "f1" }, kind := .requirement, property := "Width" }

def heightTag : Tag := { id := { text := "f2" }, kind := .requirement, property := "height" }

/-- Within a section on windows both tags are about windows, whichever comes first; a wall has no
height.
-/
theorem resolveContext_settles_apertures
    : (∀ property, (apertures.vocabulary.owners property).Increasing)
      ∧ (∀ t ∈ [widthTag, heightTag], apertures.vocabulary.isObject t.property = false)
      ∧ (∃ shared,
        apertures.vocabulary.Shares [widthTag, heightTag] shared
        ∧ shared.Settles none (some "window") widthTag.id (.ok "window"))
      ∧ (resolveContext apertures.vocabulary [heightTag, widthTag] none widthTag.id
          (some "Window")).1
        = .ok "window"
      ∧ ∃ before t after e,
        [widthTag, heightTag] = before ++ t :: after
        ∧ apertures.vocabulary.Refuses (some "wall") t e
        ∧ (resolveContext apertures.vocabulary [widthTag, heightTag] (some "Wall") widthTag.id
            none).1
          = .error e := by
  have increasing := apertures_keyed.increasing_owners
  have properties
      : ∀ t ∈ [widthTag, heightTag], apertures.vocabulary.isObject t.property = false := by
    decide +kernel
  have accepted : ∀ t ∈ [widthTag, heightTag], apertures.vocabulary.Accepts none t := by
    have doors : ∀ t ∈ [widthTag, heightTag], "door" ∈ apertures.vocabulary.owners t.property := by
      decide +kernel
    exact fun t member => ⟨⟨"door", doors t member⟩, nofun⟩
  have window
      : (resolveContext apertures.vocabulary [widthTag, heightTag] none widthTag.id
          (some "Window")).1
        = .ok "window" := by
    decide +kernel
  have lower : Text.lower "Window" = "window" ∧ Text.lower "Wall" = "wall" := by decide +kernel
  obtain ⟨-, settled, permuted, -⟩ :=
    resolveContext_settles increasing (List.cons_ne_nil _ _) properties none (some "Window")
      widthTag.id
  obtain ⟨shared, shares, settles⟩ := settled accepted
  rw [window, Option.map_some, lower.1] at settles
  have swapped := (permuted [heightTag, widthTag] (List.Perm.swap _ _ _)).2 "window"
  obtain ⟨refused, -, -, -⟩ :=
    resolveContext_settles increasing (List.cons_ne_nil _ _) properties (some "Wall") none
      widthTag.id
  rw [Option.map_some, lower.2] at refused
  have unowned : ¬∀ t ∈ [widthTag, heightTag], apertures.vocabulary.Accepts (some "wall") t := by
    have other : "wall" ∉ apertures.vocabulary.owners heightTag.property := by decide +kernel
    exact fun all => other ((all heightTag (by simp)).declared "wall" rfl)
  obtain ⟨before, t, after, e, split, -, refuses, outcome⟩ := refused unowned
  exact ⟨increasing, properties, ⟨shared, shares, settles⟩, swapped.mpr window, before, t, after, e,
    split, refuses, outcome⟩

end ClauseRules
