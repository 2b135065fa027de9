import ClauseRules.Proofs.Compile.ObjectClass
import ClauseRules.Proofs.Document.References

/-! Where object classes come from. A section of tags has a class that the dictionary knows. A
section of sections passes on the class it was compiled for or one that its parts have led to, so no
other class ever reaches a rule but the one in place of a missing class.
-/

namespace ClauseRules

/-- All classes that a dictionary speaks of are among these. -/
structure Vocabulary.Within (vocabulary : Vocabulary) (classes : List String) : Prop where
  named : ∀ name, vocabulary.isObject name = true → objectKey name ∈ classes
  owning : ∀ property, ∀ object ∈ vocabulary.owners property, object ∈ classes

/-- A dictionary speaks of the classes that it lists. -/
theorem Dictionary.within (d : Dictionary) : d.vocabulary.Within d.objectNames where
  named name isObject := by
    simp only [vocabulary, containsObject, SortedMap.contains, SortedMap.get?,
      Option.isSome_map, List.find?_isSome, Std.LawfulEqOrd.compare_beq_iff_eq] at isObject
    obtain ⟨entry, listed, same⟩ := isObject
    rw [same]
    exact List.mem_map_of_mem listed
  owning property object member := by
    obtain ⟨entry, owns, rfl⟩ := List.mem_map.mp member
    exact List.mem_map_of_mem (List.mem_filter.mp owns).1

/-- The object class is the given one or one of the classes. -/
def Reaches (classes : List String) (context out : Option String) : Prop :=
  out = context ∨ ∃ object ∈ classes, out = some object

namespace Reaches

variable {classes : List String} {context middle out : Option String} {object : String}

theorem refl : Reaches classes context context := .inl rfl

theorem trans (first : Reaches classes context middle) (second : Reaches classes middle out)
    : Reaches classes context out := by
  rcases second with rfl | known
  · exact first
  · exact .inr known

theorem of_mem (member : object ∈ classes) : Reaches classes context (some object) :=
  .inr ⟨object, member, rfl⟩

end Reaches

variable {classes : List String} {env : CompileEnv} {r : Rule}

/-! ### Sections of tags -/

/-- Narrowing candidates that are among the classes leaves some that are. -/
theorem narrow_within {vocabulary : Vocabulary} {declared : Option String} {container : NodeId}
    {candidates found : Option (SortedSet String)} {tags : List Tag}
    (within : vocabulary.Within classes) (start : ∀ object ∈ candidates.getD ∅, object ∈ classes)
    (outcome : (narrow vocabulary declared container candidates tags).1 = .ok found)
    : ∀ object ∈ found.getD ∅, object ∈ classes := by
  induction tags generalizing candidates with
  | nil =>
      simp only [narrow, Except.ok.injEq] at outcome
      exact outcome ▸ start
  | cons head rest ih =>
      cases kind : vocabulary.isObject head.property with
      | true =>
          rw [narrow_of_object kind] at outcome
          refine ih (fun object member => ?_) outcome
          rcases SortedSet.mem_insert.mp member with rfl | before
          · exact within.named head.property kind
          · exact start object before
      | false =>
          obtain ⟨_, kept, owned, _, outcome⟩ := narrow_of_property kind outcome
          refine ih (fun object member => ?_) outcome
          exact within.owning head.property object (owned object member)

theorem Container.object_mem {c : Container} {context : Option String} {object : String}
    (within : env.vocabulary.Within classes)
    (resolved : c.object env.vocabulary context = .ok object)
    : object ∈ classes := by
  simp only [Container.object, resolveContext] at resolved
  generalize ((declaredObject? env.vocabulary c.children).map (·.2)).map Text.lower = declared
    at resolved
  cases outcome : (narrow env.vocabulary declared c.id none c.tags).1 with
  | error e => simp [outcome, bind, Except.bind] at resolved
  | ok found =>
      simp only [outcome, bind, Except.bind] at resolved
      have start : ∀ object ∈ (none : Option (SortedSet String)).getD ∅, object ∈ classes :=
        fun _ member => absurd member SortedSet.not_mem_empty
      exact narrow_within within start outcome object (choose_mem resolved)

/-! ### Sections of sections -/

/-- Where every section reaches its class from the one that it was compiled for, so do all of them
together.
-/
theorem CompiledPart.reaches {parts : List CompiledPart} {context : Option String}
    (entered : Entered context parts)
    (each : ∀ part ∈ parts, Reaches classes part.entered part.context)
    : Reaches classes context (contextAfter context parts)
      ∧ ∀ part ∈ parts, Reaches classes context part.entered := by
  induction parts generalizing context with
  | nil => exact ⟨.refl, List.forall_mem_nil _⟩
  | cons part rest ih =>
      obtain ⟨here, later⟩ := List.forall_mem_cons.mp each
      obtain ⟨start, others⟩ := entered
      have passes : Reaches classes context (part.passOn context) := by
        simp only [passOn]
        split
        · exact start ▸ here
        · exact .refl
      obtain ⟨ends, all⟩ := ih others later
      refine ⟨passes.trans ends, List.forall_mem_cons.mpr ⟨start ▸ .refl, fun other listed => ?_⟩⟩
      exact passes.trans (all other listed)

/-- A rule about entities of a class has it from an object class that compilation reached. -/
def Rule.Reached (r : Rule) (classes : List String) (fallback : String) (context : Option String)
    : Prop :=
  ∀ object,
    r.entityType = some object →
      ∃ reached, Reaches classes context reached ∧ reached.getD fallback = object

theorem Rule.Reached.of_reaches {fallback : String} {context middle : Option String}
    (reached : r.Reached classes fallback middle) (reaches : Reaches classes context middle)
    : r.Reached classes fallback context := by
  intro object isType
  obtain ⟨out, onwards, same⟩ := reached object isType
  exact ⟨out, reaches.trans onwards, same⟩

theorem aggregationRules_entityType {path : RulePath} (member : r ∈ aggregationRules path)
    : r.entityType = none := by
  rcases mem_aggregationRules.mp member with rfl | rfl | rfl
  all_goals rfl

theorem Container.ownRules_entityType {c left : Container} {ancestor : Option RulePath}
    {object other : String} (member : r ∈ c.ownRules ancestor object left)
    (isType : r.entityType = some other)
    : object = other := by
  rcases mem_ownRules.mp member with main | summary
  · obtain ⟨_, same, _⟩ := Scope.mainRules_shape main
    exact Option.some.inj (same.symm.trans isType)
  · cases (aggregationRules_entityType summary).symm.trans isType

theorem Compiles.reaches {repeats : NodeId → Prop} {ancestor : Option RulePath}
    {context : Option String} {c : Container} {y : Yield}
    (within : env.vocabulary.Within classes) (compiles : Compiles env repeats ancestor context c y)
    : Reaches classes context y.context
      ∧ ∀ r ∈ y.rules, r.Reached classes env.config.fallbackObject context := by
  induction compiles with
  | repeated | empty => exact ⟨.refl, List.forall_mem_nil _⟩
  | @tags ancestor context c object flat resolved =>
      have known : object ∈ classes := c.object_mem within resolved
      refine ⟨.of_mem known, fun r member other isType => ?_⟩
      simp only at member
      split at member
      · exact absurd member List.not_mem_nil
      · exact ⟨some object, .of_mem known, Container.ownRules_entityType member isType⟩
  | @sections ancestor context c object left parts nested origins entered below resolved rest ih =>
      -- The parts reach their classes in the order in which they were compiled.
      obtain ⟨ends, enters⟩ :=
        CompiledPart.reaches entered fun part listed => (ih part (Kind.mem_sort.mp listed)).1
      refine ⟨ends, fun r member => ?_⟩
      simp only [List.mem_append, List.mem_flatMap, CompiledPart.mem_transfers] at member
      rcases member with (⟨part, listed, inPart⟩ | own) | ⟨part, listed, _, _, transfer⟩
      · exact ((ih part listed).2 r inPart).of_reaches (enters part (Kind.mem_sort.mpr listed))
      · intro other isType
        exact ⟨_, ends, resolved.trans (Container.ownRules_entityType own isType)⟩
      · intro other isType
        obtain ⟨_, same, _⟩ := transferRules_shape transfer
        exact ⟨_, ends, resolved.trans (Option.some.inj (same.symm.trans isType))⟩

/-! ### Documents -/

/-- Sections at the top have no class from outside. -/
theorem Document.entityType_known {document : Document} {rules : RuleSet}
    (within : env.vocabulary.Within classes) (succeeds : (document.compile env).1 = .ok rules)
    (member : r ∈ rules) {object : String} (isType : r.entityType = some object)
    : object ∈ classes ∨ object = env.config.fallbackObject := by
  rcases derivation_of_compile succeeds member with ⟨c, _, y, compiles, inside⟩ | final
  · obtain ⟨reached, reaches, rfl⟩ := (compiles.reaches within).2 r inside object isType
    rcases reaches with rfl | ⟨object, known, rfl⟩
    · exact .inr rfl
    · exact .inl known
  · cases (documentRules_shape final).1.symm.trans isType

/-- The rules of a document are about classes that the dictionary lists, or about the class in place
of a missing one. A section that compiles passes on the class of the section around it or one that
the dictionary lists.
-/
theorem Dictionary.compile_classes (d : Dictionary) (config : Config)
    : (∀ (document : Document) (rules : RuleSet),
        (document.compile ⟨d.vocabulary, config⟩).1 = .ok rules →
          ∀ r ∈ rules, ∀ object, r.entityType = some object →
            object ∈ d.objectNames ∨ object = config.fallbackObject)
      ∧ ∀ (c : Container) (context : Option String) (ancestor : Option RulePath)
          (s : CompileState) (out : Option String),
        (c.compile ⟨d.vocabulary, config⟩ context ancestor s).context = .ok out →
          out = context ∨ ∃ object ∈ d.objectNames, out = some object := by
  constructor
  · intro document rules succeeds r member object isType
    exact document.entityType_known d.within succeeds member isType
  · intro c context ancestor s out succeeds
    obtain ⟨rules, compiles, _⟩ :=
      (c.compile_yields : (c.compile ⟨d.vocabulary, config⟩).Yields _ True c) context ancestor s out
        succeeds fun unrepeated => absurd trivial unrepeated
    exact (compiles.reaches d.within).1

/-- Halls have a height. -/
def halls : Dictionary := Dictionary.empty.addProperty " Hall " { name := "height" }

/-- A section about halls. -/
def highHall : Container where
  id := { text := "j1" }
  reference := "/b"
  kind := .requirement
  children := [.tag { id := { text := "j2" }, kind := .requirement, property := "height" }]

/-- A section that has no class, around one about halls. -/
def hallDocument : Document where
  base := "GB/R/B/1"
  items := [.container { text := "j0" } "/b" .requirement [highHall.toNode]]
  tables := []

/-- The rules are about halls, under the name that the dictionary keeps, and about buildings. -/
theorem compile_classes_halls
    : ∃ rules,
        (hallDocument.compile ⟨halls.vocabulary, {}⟩).1 = .ok rules
        ∧ (∃ r ∈ rules, r.entityType = some "hall")
        ∧ (∃ r ∈ rules, r.entityType = some "Building")
        ∧ (∀ r ∈ rules, ∀ object, r.entityType = some object →
          object ∈ halls.objectNames ∨ object = "Building")
        ∧ (highHall.compile ⟨halls.vocabulary, {}⟩ none none {}).context = .ok (some "hall")
        ∧ (some "hall" = none ∨ ∃ object ∈ halls.objectNames, some "hall" = some object) := by
  obtain ⟨rules, compiled, types⟩
      : ∃ rules,
          (hallDocument.compile ⟨halls.vocabulary, {}⟩).1 = .ok rules
          ∧ (∃ r ∈ rules, r.entityType = some "hall")
          ∧ ∃ r ∈ rules, r.entityType = some "Building" :=
    Document.exists_of_compile (by decide +kernel)
  have context
      : (highHall.compile ⟨halls.vocabulary, {}⟩ none none {}).context = .ok (some "hall") := by
    decide +kernel
  obtain ⟨ofRules, ofContext⟩ := Dictionary.compile_classes halls {}
  exact ⟨rules, compiled, types.1, types.2, ofRules hallDocument rules compiled, context,
    ofContext highHall none none {} _ context⟩

end ClauseRules
