import ClauseRules.Proofs.Compile.Success

/-! The object class of a section of tags. A property narrows the classes to its owners, and a tag
that names a class adds that class to those left so far. The class chosen in the end therefore owns
every property but those before a tag that names it.
-/

namespace ClauseRules

/-- The tag has the name of an object class, which is this one, for its property. -/
def Tag.Names (t : Tag) (vocabulary : Vocabulary) (object : String) : Prop :=
  vocabulary.isObject t.property = true ∧ objectKey t.property = object

/-- The class that a section of tags declares for itself. -/
def Container.declared? (c : Container) (vocabulary : Vocabulary) : Option String :=
  (declaredObject? vocabulary c.children).map fun (_, object) => Text.lower object

section Candidates

variable {vocabulary : Vocabulary} {declared : Option String} {container : NodeId} {t : Tag}
  {tags : List Tag} {candidates found : Option (SortedSet String)} {object : String}

theorem Vocabulary.classesOf_ok {classes : SortedSet String}
    (outcome : vocabulary.classesOf declared t = .ok classes)
    : classes = vocabulary.owners t.property ∧ ∀ d, declared = some d → d ∈ classes := by
  simp only [classesOf] at outcome
  split at outcome
  · cases outcome
  cases declared with
  | none => cases outcome; exact ⟨rfl, nofun⟩
  | some d =>
      cases owned : (vocabulary.owners t.property).contains d with
      | false => simp [owned] at outcome
      | true =>
          simp only [owned, if_true, Except.ok.injEq] at outcome
          subst outcome
          refine ⟨rfl, fun other same => ?_⟩
          cases same
          exact SortedSet.contains_iff.mp owned

/-- A tag that names a class adds it. -/
theorem narrow_of_object (isObject : vocabulary.isObject t.property = true)
    : narrow vocabulary declared container candidates (t :: tags)
      = narrow vocabulary declared container
          (some ((candidates.getD ∅).insert (objectKey t.property))) tags := by
  simp [narrow, isObject]

/-- Any other tag leaves of the candidates those that own its property. -/
theorem narrow_of_property (property : vocabulary.isObject t.property = false)
    (outcome : (narrow vocabulary declared container candidates (t :: tags)).1 = .ok found)
    : (∀ d, declared = some d → d ∈ vocabulary.owners t.property)
      ∧ ∃ kept,
        (∀ object ∈ kept, object ∈ vocabulary.owners t.property)
        ∧ (∀ before, candidates = some before → ∀ object ∈ kept, object ∈ before)
        ∧ (narrow vocabulary declared container (some kept) tags).1 = .ok found := by
  cases checked : vocabulary.classesOf declared t with
  | error e => simp [narrow, property, checked] at outcome
  | ok classes =>
      obtain ⟨rfl, owned⟩ := Vocabulary.classesOf_ok checked
      refine ⟨owned, ?_⟩
      simp only [narrow, property, Bool.false_eq_true, if_false, checked] at outcome
      cases candidates with
      | none => exact ⟨_, fun _ member => member, nofun, outcome⟩
      | some before =>
          refine ⟨before.inter (vocabulary.owners t.property),
            fun _ member => (SortedSet.mem_inter.mp member).2, ?_, ?_⟩
          · rintro _ ⟨⟩ _ member
            exact (SortedSet.mem_inter.mp member).1
          · simp only at outcome
            split at outcome <;> exact outcome

/-- What is left in the end was there before or is named by a tag. It owns the property of every tag
that no later tag gets around by naming it.
-/
theorem mem_narrow
    (outcome : (narrow vocabulary declared container candidates tags).1 = .ok found)
    (member : object ∈ found.getD ∅)
    : (∀ before, candidates = some before →
        object ∈ before ∨ ∃ u ∈ tags, u.Names vocabulary object)
      ∧ ∀ t later, t :: later <:+ tags → vocabulary.isObject t.property = false →
        object ∈ vocabulary.owners t.property ∨ ∃ u ∈ later, u.Names vocabulary object := by
  induction tags generalizing candidates with
  | nil =>
      simp only [narrow, Except.ok.injEq] at outcome
      subst outcome
      refine ⟨?_, fun t later suffix => by simp at suffix⟩
      rintro before rfl
      exact .inl member
  | cons head rest ih =>
      cases kind : vocabulary.isObject head.property with
      | true =>
          rw [narrow_of_object kind] at outcome
          obtain ⟨origin, owners⟩ := ih outcome
          refine ⟨?_, fun t later suffix property => ?_⟩
          · rintro before rfl
            rcases origin _ rfl with added | ⟨u, listed, names⟩
            · rcases SortedSet.mem_insert.mp added with same | old
              · exact .inr ⟨head, List.mem_cons_self, kind, same.symm⟩
              · exact .inl old
            · exact .inr ⟨u, List.mem_cons_of_mem _ listed, names⟩
          · rcases List.suffix_cons_iff.mp suffix with here | below
            · cases here
              cases kind.symm.trans property
            · exact owners t later below property
      | false =>
          obtain ⟨_, kept, owned, old, outcome⟩ := narrow_of_property kind outcome
          obtain ⟨origin, owners⟩ := ih outcome
          refine ⟨fun before start => ?_, fun t later suffix property => ?_⟩
          · rcases origin kept rfl with left | ⟨u, listed, names⟩
            · exact .inl (old before start object left)
            · exact .inr ⟨u, List.mem_cons_of_mem _ listed, names⟩
          · rcases List.suffix_cons_iff.mp suffix with here | below
            · cases here
              exact (origin kept rfl).imp_left (owned object)
            · exact owners t later below property

/-- The declared class owns every property. -/
theorem declared_owns {d : String}
    (outcome : (narrow vocabulary (some d) container candidates tags).1 = .ok found)
    : ∀ t ∈ tags, vocabulary.isObject t.property = false → d ∈ vocabulary.owners t.property := by
  induction tags generalizing candidates with
  | nil => exact fun _ member => absurd member List.not_mem_nil
  | cons head rest ih =>
      cases kind : vocabulary.isObject head.property with
      | true =>
          rw [narrow_of_object kind] at outcome
          exact List.forall_mem_cons.mpr
            ⟨fun property => absurd (kind.symm.trans property) nofun, ih outcome⟩
      | false =>
          obtain ⟨owned, _, _, _, outcome⟩ := narrow_of_property kind outcome
          exact List.forall_mem_cons.mpr ⟨fun _ => owned d rfl, ih outcome⟩

theorem choose_mem {preferred : List String} {candidates : SortedSet String}
    (chosen : choose container preferred candidates = .ok object)
    : object ∈ candidates := by
  simp only [choose] at chosen
  split at chosen
  · cases chosen
  case h_2 candidate only =>
    cases chosen
    rw [← SortedSet.mem_toList, only]
    exact List.mem_singleton_self _
  · split at chosen
    case h_1 found =>
      cases chosen
      exact SortedSet.contains_iff.mp (List.find?_some found)
    · cases chosen

end Candidates

namespace Container

variable {env : CompileEnv} {c : Container} {s : CompileState} {parent out : Option String}
  {ancestor : Option RulePath} {object : String}

/-- The class of a section owns each property that stands after the last tag which names the class,
and all of them if the section declares the class.
-/
theorem object_owns (resolved : c.object env.vocabulary parent = .ok object) {t : Tag}
    {later : List Tag} (suffix : t :: later <:+ c.tags)
    (property : env.vocabulary.isObject t.property = false)
    : object ∈ env.vocabulary.owners t.property
      ∨ (∃ u ∈ later, u.Names env.vocabulary object)
        ∧ c.declared? env.vocabulary ≠ some object := by
  simp only [Container.object, resolveContext, Option.map_map] at resolved
  have declared
      : (declaredObject? env.vocabulary c.children).map (Text.lower ∘ fun x => x.2)
        = c.declared? env.vocabulary := rfl
  rw [declared] at resolved
  cases outcome : (narrow env.vocabulary (c.declared? env.vocabulary) c.id none c.tags).1 with
  | error e => simp [outcome, bind, Except.bind] at resolved
  | ok found =>
      simp only [outcome, bind, Except.bind] at resolved
      by_cases own : c.declared? env.vocabulary = some object
      · rw [own] at outcome
        exact .inl (declared_owns outcome t (suffix.subset List.mem_cons_self) property)
      · obtain ⟨_, owners⟩ := mem_narrow outcome (choose_mem resolved)
        exact (owners t later suffix property).imp_right fun named => ⟨named, own⟩

/-- A section of tags that compiles has an object class. The class owns the property of every tag
that names no class itself, unless a later tag names it, though not as the class that the section
declares.
-/
theorem compile_object_owns (flat : c.hasContainers = false) (tagged : c.hasTags = true)
    (new : c.id ∉ s.visited) (compiled : (c.compile env parent ancestor s).context = .ok out)
    : ∃ object, out = some object
        ∧ ∀ t later, t :: later <:+ c.tags → env.vocabulary.isObject t.property = false →
          object ∈ env.vocabulary.owners t.property
            ∨ (∃ u ∈ later, u.Names env.vocabulary object)
              ∧ c.declared? env.vocabulary ≠ some object := by
  have alone : c.ids = [c.id] := by simp [ids_eq c, parts, flat]
  have derives : (c.compile env).Derives env (fun _ => False) c := c.compile_derives
  obtain ⟨rules, compiles, _⟩ :=
    derives parent ancestor s out compiled
      (.of_nodup (by simp [alone]) (by simpa [alone] using new))
  generalize outcome : (⟨_, out, rules⟩ : Yield) = y at compiles
  have context : out = y.context := congrArg Yield.context outcome
  cases compiles with
  | repeated never => exact never.elim
  | empty none => simp [hasTags, tags, none] at tagged
  | tags _ resolved =>
      exact ⟨_, context, fun t later suffix property => object_owns resolved suffix property⟩
  | sections nested => cases flat.symm.trans nested

/-- Doors have a width, garages an area. -/
def garages : CompileEnv where
  vocabulary :=
    ((Dictionary.empty.addProperty "door" { name := "width" }).addProperty "garage"
      { name := "area" }).vocabulary
  config := {}

/-- The second tag names a class that does not own the property of the first. -/
def wideGarage : Container where
  id := { text := "g1" }
  reference := "/b"
  kind := .requirement
  children := [
    .tag { id := { text := "v1" }, kind := .requirement, property := "width" },
    .tag { id := { text := "v2" }, kind := .requirement, property := "garage" },
    .tag { id := { text := "v3" }, kind := .requirement, property := "area" }]

theorem compile_object_owns_wideGarage
    : wideGarage.hasContainers = false ∧ wideGarage.hasTags = true
      ∧ wideGarage.id ∉ ({} : CompileState).visited
      ∧ (wideGarage.compile garages none none {}).context = .ok (some "garage")
      ∧ ∀ t later, t :: later <:+ wideGarage.tags →
        garages.vocabulary.isObject t.property = false →
        "garage" ∈ garages.vocabulary.owners t.property
          ∨ (∃ u ∈ later, u.Names garages.vocabulary "garage")
            ∧ wideGarage.declared? garages.vocabulary ≠ some "garage" := by
  have compiled : (wideGarage.compile garages none none {}).context = .ok (some "garage") := by
    decide +kernel
  obtain ⟨object, same, owns⟩ :=
    compile_object_owns (c := wideGarage) rfl rfl SortedSet.not_mem_empty compiled
  cases same
  exact ⟨rfl, rfl, SortedSet.not_mem_empty, compiled, owns⟩

/-- The class that was chosen does not own the property before its name. -/
theorem wideGarage_owns_no_width
    : wideGarage.hasContainers = false
      ∧ (wideGarage.compile garages none none {}).context = .ok (some "garage")
      ∧ ∃ t ∈ wideGarage.tags,
        garages.vocabulary.isObject t.property = false
        ∧ "garage" ∉ garages.vocabulary.owners t.property := by
  refine ⟨rfl, by decide +kernel, _, List.mem_cons_self, by decide +kernel, by decide +kernel⟩

end Container

end ClauseRules
