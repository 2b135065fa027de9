import ClauseRules.Proofs.Context.Narrowing
import ClauseRules.Proofs.Document.Coverage

/-! What a compilation asks a dictionary. Every question is about the property of a tag of the
document: whether it is the name of an object class, and which classes own it. Entries that answer
no such question make no difference.
-/

namespace ClauseRules

/-- Two vocabularies say the same about a property. -/
structure Vocabulary.Agrees (v w : Vocabulary) (property : String) : Prop where
  isObject : v.isObject property = w.isObject property
  owners : v.owners property = w.owners property

variable {v w : Vocabulary} {config : Config} {tags : List Tag} {nodes : List Node} {c : Container}

/-! ### The object class of a section -/

theorem Vocabulary.Agrees.classesOf {t : Tag} (agrees : v.Agrees w t.property)
    (declared : Option String)
    : v.classesOf declared t = w.classesOf declared t := by
  simp only [Vocabulary.classesOf, agrees.owners]

theorem narrow_congr (agree : ∀ t ∈ tags, v.Agrees w t.property) (declared : Option String)
    (container : NodeId) (candidates : Option (SortedSet String))
    : narrow v declared container candidates tags
      = narrow w declared container candidates tags := by
  induction tags generalizing candidates with
  | nil => rfl
  | cons t rest ih =>
      obtain ⟨here, later⟩ := List.forall_mem_cons.mp agree
      simp only [narrow, here.isObject, here.classesOf, ih later]

theorem resolveContext_congr (agree : ∀ t ∈ tags, v.Agrees w t.property)
    (declared : Option String) (container : NodeId) (ancestor : Option String)
    : resolveContext v tags declared container ancestor
      = resolveContext w tags declared container ancestor := by
  simp only [resolveContext, narrow_congr agree]

theorem declaredObject?_congr (agree : ∀ t ∈ nodes.filterMap Node.tag?, v.Agrees w t.property)
    : declaredObject? v nodes = declaredObject? w nodes := by
  simp only [declaredObject?]
  congr 1
  apply List.filterMap_congr
  intro place listed
  have child : place.1 ∈ nodes := List.fst_mem_of_mem_zipIdx listed
  cases tag : place.1.tag? with
  | none => rfl
  | some t =>
      have agrees := agree t (List.mem_filterMap.mpr ⟨_, child, tag⟩)
      simp only [Option.bind_some, agrees.isObject]

/-! ### Trees -/

theorem compileSection_congr (agree : ∀ t ∈ c.tags, v.Agrees w t.property) (children : List Child)
    : compileSection ⟨v, config⟩ c children = compileSection ⟨w, config⟩ c children := by
  have leaf : compileLeaf ⟨v, config⟩ c = compileLeaf ⟨w, config⟩ c := by
    funext context ancestor s
    simp only [compileLeaf, declaredObject?_congr agree, resolveContext_congr agree]
  have sections : compileSections ⟨v, config⟩ c children = compileSections ⟨w, config⟩ c children :=
    rfl
  funext context ancestor s
  simp only [compileSection, leaf, sections]

namespace Node

theorem mem_tagsOfList {t : Tag} : t ∈ tagsOfList nodes ↔ ∃ node ∈ nodes, t ∈ node.tags := by
  rw [tagsOfList_eq_flatMap, List.mem_flatMap]

/-- The tags directly inside of a section are among those of its tree. -/
theorem mem_tagsOfList_of_tag? {t : Tag} (member : t ∈ nodes.filterMap tag?)
    : t ∈ tagsOfList nodes := by
  obtain ⟨node, child, isTag⟩ := List.mem_filterMap.mp member
  refine mem_tagsOfList.mpr ⟨node, child, ?_⟩
  cases node with
  | tag _ =>
      cases isTag
      exact List.mem_singleton_self t
  | container => cases isTag

mutual

theorem child_congr {node : Node} (agree : ∀ t ∈ node.tags, v.Agrees w t.property)
    : child ⟨v, config⟩ node = child ⟨w, config⟩ node := by
  cases node with
  | tag t =>
      -- A section made of a tag has another tag in it, which asks for the same property.
      have direct : ∀ u ∈ t.wrapper.tags, v.Agrees w u.property := by
        intro u member
        obtain rfl := List.mem_singleton.mp member
        exact agree t (List.mem_singleton_self t)
      simp only [child, compileSection_congr direct]
  | container id reference kind children =>
      have below : childList ⟨v, config⟩ children = childList ⟨w, config⟩ children :=
        childList_congr agree
      have direct
          : ∀ t ∈ (⟨id, reference, kind, children⟩ : Container).tags, v.Agrees w t.property :=
        fun t member => agree t (mem_tagsOfList_of_tag? member)
      simp only [child, below, compileSection_congr direct]

theorem childList_congr {nodes : List Node} (agree : ∀ t ∈ tagsOfList nodes, v.Agrees w t.property)
    : childList ⟨v, config⟩ nodes = childList ⟨w, config⟩ nodes := by
  cases nodes with
  | nil => rfl
  | cons node rest =>
      obtain ⟨here, later⟩ := List.forall_mem_append.mp agree
      rw [childList, childList, child_congr here, childList_congr later]

end

end Node

/-- A tree is compiled alike with vocabularies that agree on the properties of its tags. -/
theorem Container.compile_congr (agree : ∀ t ∈ c.toNode.tags, v.Agrees w t.property)
    : c.compile ⟨v, config⟩ = c.compile ⟨w, config⟩ := by
  have direct : ∀ t ∈ c.tags, v.Agrees w t.property :=
    fun t member => agree t (Node.mem_tagsOfList_of_tag? member)
  rw [compile, compile, Node.childList_congr agree, compileSection_congr direct]

theorem compileAll_congr {sections : List Container}
    (agree : ∀ c ∈ sections, ∀ t ∈ c.toNode.tags, v.Agrees w t.property) (s : CompileState)
    : compileAll ⟨v, config⟩ s sections = compileAll ⟨w, config⟩ s sections := by
  induction sections generalizing s with
  | nil => rfl
  | cons c rest ih =>
      obtain ⟨here, later⟩ := List.forall_mem_cons.mp agree
      simp only [compileAll, Container.compile_congr here, ih later]

/-! ### Dictionaries -/

namespace Dictionary

variable {d e : Dictionary} {property : String}

/-- Dictionaries with the same names and the same owners of a property agree on it, whatever they
say of the property and of all else.
-/
theorem Keyed.agrees (keyed : d.Keyed) (other : e.Keyed)
    (named : d.containsObject property = e.containsObject property)
    (owned : ∀ object, (d.property? object property).isSome = (e.property? object property).isSome)
    : d.vocabulary.Agrees e.vocabulary property := by
  refine ⟨named, (keyed.increasing_owners property).ext (other.increasing_owners property) ?_⟩
  intro object
  change object ∈ d.owners property ↔ object ∈ e.owners property
  rw [keyed.mem_owners, other.mem_owners, owned]

end Dictionary

namespace Document

/-- Two dictionaries that agree on the properties of all tags of a document lead to the same rules
or the same problem, and to the same remarks. They do agree if they have the same entries under the
names of these properties: other classes and properties may be added and removed, and all of them
may be described in other ways.
-/
theorem compile_relevant (document : Document) (config : Config)
    : (∀ v w : Vocabulary,
        (∀ t ∈ Node.tagsOfList document.nodes, v.Agrees w t.property) →
        document.compile ⟨v, config⟩ = document.compile ⟨w, config⟩)
      ∧ ∀ d e : Dictionary, d.Reachable → e.Reachable →
        (∀ t ∈ Node.tagsOfList document.nodes,
          d.containsObject t.property = e.containsObject t.property
          ∧ ∀ object,
            (d.property? object t.property).isSome = (e.property? object t.property).isSome) →
        document.compile ⟨d.vocabulary, config⟩ = document.compile ⟨e.vocabulary, config⟩ := by
  have relevant (v w : Vocabulary)
      (agree : ∀ t ∈ Node.tagsOfList document.nodes, v.Agrees w t.property)
      : document.compile ⟨v, config⟩ = document.compile ⟨w, config⟩ := by
    cases valid : document.violations with
    | cons error others =>
        -- The document is refused before anything is asked.
        simp only [compile, valid]
    | nil =>
        have each : ∀ c ∈ document.sections, ∀ t ∈ c.toNode.tags, v.Agrees w t.property := by
          intro c listed t member
          have node := (mem_nodes valid).mpr ⟨c, listed, rfl⟩
          exact agree t (Node.mem_tagsOfList.mpr ⟨_, node, member⟩)
        simp only [compile, valid, compileAll_congr each]
  refine ⟨relevant, ?_⟩
  intro d e made madeOther same
  apply relevant
  intro t member
  obtain ⟨named, owned⟩ := same t member
  exact made.keyed.agrees madeOther.keyed named owned

/-- A section on the openings of windows. -/
def windowRules : Document where
  base := "GB/Regulation/B/1"
  items := [
    .container { text := "wr1" } "/b/1" .requirement [
      .tag { id := { text := "wr2" }, kind := .application, property := "window" },
      .tag widthTag, .tag heightTag]]
  tables := []

/-- Roofs in addition to what has openings, and a unit for the width of doors. -/
def roofed : Dictionary :=
  (apertures.addProperty "roof" { name := "pitch" }).addProperty "door"
    { name := "width", units := ["mm"] }

/-- A document that does not ask for roofs has the same rules with them. -/
theorem compile_relevant_roofed
    : apertures.containsObject "roof" = false
      ∧ roofed.containsObject "roof" = true
      ∧ (windowRules.compile ⟨apertures.vocabulary, {}⟩).1.isOk = true
      ∧ windowRules.compile ⟨roofed.vocabulary, {}⟩
        = windowRules.compile ⟨apertures.vocabulary, {}⟩ := by
  have made : apertures.Reachable :=
    ((((Dictionary.Reachable.empty.addProperty _ _).addProperty _ _).addProperty _ _).addProperty _
      _).addProperty _ _
  have madeOther : roofed.Reachable := (made.addProperty _ _).addProperty _ _
  have named
      : ∀ t ∈ Node.tagsOfList windowRules.nodes,
          roofed.containsObject t.property = apertures.containsObject t.property := by
    decide +kernel
  have owners
      : ∀ t ∈ Node.tagsOfList windowRules.nodes,
          roofed.owners t.property = apertures.owners t.property := by
    decide +kernel
  obtain ⟨-, same⟩ := compile_relevant windowRules {}
  refine ⟨by decide +kernel, by decide +kernel, by decide +kernel,
    same _ _ madeOther made fun t member => ⟨named t member, fun object => ?_⟩⟩
  rw [Bool.eq_iff_iff, ← madeOther.keyed.objectKey_mem_owners, owners t member,
    made.keyed.objectKey_mem_owners]

end Document

end ClauseRules
