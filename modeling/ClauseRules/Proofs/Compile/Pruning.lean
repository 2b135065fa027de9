import ClauseRules.Proofs.Compile.Calls
import ClauseRules.Proofs.Compile.Normal
import ClauseRules.Proofs.Document.Duplicates

/-! What compilation leaves of a tree. Where every section is met once, it is the repaired tree
without what has only named an object class: in a section of tags the tag that declares its class,
and in a section of sections the applications of which nothing is left.
-/

namespace ClauseRules

/-! ### Pruned trees -/

section

variable {α : Type} {p : α → Bool} {as : List α} {a : α}

/-- A list without the last element that has the property, if there is one. -/
def eraseLast (p : α → Bool) (as : List α) : List α := (as.reverse.eraseP p).reverse

theorem eraseLast_concat_of_pos (holds : p a = true) : eraseLast p (as ++ [a]) = as := by
  simp [eraseLast, holds]

theorem eraseLast_concat_of_neg (fails : p a = false)
    : eraseLast p (as ++ [a]) = eraseLast p as ++ [a] := by
  simp [eraseLast, fails]

end

namespace Node

variable {vocabulary : Vocabulary} {nodes : List Node} {node : Node}

/-- The node is an application tag with the name of an object class. -/
def namesObject (vocabulary : Vocabulary) : Node → Bool
  | .tag t => t.kind == .application && vocabulary.isObject t.property
  | .container _ _ _ _ => false

/-- The node is an application with nothing in it. -/
def isSpent : Node → Bool
  | .tag _ => false
  | .container _ _ kind children => kind == .application && children.isEmpty

mutual

/-- A tree without what only names object classes, from the bottom up. -/
def prune (vocabulary : Vocabulary) : Node → Node
  | .tag t => .tag t
  | .container id reference kind children =>
      .container id reference kind
        (if children.any (·.container?.isSome)
          then (pruneAll vocabulary children).filter (!·.isSpent)
          else eraseLast (namesObject vocabulary) children)

def pruneAll (vocabulary : Vocabulary) : List Node → List Node
  | [] => []
  | node :: rest => prune vocabulary node :: pruneAll vocabulary rest

end

theorem pruneAll_eq_map (vocabulary : Vocabulary) (nodes : List Node)
    : pruneAll vocabulary nodes = nodes.map (prune vocabulary) := by
  induction nodes with
  | nil => rfl
  | cons node rest ih => rw [pruneAll, ih, List.map_cons]

end Node

namespace Container

variable {vocabulary : Vocabulary} {c : Container}

/-- What is left of a section without what only names object classes. -/
def prune (c : Container) (vocabulary : Vocabulary) : Container := (c.toNode.prune vocabulary).part

theorem toNode_prune (c : Container) (vocabulary : Vocabulary)
    : (c.prune vocabulary).toNode = c.toNode.prune vocabulary := by
  simp only [prune, toNode, Node.prune]
  rfl

theorem prune_of_flat (flat : c.hasContainers = false)
    : c.prune vocabulary
      = { c with children := eraseLast (Node.namesObject vocabulary) c.children } := by
  rw [hasContainers_eq_any] at flat
  simp [prune, toNode, Node.prune, flat, Node.part]

/-- A section of sections loses the applications of which nothing is left. -/
theorem prune_of_map {sections : List Container}
    : { c with children := sections.map toNode : Container }.prune vocabulary
      = { c with
          children :=
            ((sections.map (·.prune vocabulary)).filter (!·.toNode.isSpent)).map toNode } := by
  have each
      : (sections.map toNode).map (Node.prune vocabulary)
        = (sections.map (·.prune vocabulary)).map toNode := by
    simp only [List.map_map, Function.comp_def, toNode_prune]
  have kept
      : ((sections.map (·.prune vocabulary)).filter (!·.toNode.isSpent)).map toNode
        = ((sections.map toNode).map (Node.prune vocabulary)).filter (!·.isSpent) := by
    rw [each, List.filter_map (f := toNode)]
    rfl
  rw [kept]
  cases sections with
  | nil => rfl
  | cons k rest =>
      have nested : ((k :: rest).map toNode).any (·.container?.isSome) = true := rfl
      simp only [prune, toNode, Node.prune, Node.part, nested, if_true, Node.pruneAll_eq_map]

end Container

/-! ### Sections of tags -/

section

variable {vocabulary : Vocabulary} {nodes : List Node} {node : Node}

/-- The last tag that names an object class declares it. -/
theorem declaredObject?_concat_of_pos (names : node.namesObject vocabulary = true)
    : ∃ object, declaredObject? vocabulary (nodes ++ [node]) = some (nodes.length, object) := by
  cases node with
  | container => cases names
  | tag t =>
      simp only [Node.namesObject, Bool.and_eq_true, beq_iff_eq] at names
      exact ⟨objectKey t.property, by
        simp [declaredObject?, List.zipIdx_append, Node.tag?, names]⟩

theorem declaredObject?_concat_of_neg (other : node.namesObject vocabulary = false)
    : declaredObject? vocabulary (nodes ++ [node]) = declaredObject? vocabulary nodes := by
  cases node with
  | container => simp [declaredObject?, List.zipIdx_append, Node.tag?]
  | tag t =>
      have neither : ¬(t.kind = .application ∧ vocabulary.isObject t.property = true) := by
        simpa [Node.namesObject] using other
      simp [declaredObject?, List.zipIdx_append, Node.tag?, neither]

/-- The tag that declares the object class is the last one that names any. -/
theorem eraseLast_namesObject (vocabulary : Vocabulary) (nodes : List Node)
    : (declaredObject? vocabulary nodes = none →
        eraseLast (Node.namesObject vocabulary) nodes = nodes)
      ∧ ∀ i object, declaredObject? vocabulary nodes = some (i, object) →
        i < nodes.length ∧ eraseLast (Node.namesObject vocabulary) nodes = nodes.eraseIdx i := by
  -- By induction from the end of the list, where the search for the tag ends.
  induction nodes using List.reverseRecOn with
  | nil => exact ⟨fun _ => rfl, nofun⟩
  | append_singleton before node ih =>
      cases names : node.namesObject vocabulary with
      | true =>
          obtain ⟨object, declared⟩
              : ∃ object,
                  declaredObject? vocabulary (before ++ [node]) = some (before.length, object) :=
            declaredObject?_concat_of_pos names
          refine ⟨fun undeclared => ?_, fun i other found => ?_⟩
          · cases declared.symm.trans undeclared
          · cases declared.symm.trans found
            rw [eraseLast_concat_of_pos names, List.eraseIdx_append_of_length_le (Nat.le_refl _)]
            simp
      | false =>
          obtain ⟨undeclared, declared⟩ := ih
          rw [declaredObject?_concat_of_neg names, eraseLast_concat_of_neg names]
          refine ⟨fun none => by rw [undeclared none], fun i object found => ?_⟩
          obtain ⟨inside, same⟩ := declared i object found
          refine ⟨?_, by rw [same, List.eraseIdx_append_of_lt_length inside]⟩
          rw [List.length_append]
          exact Nat.lt_add_right _ inside

end

/-- A section of tags loses the tag that declares its object class. -/
theorem Container.undeclared_eq_prune {vocabulary : Vocabulary} {c : Container}
    (flat : c.hasContainers = false)
    : c.undeclared vocabulary = c.prune vocabulary := by
  obtain ⟨undeclared, declared⟩ := eraseLast_namesObject vocabulary c.children
  rw [prune_of_flat flat, Container.undeclared]
  cases found : declaredObject? vocabulary c.children with
  | none => simp only [undeclared found]
  | some place => simp only [(declared place.1 place.2 found).2]

/-! ### Whole trees -/

theorem Node.violationIn?_of_forall {nodes : List Node}
    (each : ∀ node ∈ nodes, node.violation? = none)
    : violationIn? nodes = none := by
  induction nodes with
  | nil => rfl
  | cons node rest ih =>
      obtain ⟨here, later⟩ := List.forall_mem_cons.mp each
      exact Option.or_eq_none_iff.mpr ⟨here, ih later⟩

/-- What a derivation in which no section repeats leaves of a tree. -/
theorem Compiles.left_eq {env : CompileEnv} {ancestor : Option RulePath} {context : Option String}
    {c : Container} {y : Yield} (compiles : Compiles env (fun _ => False) ancestor context c y)
    (valid : c.violation? = none)
    : y.left = c.normalTree.1.prune env.vocabulary := by
  -- By induction on the derivation, which has the parts in the order of the children and not in
  -- that of their turns.
  induction compiles with
  | repeated allowed => exact allowed.elim
  | @empty ancestor context c none =>
      have flat : c.hasContainers = false := by
        simp [Container.hasContainers, Container.containers, none]
      rw [Container.normalTree_of_flat flat, Container.prune_of_flat flat, none]
      obtain ⟨id, reference, kind, children⟩ := c
      cases none
      rfl
  | tags flat =>
      rw [Container.normalTree_of_flat flat]
      exact Container.undeclared_eq_prune flat
  | @sections ancestor context c object left parts nested origins entered below resolved rest ih =>
      have each : parts.map (·.left) = c.parts.map (·.normalTree.1.prune env.vocabulary) := by
        rw [← origins, List.map_map]
        apply List.map_congr_left
        intro part listed
        have inside : part.origin ∈ c.parts := origins ▸ List.mem_map_of_mem listed
        exact ih part listed (Container.violation?_of_part valid inside)
      rw [← rest, Container.normalTree_of_nested valid nested, Container.prune_of_map, List.map_map]
      simp only [Function.comp_def, ← each, List.filter_map, List.map_map]
      rfl

namespace Container

variable {env : CompileEnv} {c : Container} {context out : Option String}
  {ancestor : Option RulePath} {s : CompileState}

/-- A tree can be repaired if every section of it can, also those made by repairs. -/
theorem violation?_of_pure (pure : ∀ k ∈ c.sections, k.mixedContent? = none)
    : c.violation? = none := by
  induction c using inductionOnParts with
  | step c ih =>
      refine Option.or_eq_none_iff.mpr ⟨pure c c.mem_sections_self, ?_⟩
      apply Node.violationIn?_of_forall
      intro node child
      cases node with
      | tag t => rfl
      | container id reference kind children =>
          have nested : c.hasContainers = true := by
            rw [hasContainers_eq_any, List.any_eq_true]
            exact ⟨_, child, rfl⟩
          have listed : ⟨id, reference, kind, children⟩ ∈ c.parts := by
            rw [parts, if_pos nested]
            exact List.mem_map_of_mem (f := Node.part) child
          exact ih _ listed fun k inside => pure k (mem_sections_of_part listed inside)

/-- A tree that compiles can be repaired, if no section of it is passed over. -/
theorem violation?_of_ok (unmet : Unmet s c.ids)
    (succeeds : (c.compile env context ancestor s).context = .ok out)
    : c.violation? = none := by
  apply violation?_of_pure
  intro k inside
  -- The compilation comes to every section, each of them for the first time.
  let call : Call := ⟨c, context, ancestor, s⟩
  obtain ⟨inner, reaches, rfl⟩ : ∃ inner, call.Reaches env inner ∧ inner.container = k :=
    Call.exists_reaches succeeds unmet inside
  obtain ⟨found, compiles⟩ := reaches.ok succeeds
  exact Call.pure_of_ok ((reaches.unmet unmet).new _ id_mem_ids) compiles

/-- A compilation that starts afresh and succeeds, on a tree whose sections all have different ids,
leaves the repaired tree without what only names object classes. The ids of the sections are those
of the containers of the repaired tree, wherever the tree can be repaired.
-/
theorem compile_prunes (c : Container) (env : CompileEnv) (context : Option String)
    (ancestor : Option RulePath)
    : (c.normalTree.2 = none → c.normalTree.1.containerIds = c.ids)
      ∧ (c.ids.Nodup → ∀ out, (c.compile env context ancestor {}).context = .ok out →
        c.normalTree.2 = none
        ∧ (c.compile env context ancestor {}).container
          = c.normalTree.1.prune env.vocabulary) := by
  have problem : c.normalTree.2 = c.violation? := c.toNode.normalTree_snd
  constructor
  · intro repaired
    exact c.containerIds_normalTree (problem.symm.trans repaired)
  · intro distinct out succeeds
    have unmet : Unmet {} c.ids := ⟨distinct, fun _ _ => SortedSet.not_mem_empty⟩
    have valid := violation?_of_ok unmet succeeds
    have yields : (c.compile env).Yields env False c := c.compile_yields
    obtain ⟨rules, compiles, -⟩ := yields context ancestor {} out succeeds
      fun _ => ⟨unmet.distinct, unmet.new⟩
    exact ⟨problem.trans valid, compiles.left_eq valid⟩

/-- Two applications around the name of an object class. -/
def nestedName : Node :=
  .container { text := "gr2" } "/b/2" .application [
    .container { text := "gr3" } "/b/3" .application
      [.tag { id := { text := "gr4" }, kind := .application, property := "garage" }]]

def doorName : Node :=
  .tag { id := { text := "gr6" }, kind := .application, property := "door" }

/-- A section that names two object classes. -/
def twoNames : Node :=
  .container { text := "gr5" } "/b/5" .requirement [
    doorName,
    .tag { id := { text := "gr7" }, kind := .application, property := "garage" },
    .tag { id := { text := "gr8" }, kind := .requirement, property := "area" }]

def oneName : Node :=
  .container { text := "gr5" } "/b/5" .requirement [
    doorName,
    .tag { id := { text := "gr8" }, kind := .requirement, property := "area" }]

def looseArea : Tag := { id := { text := "gr9" }, kind := .selection, property := "area" }

def garageRules : Container where
  id := { text := "gr1" }
  reference := "/b"
  kind := .requirement
  children := [nestedName, twoNames, .tag looseArea]

/-- Nothing is left of the applications, and only the last name in the section of tags is gone. -/
theorem compile_prunes_garageRules
    : garageRules.ids.Nodup
      ∧ (garageRules.compile garages none none {}).context = .ok (some "garage")
      ∧ (garageRules.compile garages none none {}).container
        = garageRules.normalTree.1.prune garages.vocabulary
      ∧ (garageRules.compile garages none none {}).container
        = { garageRules with children := [oneName, looseArea.wrapper.toNode] } := by
  have distinct : garageRules.ids.Nodup := by decide +kernel
  have context
      : (garageRules.compile garages none none {}).context = .ok (some "garage") := by
    decide +kernel
  obtain ⟨-, left⟩ := (compile_prunes garageRules garages none none).2 distinct _ context
  refine ⟨distinct, context, left, left.trans ?_⟩
  rfl

end Container

end ClauseRules
