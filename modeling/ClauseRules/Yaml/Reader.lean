import ClauseRules.Source.Basic
import ClauseRules.Yaml.Node
import ClauseRules.Yaml.Scalar

/-! YAML trees read as the values of a file format. A record is a mapping, or a sequence of its
fields in order. Where nothing is written there may be an empty list or a record without fields.
-/

namespace ClauseRules.Yaml

/-- Why a text cannot be read as a value of a file format. -/
inductive Error where
  /-- The text is not one YAML document. -/
  | malformed
  | unexpected (expected : String)
  | missingField (name : String)
  | duplicateField (name : String)
  | tooManyItems
  | tooDeep
deriving DecidableEq, Repr

/-- A node inside of `depth` collections. -/
structure Value where
  node : Node
  depth : Nat

instance : Nested Value where
  Below w v := sizeOf w.node < sizeOf v.node
  below_wf := (measure fun v : Value => sizeOf v.node).wf
  below_trans h h' := Nat.lt_trans h h'

/-- The greatest depth of collections that are read. -/
def maxDepth : Nat := 128

def readText (v : Value) : Except Error String :=
  match v.node with
  | .scalar text _ _ => .ok text
  | _ => .error (.unexpected "text")

def readScalar (v : Value) : Except Error String :=
  match v.node with
  | .scalar text plain tag =>
      match scalarText? text plain tag with
      | some text => .ok text
      | none => .error (.unexpected "a scalar")
  | _ => .error (.unexpected "a scalar")

/-- Nothing, or a word for nothing, stands for an absent value. -/
def readIsAbsent (v : Value) : Except Error Bool :=
  match v.node with
  | .scalar text true none => .ok (text.isEmpty || isNullText text)
  | .scalar text true (some tag) =>
      if tag != typeLead ++ "null" then .ok false
      else if isNullText text then .ok true
      else .error (.unexpected "null")
  | _ => .ok false

theorem sizeOf_mem_items {items : List Node} {node : Node} (h : node ∈ items)
    : sizeOf node < sizeOf (Node.sequence items) := by
  have := List.sizeOf_lt_of_mem h
  simp only [Node.sequence.sizeOf_spec]
  omega

theorem sizeOf_mem_entries {entries : List (Node × Node)} {entry : Node × Node}
    (h : entry ∈ entries)
    : sizeOf entry.2 < sizeOf (Node.mapping entries) := by
  have hm := List.sizeOf_lt_of_mem h
  have he : sizeOf entry = 1 + sizeOf entry.1 + sizeOf entry.2 := by cases entry; rfl
  simp only [Node.mapping.sizeOf_spec]
  omega

/-- Whether a collection may be entered. -/
def checkDepth (v : Value) : Except Error Unit :=
  if v.depth < maxDepth then .ok () else .error .tooDeep

def readItems (v : Value) : Except Error (List (Part v) × Option Error) :=
  match hv : v.node with
  | .sequence items => do
      checkDepth v
      return (items.attach.map fun item =>
        ⟨⟨item.1, v.depth + 1⟩, by
          show sizeOf item.1 < sizeOf v.node
          rw [hv]
          exact sizeOf_mem_items item.2⟩, none)
  | .scalar "" true _ => .ok ([], none)
  | _ => .error (.unexpected "a sequence")

/-- The name of a field. -/
def keyText (key : Node) : Except Error String :=
  match key with
  | .scalar text _ _ => .ok text
  | _ => .error (.unexpected "the name of a field")

/-- The first of the names that was given before. -/
def repeated? (names : List String) : List String → Option String
  | [] => none
  | name :: rest =>
      if names.contains name && rest.contains name then some name else repeated? names rest

def readFields (typeName : String) (names : List String) (v : Value)
    : Except Error (Record Error v) :=
  let missing := fun name => (0, Error.missingField name)
  match hv : v.node with
  | .mapping entries => do
      checkDepth v
      let keys ← entries.mapM fun entry => keyText entry.1
      let parts : List (Part v) := entries.attach.map fun entry =>
        ⟨⟨entry.1.2, v.depth + 1⟩, by
          show sizeOf entry.1.2 < sizeOf v.node
          rw [hv]
          exact sizeOf_mem_entries entry.2⟩
      return {
        slots := (keys.zip parts).map fun (key, part) => (key, 0, part)
        missing
        issue := (repeated? names keys).map fun name => (0, .duplicateField name)
      }
  | .sequence items => do
      checkDepth v
      let parts : List (Part v) := items.attach.map fun item =>
        ⟨⟨item.1, v.depth + 1⟩, by
          show sizeOf item.1 < sizeOf v.node
          rw [hv]
          exact sizeOf_mem_items item.2⟩
      return {
        slots := (names.zip parts).map fun (name, part) => (name, 0, part)
        missing
        issue := if names.length < items.length then some (0, .tooManyItems) else none
      }
  | .scalar "" true _ => .ok { slots := [], missing, issue := none }
  | _ => .error (.unexpected typeName)

instance : Source Value Error where
  text := readText
  scalar := readScalar
  isAbsent := readIsAbsent
  items := readItems
  fields := readFields

/-- Reads a text as a value of a file format. -/
def readDocument {α : Type} (read : Value → Except Error α) (text : String) : Except Error α :=
  match parse? text with
  | some root => read ⟨root, 0⟩
  | none => .error .malformed

end ClauseRules.Yaml
