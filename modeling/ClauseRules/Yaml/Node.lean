import ClauseRules.Yaml.Token

/-! The trees that YAML texts stand for. An alias stands for the node that was last given its name;
inside of that node itself it stands for nothing that could be read.
-/

namespace ClauseRules.Yaml

inductive Node where
  /-- A scalar without quotes (`plain`) or with them, and its tag if it has one. -/
  | scalar (text : String) (plain : Bool) (tag : Option String)
  | sequence (items : List Node)
  | mapping (entries : List (Node × Node))
  /-- A node inside of itself. -/
  | unreadable
deriving Repr, Inhabited

/-- The scalar where nothing is written. -/
def Node.empty : Node := .scalar "" true none

/-- A name given to a node, which is missing until the node is complete. -/
structure Anchor where
  name : String
  node : Option Node

/-- The tokens left, the names given, and the leads that the handles of tags stand for. -/
structure Composer where
  tokens : List Token
  anchors : List Anchor := []
  leads : List (String × String) := []

abbrev Compose := StateT Composer Option

namespace Compose

def fail {α : Type} : Compose α := fun _ => none

def peek : Compose (Option Token) := fun s => some (s.tokens.head?, s)

/-- Passes the next token. -/
def next : Compose Unit := fun s => some ((), { s with tokens := s.tokens.drop 1 })

/-- Passes the next token if it is the given one. -/
def accept (token : Token) : Compose Bool := do
  if (← peek) == some token then
    next
    return true
  else return false

/-- Whether the next token is one of those given. -/
def isNext (tokens : List Token) : Compose Bool := do
  return (← peek).any tokens.contains

/-- Passes the comma that parts two items. -/
def passComma : Compose Unit := do
  if ← accept .flowEntry then return () else fail

/-- Gives a name to a node that is still to be composed. -/
def nameNode (name : Option String) : Compose (Option Nat) := fun s =>
  match name with
  | none => some (none, s)
  | some name => some (some s.anchors.length, { s with anchors := s.anchors ++ [⟨name, none⟩] })

/-- Completes the node that a name was given to. -/
def complete (place : Option Nat) (node : Node) : Compose Node := fun s =>
  match place with
  | none => some (node, s)
  | some i => some (node, { s with anchors := s.anchors.modify i ({ · with node := some node }) })

/-- The node that was last given a name. -/
def named (name : String) : Compose Node := fun s =>
  (s.anchors.reverse.find? (·.name == name)).map fun anchor =>
    (anchor.node.getD .unreadable, s)

/-- The tag that a handle and a suffix stand for. -/
def resolveTag (handle suffix : String) : Compose String := fun s =>
  if handle.isEmpty then some (suffix, s)
  else (s.leads.lookup handle).map fun lead => (lead ++ suffix, s)

/-- What stands before a node: its name and its tag. -/
structure Properties where
  anchor : Option String := none
  tag : Option String := none

def readAnchor (p : Properties) : Compose Properties := do
  match ← peek with
  | some (.anchor name) =>
      next
      return { p with anchor := some name }
  | _ => return p

def readTag (p : Properties) : Compose Properties := do
  match ← peek with
  | some (.tag handle suffix) =>
      next
      return { p with tag := some (← resolveTag handle suffix) }
  | _ => return p

/-- Reads the properties of a node, in any order. -/
def properties : Compose Properties := do
  match ← peek with
  | some (.tag _ _) => readAnchor (← readTag {})
  | _ => readTag (← readAnchor {})

/-- A lone exclamation mark is no tag of a scalar. -/
def scalarTag (tag : Option String) : Option String := if tag == some "!" then none else tag

mutual

/-- Composes a node. Blocks can stand only where `block` is set, and sequences that are not indented
only where `indentless` is. `fuel` bounds the tokens left. -/
def node (block indentless : Bool) : (fuel : Nat) → Compose Node
  | 0 => fail
  | fuel + 1 => do
      match ← peek with
      | some (.alias name) =>
          next
          named name
      | _ =>
          let p ← properties
          let collection (compose : Compose Node) : Compose Node := do
            let place ← nameNode p.anchor
            complete place (← compose)
          match ← peek with
          | some (.scalar text plain) =>
              next
              collection (return .scalar text plain (scalarTag p.tag))
          | some .flowSequenceStart =>
              next
              collection (return .sequence (← flowItems true fuel))
          | some .flowMappingStart =>
              next
              collection (return .mapping (← flowEntries true fuel))
          | some .blockEntry =>
              if indentless then collection (return .sequence (← indentlessItems fuel))
              else if p.anchor.isSome || p.tag.isSome then
                collection (return .scalar "" true p.tag)
              else fail
          | some .blockSequenceStart =>
              if block then
                next
                collection (return .sequence (← blockItems fuel))
              else if p.anchor.isSome || p.tag.isSome then
                collection (return .scalar "" true p.tag)
              else fail
          | some .blockMappingStart =>
              if block then
                next
                collection (return .mapping (← blockEntries fuel))
              else if p.anchor.isSome || p.tag.isSome then
                collection (return .scalar "" true p.tag)
              else fail
          | _ =>
              if p.anchor.isSome || p.tag.isSome then collection (return .scalar "" true p.tag)
              else fail

/-- A node, or nothing before one of the given tokens. -/
def nodeUnless (ends : List Token) (block indentless : Bool) : (fuel : Nat) → Compose Node
  | 0 => fail
  | fuel + 1 => do
      if ← isNext ends then return .empty else node block indentless fuel

def blockItems : (fuel : Nat) → Compose (List Node)
  | 0 => fail
  | fuel + 1 => do
      if ← accept .blockEntry then
        let item ← nodeUnless [.blockEntry, .blockEnd] true false fuel
        return item :: (← blockItems fuel)
      else if ← accept .blockEnd then return []
      else fail

def indentlessItems : (fuel : Nat) → Compose (List Node)
  | 0 => fail
  | fuel + 1 => do
      if ← accept .blockEntry then
        let item ← nodeUnless [.blockEntry, .key, .value, .blockEnd] true false fuel
        return item :: (← indentlessItems fuel)
      else return []

def blockEntries : (fuel : Nat) → Compose (List (Node × Node))
  | 0 => fail
  | fuel + 1 => do
      let ends := [.key, .value, .blockEnd]
      if ← accept .key then
        let key ← nodeUnless ends true true fuel
        let value ← if ← accept .value then nodeUnless ends true true fuel else pure .empty
        return (key, value) :: (← blockEntries fuel)
      else if ← accept .blockEnd then return []
      else fail

/-- The items of a sequence in brackets. A single pair may stand for a mapping that holds it. -/
def flowItems (first : Bool) : (fuel : Nat) → Compose (List Node)
  | 0 => fail
  | fuel + 1 => do
      if ← accept .flowSequenceEnd then return []
      else
        if !first then passComma
        if ← accept .flowSequenceEnd then return []
        else if ← accept .key then
          let ends := [.value, .flowEntry, .flowSequenceEnd]
          let key ←
            -- a missing key swallows the token behind it
            if ← isNext ends then do
              next
              pure .empty
            else node false false fuel
          let value ←
            if ← accept .value then nodeUnless [.flowEntry, .flowSequenceEnd] false false fuel
            else pure .empty
          return .mapping [(key, value)] :: (← flowItems false fuel)
        else
          let item ← node false false fuel
          return item :: (← flowItems false fuel)

def flowEntries (first : Bool) : (fuel : Nat) → Compose (List (Node × Node))
  | 0 => fail
  | fuel + 1 => do
      if ← accept .flowMappingEnd then return []
      else
        if !first then passComma
        if ← accept .flowMappingEnd then return []
        else if ← accept .key then
          let key ← nodeUnless [.value, .flowEntry, .flowMappingEnd] false false fuel
          let value ←
            if ← accept .value then nodeUnless [.flowEntry, .flowMappingEnd] false false fuel
            else pure .empty
          return (key, value) :: (← flowEntries false fuel)
        else
          let key ← node false false fuel
          return (key, .empty) :: (← flowEntries false fuel)

end

/-! ### Documents -/

/-- The handles that need no directive. -/
def defaultLeads : List (String × String) := [("!", "!"), ("!!", "tag:yaml.org,2002:")]

/-- Reads directives; a version and each handle can be given once. -/
def directives (versioned : Bool) : (fuel : Nat) → Compose Unit
  | 0 => fail
  | fuel + 1 => do
      match ← peek with
      | some (.versionDirective major minor) =>
          if versioned || major != 1 || (minor != 1 && minor != 2) then fail
          else
            next
            directives true fuel
      | some (.tagDirective handle lead) =>
          if ((← get).leads.lookup handle).isSome then fail
          else
            next
            modify fun s => { s with leads := s.leads ++ [(handle, lead)] }
            directives versioned fuel
      | _ => modify fun s => { s with leads := s.leads ++ defaultLeads }

def isDirective : Token → Bool
  | .versionDirective _ _ | .tagDirective _ _ => true
  | _ => false

/-- Whether the content of a document is missing where a token stands. -/
def endsDocument (token : Token) : Bool :=
  isDirective token || token == .documentStart || token == .documentEnd

/-- The only document of a text. -/
def document (fuel : Nat) : Compose Node := do
  match ← peek with
  | none => fail
  | some token =>
      let explicit := isDirective token || token == .documentStart
      directives false fuel
      let started ← accept .documentStart
      if explicit && !started then fail
      else
        let isMissing := explicit && (← peek).all endsDocument
        let root ← if isMissing then pure .empty else node true false fuel
        let isLast := (← get).tokens.all (· == .documentEnd)
        if isLast then return root else fail

end Compose

/-- The tree of a text that holds one document. -/
def parse? (text : String) : Option Node := do
  let tokens ← tokens? text
  let (root, _) ← (Compose.document (4 * tokens.length + 8)).run { tokens }
  return root

end ClauseRules.Yaml
