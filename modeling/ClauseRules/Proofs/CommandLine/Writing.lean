import ClauseRules.CommandLine.Run
import ClauseRules.Proofs.Files.Tree

/-! What command lines do to the files. Each step of a command either fails, and then the files
are as the step found them, or gives its result; all steps but the last one only read. The last
one writes the rules, to one file at most, after all else that may fail.
-/

namespace ClauseRules

variable {α β ε : Type} {before after : FileTree} {path : FilePath}

/-! ### Steps that fail without a trace -/

/-- A step that leaves the files as they are if it fails. Of its results, and of the files that it
leaves with them, something holds. -/
def Spares (x : ExceptT ε (StateM FileTree) α) (before : FileTree)
    (holds : α → FileTree → Prop) : Prop :=
  match x.run.run before with
  | (.ok a, after) => holds a after
  | (.error _, after) => after = before

/-- A step that only reads, with what holds of its results. -/
abbrev Reads (x : ExceptT ε (StateM FileTree) α) (before : FileTree) (holds : α → Prop) : Prop :=
  Spares x before fun a after => after = before ∧ holds a

namespace Spares

variable {x : ExceptT ε (StateM FileTree) α} {f : α → ExceptT ε (StateM FileTree) β}
  {holds : α → FileTree → Prop} {afterwards : β → FileTree → Prop} {middle : α → Prop}

theorem outcome (spares : Spares x before holds)
    : (∃ a after, x.run.run before = (.ok a, after) ∧ holds a after)
      ∨ ∃ e, x.run.run before = (.error e, before) := by
  unfold Spares at spares
  split at spares
  · next a after ran => exact .inl ⟨a, after, ran, spares⟩
  · next e after ran => exact .inr ⟨e, spares ▸ ran⟩

theorem of_ok {a : α} (ran : x.run.run before = (.ok a, after)) (result : holds a after)
    : Spares x before holds := by
  unfold Spares
  rw [ran]
  exact result

theorem of_error {e : ε} (ran : x.run.run before = (.error e, before))
    : Spares x before holds := by
  unfold Spares
  rw [ran]

theorem pure {a : α} (result : holds a before)
    : Spares (Pure.pure a : ExceptT ε (StateM FileTree) α) before holds :=
  of_ok rfl result

theorem throw (e : ε)
    : Spares (MonadExcept.throw e : ExceptT ε (StateM FileTree) α) before holds :=
  of_error rfl

theorem mono {weaker : α → FileTree → Prop} (spares : Spares x before holds)
    (weaken : ∀ a after, holds a after → weaker a after)
    : Spares x before weaker := by
  obtain ⟨a, after, ran, result⟩ | ⟨e, ran⟩ := spares.outcome
  · exact of_ok ran (weaken a after result)
  · exact of_error ran

theorem bind (first : Reads x before middle)
    (next : ∀ a, middle a → Spares (f a) before afterwards)
    : Spares (x >>= f) before afterwards := by
  obtain ⟨a, after, ran, rfl, holds⟩ | ⟨e, ran⟩ := first.outcome
  · have onward : (x >>= f).run.run after = (f a).run.run after := by
      rw [ExceptT.run_bind, StateT.run_bind, ran]
      rfl
    unfold Spares
    rw [onward]
    exact next a holds
  · have stopped : (x >>= f).run.run before = (.error e, before) := by
      rw [ExceptT.run_bind, StateT.run_bind, ran]
      rfl
    exact of_error stopped

theorem map {g : α → β} (spares : Spares x before fun a after => afterwards (g a) after)
    : Spares (g <$> x) before afterwards := by
  obtain ⟨a, after, ran, result⟩ | ⟨e, ran⟩ := spares.outcome
  · have mapped : (g <$> x).run.run before = (.ok (g a), after) := by
      rw [ExceptT.run_map, StateT.run_map, ran]
      rfl
    exact of_ok mapped result
  · have stopped : (g <$> x).run.run before = (.error e, before) := by
      rw [ExceptT.run_map, StateT.run_map, ran]
      rfl
    exact of_error stopped

theorem tryCatch {handle : ε → ExceptT ε (StateM FileTree) α} (spares : Spares x before holds)
    (handled : ∀ e, Spares (handle e) before holds)
    : Spares (MonadExcept.tryCatch x handle) before holds := by
  obtain ⟨a, after, ran, result⟩ | ⟨e, ran⟩ := spares.outcome
  · have kept : (MonadExcept.tryCatch x handle).run.run before = (.ok a, after) := by
      rw [ExceptT.run_tryCatch, StateT.run_bind, ran]
      rfl
    exact of_ok kept result
  · have caught
        : (MonadExcept.tryCatch x handle).run.run before = (handle e).run.run before := by
      rw [ExceptT.run_tryCatch, StateT.run_bind, ran]
      rfl
    unfold Spares
    rw [caught]
    exact handled e

theorem loading {x : ExceptT LoadError (StateM FileTree) α} (spares : Spares x before holds)
    : Spares (Invocation.loading x) before holds := by
  have told
      : (Invocation.loading x).run.run before
        = ((x.run.run before).1.mapError Failure.ofLoadError, (x.run.run before).2) :=
    rfl
  obtain ⟨a, after, ran, result⟩ | ⟨e, ran⟩ := spares.outcome
  · exact of_ok (by rw [told, ran]; rfl) result
  · exact of_error (by rw [told, ran]; rfl)

end Spares

namespace Reads

variable {x : ExceptT ε (StateM FileTree) α} {f : α → ExceptT ε (StateM FileTree) β}

theorem mapM {l : List α} {holds : α → β → Prop} (reads : ∀ a ∈ l, Reads (f a) before (holds a))
    : Reads (l.mapM f) before fun _ => True := by
  induction l with
  | nil => exact Spares.pure ⟨rfl, trivial⟩
  | cons a rest ih =>
      obtain ⟨first, later⟩ := List.forall_mem_cons.mp reads
      rw [List.mapM_cons]
      apply first.bind
      intro b _
      apply (ih later).bind
      intro bs _
      exact Spares.pure ⟨rfl, trivial⟩

end Reads

/-! ### Reading files -/

/-- A file of the tree that is read as a value. -/
def FileTree.Holds (t : FileTree) (path : FilePath) (read : String → Except ε α) (a : α) : Prop :=
  ∃ text, t.read? path = some text ∧ read text = .ok a

/-- The settings in a file of the tree, or those that hold without one. -/
inductive FileTree.Configures (t : FileTree) : Option FilePath → Config → Prop
  | absent : t.Configures none {}
  | file {path text config} (found : t.read? path = some text)
    (parsed : Config.ofTomlText? text = some config)
    : t.Configures (some path) config

/-- The file that a request was given for its rules. -/
def Request.output? : Request → Option FilePath
  | .run (.compile _ _ emission) => emission.output
  | .run (.records _ _ emission) => emission.output
  | _ => none

/-- The rules that a request compiles from the files of a tree, with the settings that hold for
them and the format in which they are asked for. -/
inductive Request.Compiles (t : FileTree) : Request → RuleFormat → Config → RuleSet → Prop
  | document {documentPath dictionaryPath emission config d format document rules}
    (settings : t.Configures emission.config config)
    (dictionary : t.Holds dictionaryPath Dictionary.ofJsonText d)
    (named : DocumentFormat.ofPath? documentPath = some format)
    (loaded : t.Holds documentPath (Document.ofText format) document)
    (compiled : (document.compile ⟨d.vocabulary, config⟩).1 = .ok rules)
    : Compiles t (.run (.compile documentPath dictionaryPath emission)) emission.format config rules
  | records {path name title emission config groups rules}
    (settings : t.Configures emission.config config)
    (records : t.Holds path groupsOfText groups)
    (titled : Invocation.recordsName path name = .ok title)
    (compiled : (compileRecords title groups).1 = .ok rules)
    : Compiles t (.run (.records path name emission)) emission.format config rules

/-- What a request that ended so leaves of the files that it found. -/
structure Request.Leaves (request : Request) (before : FileTree) (completion : Completion)
    (after : FileTree) : Prop where
  failed : completion.exitCode ≠ 0 → after = before
  unasked : request.output? = none → after = before
  written
    : ∀ path, completion.exitCode = 0 → request.output? = some path →
        ∃ format config rules text place,
          request.Compiles before format config rules
          ∧ Invocation.ruleText format config rules = .ok text
          ∧ before.locate path = .ok place
          ∧ before.Overwritten place text after
          ∧ after.read? path = some text
          ∧ ∀ other, before.locate other ≠ .ok place → after.read? other = before.read? other

section Runs

open Invocation

variable {isColored : Bool} {invocation : Invocation}

end Runs

end ClauseRules
