import ClauseRules.Proofs.Compile.Met
import ClauseRules.Proofs.Document.Sequence

/-! Rules ask for the results of other sections. In a compiled document some rule sets what is asked
for, except for sections that give no rules: those in which there is nothing to test, and those that
were passed over since their id was met before.
-/

namespace ClauseRules

variable {env : CompileEnv} {s : CompileState} {paths : List RulePath}

/-- All that sections have met, one after the other, is settled. -/
theorem compileAll_settles {sections : List Container}
    (succeeds : (compileAll env s sections).2 = .ok paths)
    : ∀ id ∈ (compileAll env s sections).1.visited,
        id ∈ s.visited
          ∨ Settled env.vocabulary (sections.flatMap Container.sections)
            (compileAll env s sections).1 id := by
  induction sections generalizing s paths with
  | nil => exact fun id known => .inl known
  | cons c others ih =>
      obtain ⟨out, rest, context, succeeds, moved⟩ := compileAll_cons succeeds
      rw [moved, List.flatMap_cons]
      intro id known
      rcases ih succeeds id known with before | settled
      · refine (c.compile_settles none none s out context id before).imp_right fun settled => ?_
        exact settled.mono (fun _ => List.mem_append_left _) (compileAll_grows others)
      · exact .inr (settled.mono (fun _ => List.mem_append_right _) .refl)

namespace Document

/-- All sections of a document, at any depth. -/
def allSections (document : Document) : List Container :=
  document.sections.flatMap Container.sections

/-- A section without rules although rules may ask for its status: there is nothing to test in it
and it is no application inside of another section, or a section with its id comes more than once,
one of them with another path or with nothing to test in it.
-/
def Unanswered (document : Document) (vocabulary : Vocabulary) (k : Container) : Prop :=
  k ∈ document.allSections
    ∧ (k.Silent vocabulary ∧ (k.kind = .application → k ∈ document.sections)
      ∨ 2 ≤ (document.allSections.map (·.id)).count k.id
        ∧ ∃ j ∈ document.allSections, j.id = k.id ∧ (j.Silent vocabulary ∨ j.path ≠ k.path))

/-- Several sections have the id, and the state tells what became of one of them. -/
def Repeats (document : Document) (vocabulary : Vocabulary) (s : CompileState) (id : NodeId)
    : Prop :=
  2 ≤ (document.allSections.map (·.id)).count id ∧ Settled vocabulary document.allSections s id

variable {document : Document} {rules : RuleSet} {r : Rule} {k : Container} {p : RulePath}
  {status : Status}

theorem ids_eq : document.sections.flatMap Container.ids = document.allSections.map (·.id) := by
  rw [allSections, List.map_flatMap]
  rfl

/-- All that a compiled document has met is settled, so what does not repeat was met only once. -/
theorem fresh_of_repeats (run : (compileAll env {} document.sections).2 = .ok paths)
    : Fresh (document.Repeats env.vocabulary (compileAll env {} document.sections).1) {}
        (compileAll env {} document.sections).1 (document.sections.flatMap Container.ids) := by
  rw [ids_eq]
  intro id listed known unrepeated
  have settled := (compileAll_settles run id known).resolve_left SortedSet.not_mem_empty
  have occurs : 0 < (document.allSections.map (·.id)).count id := List.count_pos_iff.mpr listed
  have once : ¬2 ≤ (document.allSections.map (·.id)).count id :=
    fun twice => unrepeated ⟨twice, settled⟩
  exact ⟨by omega, SortedSet.not_mem_empty⟩

/-- A section that was passed over is answered for by the section with its id that was compiled. -/
theorem sets_or_unanswered (inside : k ∈ document.allSections)
    (repeated : document.Repeats env.vocabulary s k.id)
    (either : status = .applicable ∨ status = .pass)
    : (∃ q ∈ s.rules, q.Sets k.path status) ∨ document.Unanswered env.vocabulary k := by
  obtain ⟨twice, j, listed, sameId, outcome⟩ := repeated
  rcases outcome with silent | decides
  · exact .inr ⟨inside, .inr ⟨twice, j, listed, sameId, .inl silent⟩⟩
  · by_cases samePath : j.path = k.path
    · exact .inl (samePath ▸ decides status either)
    · exact .inr ⟨inside, .inr ⟨twice, j, listed, sameId, .inr samePath⟩⟩

/-- In a compiled document, some rule sets each status that a rule asks for, unless it is that of a
section without rules.
-/
theorem compile_references (succeeds : (document.compile env).1 = .ok rules) (member : r ∈ rules)
    (asks : r.Asks p status) (either : status = .applicable ∨ status = .pass)
    : (∃ q ∈ rules, q.Sets p status)
      ∨ ∃ k, document.Unanswered env.vocabulary k ∧ k.path = p := by
  obtain ⟨paths, run, same⟩ := compile_ok succeeds
  obtain ⟨parts, origins, below, gain⟩ := compileAll_derives run (fresh_of_repeats run)
  have inRules {part : CompiledPart} (listed : part ∈ parts) {q : Rule} (own : q ∈ part.rules)
      : q ∈ rules :=
    (same q).mpr (.inl ((gain.rules q).mpr (.inr (List.mem_flatMap.mpr ⟨part, listed, own⟩))))
  have isSection {part : CompiledPart} (listed : part ∈ parts)
      : part.origin ∈ document.sections :=
    origins ▸ List.mem_map_of_mem listed
  have inside {part : CompiledPart} (listed : part ∈ parts) {k : Container}
      (inside : k ∈ part.origin.sections)
      : k ∈ document.allSections :=
    List.mem_flatMap.mpr ⟨part.origin, isSection listed, inside⟩
  have passedOver {k : Container} (inside : k ∈ document.allSections) (path : k.path = p)
      (repeated
        : document.Repeats env.vocabulary (compileAll env {} document.sections).1 k.id)
      : (∃ q ∈ rules, q.Sets p status)
        ∨ ∃ k, document.Unanswered env.vocabulary k ∧ k.path = p := by
    rcases sets_or_unanswered inside repeated either with ⟨q, set, sets⟩ | unanswered
    · exact .inl ⟨q, (same q).mpr (.inl set), path ▸ sets⟩
    · exact .inr ⟨k, unanswered, path⟩
  -- A section asks within its own tree, the document asks for its sections.
  rcases (same r).mp member with inSections | ⟨_, own⟩
  · obtain ⟨part, listed, inPart⟩ :=
      List.mem_flatMap.mp (((gain.rules r).mp inSections).resolve_left SortedSet.not_mem_empty)
    cases (below part listed).answered inPart asks either with
    | set own sets => exact .inl ⟨_, inRules listed own, sets⟩
    | around path => cases path
    | silent isInside path silent kind =>
        exact .inr
          ⟨_, ⟨inside listed isInside, .inl ⟨silent, fun same => absurd same kind⟩⟩, path⟩
    | repeated isInside path repeated => exact passedOver (inside listed isInside) path repeated
  · have listed := asks_documentRules own asks
    rw [compileAll_paths run, ← origins, List.map_map] at listed
    obtain ⟨part, listed, path⟩ := List.mem_map.mp listed
    have inside := inside listed part.origin.mem_sections_self
    rcases (below part listed).decides with repeated | ⟨silent, _⟩ | decides
    · exact passedOver inside path repeated
    · exact .inr ⟨part.origin, ⟨inside, .inl ⟨silent, fun _ => isSection listed⟩⟩, path⟩
    · obtain ⟨q, own, sets⟩ := decides status either
      exact .inl ⟨q, inRules listed own, path ▸ sets⟩

/-- A document compiles to rules of which a decidable property can be checked. -/
theorem exists_of_compile {P : RuleSet → Prop} [DecidablePred P]
    (checked
      : (match (document.compile env).1 with
        | .ok rules => decide (P rules)
        | .error _ => false) = true)
    : ∃ rules, (document.compile env).1 = .ok rules ∧ P rules := by
  cases compiled : (document.compile env).1 with
  | error e => simp [compiled] at checked
  | ok rules => exact ⟨rules, rfl, by simpa [compiled] using checked⟩

/-- Doors have a width. -/
def doors : CompileEnv where
  vocabulary := (Dictionary.empty.addProperty "door" { name := "width" }).vocabulary
  config := {}

/-- Two sections about doors. A requirement of the first one is still to be written. That of the
second has the id of one that was met before, and another path.
-/
def unwritten : Document where
  base := "GB/R/B/1"
  items := [
    .container { text := "p1" } "/b" .requirement [
      .container { text := "d1" } "/b" .application [
        .tag { id := { text := "i1" }, kind := .application, property := "door" }],
      .container { text := "e1" } "/b" .requirement [],
      .container { text := "x" } "/b" .requirement [
        .tag { id := { text := "i2" }, kind := .requirement, property := "width" }]],
    .container { text := "p2" } "/c" .requirement [
      .container { text := "d2" } "/c" .application [
        .tag { id := { text := "i3" }, kind := .application, property := "door" }],
      .container { text := "x" } "/c" .requirement [
        .tag { id := { text := "i4" }, kind := .requirement, property := "width" }]]]
  tables := []

theorem compile_references_unwritten
    : ∃ rules,
        (unwritten.compile doors).1 = .ok rules
        ∧ ∃ r ∈ rules,
          r.Asks ⟨"/b/x"⟩ .pass
          ∧ ((∃ q ∈ rules, q.Sets ⟨"/b/x"⟩ .pass)
            ∨ ∃ k, unwritten.Unanswered doors.vocabulary k ∧ k.path = ⟨"/b/x"⟩) := by
  obtain ⟨rules, compiled, r, member, asks⟩
      : ∃ rules, (unwritten.compile doors).1 = .ok rules ∧ ∃ r ∈ rules, r.Asks ⟨"/b/x"⟩ .pass :=
    exists_of_compile (by decide +kernel)
  exact ⟨rules, compiled, r, member, asks, compile_references compiled member asks (.inr rfl)⟩

/-- No rule sets the results of the requirement without content and of the one passed over. -/
theorem unwritten_unanswered
    : ∃ rules,
        (unwritten.compile doors).1 = .ok rules
        ∧ (∃ r ∈ rules, r.Asks ⟨"/b/e1"⟩ .pass) ∧ (¬∃ q ∈ rules, q.Sets ⟨"/b/e1"⟩ .pass)
        ∧ (∃ r ∈ rules, r.Asks ⟨"/c/x"⟩ .pass) ∧ ¬∃ q ∈ rules, q.Sets ⟨"/c/x"⟩ .pass :=
  exists_of_compile (by decide +kernel)

end Document

end ClauseRules
