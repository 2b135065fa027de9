import ClauseRules.Proofs.Compile.Calls
import ClauseRules.Proofs.Document.Duplicates
import ClauseRules.Proofs.Document.References

/-! Results of sections that are about another object class. The section around compares the class
that a section returns with its own. This is the class that the rules of the section were made for,
or there is none, so no result of another class is left where it is.
-/

namespace ClauseRules

variable {env : CompileEnv} {r : Rule}

/-! ### What a call adds -/

theorem Progress.mem_transfers {p : Progress} {path : RulePath}
    : r ∈ p.transfers env path
      ↔ ∃ id child context,
          (id, child, context) ∈ p.results ∧ context ≠ some (p.object env)
          ∧ r ∈ transferRules path (p.object env) id.text child := by
  simp only [transfers, List.mem_flatMap, beq_iff_eq]
  constructor
  · rintro ⟨⟨id, child, context⟩, listed, member⟩
    by_cases same : context = some (p.object env)
    · simp [same] at member
    · exact ⟨id, child, context, listed, same, by simpa [same] using member⟩
  · rintro ⟨id, child, context, listed, differs, member⟩
    exact ⟨(id, child, context), listed, by simpa [differs] using member⟩

/-- The object class that rules are about where a section has come to a class, or to none. -/
def CompileEnv.objectOf (env : CompileEnv) (out : Option String) : String :=
  out.getD env.config.fallbackObject

namespace Call

variable {outer inner : Call} {out found : Option String}

/-- A part that is kept was listed when its turn was over. -/
theorem mem_results {id : NodeId} {child : RulePath} {context : Option String}
    (new : outer.container.id ∉ outer.state.visited)
    (pure : outer.container.mixedContent? = none)
    : (id, child, context) ∈ (outer.container.progress env outer.context outer.state
          outer.container.turns).results
      ↔ ∃ inner,
          outer.Makes env inner ∧ inner.Kept env ∧ (inner.outcome env).context = .ok context
          ∧ id = inner.container.id ∧ child = inner.container.path := by
  simp only [Container.progress]
  rw [Progress.mem_results_after]
  simp only [List.not_mem_nil, false_or]
  constructor
  · rintro ⟨k, q, _, turn, compiled, kept, same⟩
    obtain ⟨rfl, rfl, rfl⟩ : id = k.id ∧ child = k.path ∧ context = _ := by
      simpa only [Prod.mk.injEq] using same
    exact ⟨_, .part new pure turn, kept, compiled, rfl, rfl⟩
  · rintro ⟨_, ⟨_, _, turn⟩, kept, compiled, rfl, rfl⟩
    exact ⟨_, _, context, turn, compiled, kept, rfl⟩

/-- The rules that a call adds by itself: those that decide its section and sum it up, and those
that carry over what the parts of it have come to which are kept and returned another class, or
none.
-/
theorem mem_ownRules (succeeds : (outer.outcome env).context = .ok out)
    (member : r ∈ outer.ownRules env)
    : (∃ operands,
        r ∈ (Scope.mk outer.container.path outer.container.kind outer.ancestor
          (env.objectOf out)).mainRules operands)
      ∨ r ∈ aggregationRules outer.container.path
      ∨ ∃ inner found,
          outer.Makes env inner ∧ inner.Kept env ∧ (inner.outcome env).context = .ok found
          ∧ found ≠ some (env.objectOf out)
          ∧ r ∈ transferRules outer.container.path (env.objectOf out) inner.container.id.text
              inner.container.path := by
  rw [ownRules] at member
  split at member
  · exact absurd member List.not_mem_nil
  case isFalse new =>
    split at member
    case isTrue nested =>
      have pure := pure_of_ok new succeeds
      obtain ⟨_, rfl, _⟩ := running_of_ok new pure nested succeeds
      simp only [Container.rulesAfter, List.mem_append] at member
      rcases member with (main | carried) | summary
      · exact .inl ⟨_, main⟩
      · obtain ⟨id, child, context, listed, differs, transfer⟩ := Progress.mem_transfers.mp carried
        obtain ⟨inner, makes, kept, compiled, rfl, rfl⟩ := (mem_results new pure).mp listed
        exact .inr (.inr ⟨inner, context, makes, kept, compiled, differs, transfer⟩)
      · exact .inr (.inl summary)
    case isFalse flat =>
      simp only [Container.rulesLeft, succeeds] at member
      split at member
      case h_1 object same =>
        cases same
        split at member
        · exact absurd member List.not_mem_nil
        · rcases Container.mem_ownRules.mp member with main | summary
          · exact .inl ⟨_, main⟩
          · exact .inr (.inl summary)
      · exact absurd member List.not_mem_nil

/-- What a part has come to is carried over if it is kept and returned another class, or none. -/
theorem mem_ownRules_of_kept (succeeds : (outer.outcome env).context = .ok out)
    (makes : outer.Makes env inner) (kept : inner.Kept env)
    (compiled : (inner.outcome env).context = .ok found) (differs : found ≠ some (env.objectOf out))
    (transfer
      : r ∈ transferRules outer.container.path (env.objectOf out) inner.container.id.text
          inner.container.path)
    : r ∈ outer.ownRules env := by
  have nested := nested_of_makes makes
  obtain ⟨new, pure, _⟩ := id makes
  obtain ⟨_, rfl, _⟩ := running_of_ok new pure nested succeeds
  rw [ownRules, if_neg new, if_pos nested]
  refine List.mem_append_left _ (List.mem_append_right _ (Progress.mem_transfers.mpr ?_))
  exact ⟨_, _, found, (mem_results new pure).mpr ⟨_, makes, kept, compiled, rfl, rfl⟩, differs,
    transfer⟩

/-- The status rules that a call adds are for the class that it returns. -/
theorem Decides.eq {object : String} (decides : outer.Decides env object)
    (succeeds : (outer.outcome env).context = .ok out)
    : env.objectOf out = object := by
  obtain ⟨r, member, isStatus, type⟩ := decides
  rcases mem_ownRules succeeds member with ⟨_, main⟩ | summary | ⟨_, _, _, _, _, _, transfer⟩
  · exact Option.some.inj ((Scope.mainRules_shape main).2.1.symm.trans type)
  · cases isStatus.symm.trans (aggregationRules_shape summary).2.1
  · cases isStatus.symm.trans (transferRules_shape transfer).2.2.1

/-- A section of sections is decided for the class that it returns. -/
theorem decides_of_makes (makes : outer.Makes env inner)
    (succeeds : (outer.outcome env).context = .ok out)
    : outer.Decides env (env.objectOf out) := by
  have nested := nested_of_makes makes
  obtain ⟨new, pure, _⟩ := makes
  obtain ⟨_, rfl, _⟩ := running_of_ok new pure nested succeeds
  rw [Decides, ownRules, if_neg new, if_pos nested]
  obtain ⟨q, listed, _⟩ := Scope.mainRules_decides .pass (.inr rfl)
  obtain ⟨_, type, isStatus, _⟩ := Scope.mainRules_shape listed
  exact ⟨q, List.mem_append_left _ (List.mem_append_left _ listed), isStatus, type⟩

end Call

/-! ### The calls of a document -/

/-- One of some sections is compiled, from the state that those before it have led to. -/
inductive TopCall (env : CompileEnv) : CompileState → List Container → Call → Prop
  | here {s c rest} : TopCall env s (c :: rest) ⟨c, none, none, s⟩
  | later {s : CompileState} {c : Container} {rest call}
    (isTop : TopCall env (c.compile env none none s).state rest call)
    : TopCall env s (c :: rest) call

section

variable {s : CompileState} {sections : List Container} {paths : List RulePath} {top : Call}

theorem topCall_cons_iff {c : Container}
    : TopCall env s (c :: sections) top
      ↔ top = ⟨c, none, none, s⟩ ∨ TopCall env (c.compile env none none s).state sections top := by
  constructor
  · intro isTop
    cases isTop with
    | here => exact .inl rfl
    | later isTop => exact .inr isTop
  · rintro (rfl | isTop)
    · exact .here
    · exact .later isTop

theorem TopCall.ok (isTop : TopCall env s sections top)
    (succeeds : (compileAll env s sections).2 = .ok paths)
    : ∃ out, (top.outcome env).context = .ok out := by
  induction isTop generalizing paths with
  | here =>
      obtain ⟨out, _, context, _⟩ := compileAll_cons succeeds
      exact ⟨out, context⟩
  | later _ ih =>
      obtain ⟨_, rest, _, run, _⟩ := compileAll_cons succeeds
      exact ih run

theorem TopCall.unmet (isTop : TopCall env s sections top)
    (unmet : Unmet s (sections.flatMap Container.ids))
    : Unmet top.state top.container.ids := by
  induction isTop with
  | here => exact unmet.left
  | @later s c _ _ _ ih => exact ih (unmet.right (c.compile_meetsOnly env none none s))

theorem exists_topCall {c : Container} (env : CompileEnv) (s : CompileState)
    (listed : c ∈ sections)
    : ∃ top, TopCall env s sections top ∧ top.container = c := by
  induction sections generalizing s with
  | nil => exact absurd listed List.not_mem_nil
  | cons first rest ih =>
      rcases List.mem_cons.mp listed with rfl | later
      · exact ⟨_, .here, rfl⟩
      · obtain ⟨top, isTop, same⟩ := ih (first.compile env none none s).state later
        exact ⟨top, .later isTop, same⟩

/-- The rules of sections are those that their calls have added. -/
theorem mem_rules_compileAll (succeeds : (compileAll env s sections).2 = .ok paths)
    : r ∈ (compileAll env s sections).1.rules
      ↔ r ∈ s.rules
        ∨ ∃ top inner,
          TopCall env s sections top ∧ top.Reaches env inner ∧ r ∈ inner.ownRules env := by
  induction sections generalizing s paths with
  | nil =>
      simp only [compileAll, iff_self_or]
      rintro ⟨_, _, isTop, _⟩
      cases isTop
  | cons c rest ih =>
      obtain ⟨out, others, context, run, moved⟩ := compileAll_cons succeeds
      have here := Call.mem_rules r ⟨c, none, none, s⟩ context
      simp only [Call.outcome] at here
      rw [moved, ih run, here]
      simp only [topCall_cons_iff]
      constructor
      · rintro ((before | ⟨inner, reaches, member⟩) | ⟨top, inner, isTop, rest⟩)
        · exact .inl before
        · exact .inr ⟨_, inner, .inl rfl, reaches, member⟩
        · exact .inr ⟨top, inner, .inr isTop, rest⟩
      · rintro (before | ⟨top, inner, rfl | isTop, reaches, member⟩)
        · exact .inl (.inl before)
        · exact .inl (.inr ⟨inner, reaches, member⟩)
        · exact .inr ⟨top, inner, isTop, reaches, member⟩

end

namespace Document

variable {document : Document} {rules : RuleSet} {call outer inner : Call}

/-- Compiling the document compiles this section in this way. -/
def Calls (document : Document) (env : CompileEnv) (call : Call) : Prop :=
  ∃ top, TopCall env {} document.sections top ∧ top.Reaches env call

theorem ok_of_calls (succeeds : (document.compile env).1 = .ok rules)
    (calls : document.Calls env call)
    : ∃ out, (call.outcome env).context = .ok out := by
  obtain ⟨top, isTop, reaches⟩ := calls
  obtain ⟨_, run, _⟩ := compile_ok succeeds
  obtain ⟨out, compiled⟩ := isTop.ok run
  exact reaches.ok compiled

theorem unmet_of_distinct (succeeds : (document.compile env).1 = .ok rules)
    (distinct : document.containerIds.Nodup)
    : Unmet {} (document.sections.flatMap Container.ids) :=
  ⟨containerIds_eq (valid_of_compile succeeds) ▸ distinct, fun _ _ => SortedSet.not_mem_empty⟩

theorem unmet_of_calls (succeeds : (document.compile env).1 = .ok rules)
    (distinct : document.containerIds.Nodup) (calls : document.Calls env call)
    : Unmet call.state call.container.ids := by
  obtain ⟨top, isTop, reaches⟩ := calls
  exact reaches.unmet (isTop.unmet (unmet_of_distinct succeeds distinct))

theorem exists_calls (succeeds : (document.compile env).1 = .ok rules)
    (distinct : document.containerIds.Nodup) {k : Container} (inside : k ∈ document.allSections)
    : ∃ call, document.Calls env call ∧ call.container = k := by
  obtain ⟨c, listed, inside⟩ := List.mem_flatMap.mp inside
  obtain ⟨top, isTop, rfl⟩ := exists_topCall env {} listed
  obtain ⟨_, run, _⟩ := compile_ok succeeds
  obtain ⟨out, compiled⟩ := isTop.ok run
  obtain ⟨call, reaches, same⟩ := Call.exists_reaches compiled
    (isTop.unmet (unmet_of_distinct succeeds distinct)) inside
  exact ⟨call, ⟨top, isTop, reaches⟩, same⟩

/-- The rules that record statuses come from the calls. -/
theorem mem_compile (succeeds : (document.compile env).1 = .ok rules)
    (phase : r.purpose.phase = .compute)
    : r ∈ rules ↔ ∃ call, document.Calls env call ∧ r ∈ call.ownRules env := by
  obtain ⟨paths, run, same⟩ := compile_ok succeeds
  have other : r ∉ documentRules document.path paths :=
    fun final => by cases phase.symm.trans (documentRules_shape final).2
  rw [same, mem_rules_compileAll run]
  simp only [SortedSet.not_mem_empty, false_or, other, and_false, or_false]
  constructor
  · rintro ⟨top, call, isTop, reaches, member⟩
    exact ⟨call, ⟨top, isTop, reaches⟩, member⟩
  · rintro ⟨call, ⟨top, isTop, reaches⟩, member⟩
    exact ⟨top, call, isTop, reaches, member⟩

/-- In a document without duplicates every section is compiled, and so is every part of it when it
is; the status rules are those that these calls add. Where a section and a part of it that it keeps
are decided for different classes, the three rules that carry the result of the part over are
there, as `mem_transferRules` lists them. Every rule that carries a result over is one of those for
such a part which returned no class or another one than that of the section.
-/
theorem compile_transfers (succeeds : (document.compile env).1 = .ok rules)
    (distinct : document.containerIds.Nodup)
    : (∀ k ∈ document.allSections, ∃ call, document.Calls env call ∧ call.container = k)
      ∧ (∀ outer, document.Calls env outer →
        ∀ k ∈ outer.container.parts, ∃ inner, outer.Makes env inner ∧ inner.container = k)
      ∧ (∀ r, r.purpose.isStatus = true →
        (r ∈ rules ↔ ∃ call, document.Calls env call ∧ r ∈ call.ownRules env))
      ∧ (∀ outer inner whole part,
        document.Calls env outer → outer.Makes env inner → inner.Kept env →
        outer.Decides env whole → inner.Decides env part → part ≠ whole →
        ∀ r ∈ transferRules outer.container.path whole inner.container.id.text
            inner.container.path,
          r ∈ rules)
      ∧ ∀ r ∈ rules, r.purpose.isTransfer = true →
        ∃ outer inner whole found,
          document.Calls env outer ∧ outer.Makes env inner ∧ inner.Kept env
          ∧ outer.Decides env whole ∧ (inner.outcome env).context = .ok found
          ∧ found ≠ some whole
          ∧ r ∈ transferRules outer.container.path whole inner.container.id.text
              inner.container.path := by
  refine ⟨fun k inside => exists_calls succeeds distinct inside, fun outer calls k listed => ?_,
    fun r isStatus => mem_compile succeeds (Purpose.phase_of_isStatus isStatus), ?_, ?_⟩
  · obtain ⟨out, compiled⟩ := ok_of_calls succeeds calls
    exact Call.exists_makes compiled (unmet_of_calls succeeds distinct calls) listed
  · intro outer inner whole part calls makes kept wholeDecides partDecides differs r transfer
    obtain ⟨out, compiled⟩ := ok_of_calls succeeds calls
    obtain ⟨found, returned⟩ := makes.ok compiled
    obtain rfl := wholeDecides.eq compiled
    -- The class that the part returns would be that of its rules.
    have carried : found ≠ some (env.objectOf out) := by
      rintro rfl
      exact differs (partDecides.eq returned).symm
    have phase := Purpose.phase_of_isTransfer (transferRules_shape transfer).2.2.2.1
    exact (mem_compile succeeds phase).mpr
      ⟨outer, calls, Call.mem_ownRules_of_kept compiled makes kept returned carried transfer⟩
  · intro r member isTransfer
    obtain ⟨outer, calls, own⟩ :=
      (mem_compile succeeds (Purpose.phase_of_isTransfer isTransfer)).mp member
    obtain ⟨out, compiled⟩ := ok_of_calls succeeds calls
    rcases Call.mem_ownRules compiled own with
      ⟨_, main⟩ | summary | ⟨inner, found, makes, kept, returned, differs, transfer⟩
    · have isStatus := (Scope.mainRules_shape main).2.2.1
      cases isTransfer.symm.trans (Purpose.not_isTransfer isStatus)
    · cases isTransfer.symm.trans (aggregationRules_shape summary).2.2.1
    · exact ⟨outer, inner, _, found, calls, makes, kept, Call.decides_of_makes makes compiled,
        returned, differs, transfer⟩

/-- The section with the stray tag is compiled first. -/
def strayCall : Call := ⟨strayWidth, none, none, {}⟩

/-- The section made of the stray tag has the first turn in it. -/
def strayTagCall : Call where
  container := strayWidth.parts.headD strayWidth
  context := none
  ancestor := some strayWidth.path
  state := ({} : CompileState).visit strayWidth.id

theorem strayCall_makes : strayCall.Makes DocumentEntry.openings strayTagCall := by
  let start : Progress := { state := strayTagCall.state, context := none }
  have turns : ∃ rest, strayWidth.turns = strayTagCall.container :: rest := ⟨_, rfl⟩
  have turn
      : Progress.Turn DocumentEntry.openings strayWidth.path start strayWidth.turns
          strayTagCall.container start := by
    obtain ⟨rest, turns⟩ := turns
    rw [turns]
    exact .here rfl
  have pure : strayWidth.mixedContent? = none := by decide +kernel
  exact .part (k := strayTagCall.container) (q := start) SortedSet.not_mem_empty pure turn

/-- What is found out about doors is carried over to buildings. -/
theorem compile_transfers_stray
    : ∃ rules,
        (strayDocument.compile DocumentEntry.openings).1 = .ok rules
        ∧ strayDocument.containerIds.Nodup
        ∧ strayDocument.Calls DocumentEntry.openings strayCall
        ∧ strayCall.Makes DocumentEntry.openings strayTagCall
        ∧ strayTagCall.Kept DocumentEntry.openings
        ∧ strayCall.Decides DocumentEntry.openings "Building"
        ∧ strayTagCall.Decides DocumentEntry.openings "door"
        ∧ ∀ r ∈ transferRules strayCall.container.path "Building"
              strayTagCall.container.id.text strayTagCall.container.path,
            r ∈ rules := by
  have succeeds : (strayDocument.compile DocumentEntry.openings).1.isOk = true := by
    decide +kernel
  have distinct : strayDocument.containerIds.Nodup := by decide +kernel
  have calls : strayDocument.Calls DocumentEntry.openings strayCall := ⟨strayCall, .here, .refl⟩
  have kept : strayTagCall.Kept DocumentEntry.openings := by decide +kernel
  have whole : strayCall.Decides DocumentEntry.openings "Building" := by decide +kernel
  have part : strayTagCall.Decides DocumentEntry.openings "door" := by decide +kernel
  cases compiled : (strayDocument.compile DocumentEntry.openings).1 with
  | error e => exact absurd (compiled ▸ succeeds) nofun
  | ok rules =>
      obtain ⟨_, _, _, carried, _⟩ := compile_transfers compiled distinct
      have differs : "door" ≠ "Building" := by decide
      exact ⟨rules, rfl, distinct, calls, strayCall_makes, kept, whole, part,
        carried strayCall strayTagCall _ _ calls strayCall_makes kept whole part differs⟩

end Document

end ClauseRules
