import ClauseRules.Proofs.Compile.Derivation
import ClauseRules.Proofs.Compile.Growth
import Mathlib.Data.List.Nodup

/-! The children of a section are compiled in passes, one for each kind. Together the passes compile
every child once, and each finds the state that those before it have left.
-/

namespace ClauseRules

/-- A state has come to know no sections but the given ones, and exactly the given rules. -/
structure Gain (s t : CompileState) (ids : List NodeId) (rules : List Rule) : Prop where
  visited : ∀ id, id ∈ t.visited → id ∈ s.visited ∨ id ∈ ids
  rules : ∀ r, r ∈ t.rules ↔ r ∈ s.rules ∨ r ∈ rules

namespace Gain

variable {s t u : CompileState} {ids more : List NodeId} {rules added : List Rule}

theorem refl : Gain s s [] [] := ⟨fun _ known => .inl known, by simp⟩

theorem trans (first : Gain s t ids rules) (second : Gain t u more added)
    : Gain s u (ids ++ more) (rules ++ added) where
  visited id known := by
    rcases second.visited id known with before | new
    · exact (first.visited id before).imp_right (List.mem_append_left more)
    · exact .inr (List.mem_append_right ids new)
  rules r := by rw [second.rules, first.rules, List.mem_append, or_assoc]

theorem warn {warnings : List Warning} : Gain s (s.warn warnings) [] [] :=
  ⟨fun _ known => .inl known, by simp [CompileState.warn]⟩

theorem visit {id : NodeId} : Gain s (s.visit id) [id] [] where
  visited other known := by simpa [CompileState.visit, or_comm] using known
  rules := by simp [CompileState.visit]

theorem addRules : Gain s (s.addRules rules) [] rules where
  visited _ known := .inl known
  rules := by simp [CompileState.addRules, or_comm]

/-- How often and in which order something was gained is of no importance. -/
theorem of_subset (gain : Gain s t ids rules) (visited : ∀ id ∈ ids, id ∈ more)
    (same : ∀ r, r ∈ rules ↔ r ∈ added)
    : Gain s t more added where
  visited id known := (gain.visited id known).imp_right (visited id)
  rules r := by rw [gain.rules, same]

end Gain

/-- Between two states, the sections are met once and for the first time, except for those that may
repeat and those that are not met at all.
-/
def Fresh (repeats : NodeId → Prop) (s t : CompileState) (ids : List NodeId) : Prop :=
  ∀ id ∈ ids, id ∈ t.visited → ¬repeats id → ids.count id = 1 ∧ id ∉ s.visited

namespace Fresh

variable {repeats : NodeId → Prop} {s t u : CompileState} {ids more : List NodeId}
  {rules : List Rule}

theorem left (fresh : Fresh repeats s u (ids ++ more)) (grows : Grows t u)
    : Fresh repeats s t ids := by
  intro id member met unrepeated
  obtain ⟨once, new⟩ :=
    fresh id (List.mem_append_left _ member) (grows.visited id met) unrepeated
  have here : 0 < ids.count id := List.count_pos_iff.mpr member
  rw [List.count_append] at once
  exact ⟨by omega, new⟩

/-- Compiling some sections leaves the others to be met for the first time. -/
theorem right (fresh : Fresh repeats s u (ids ++ more)) (gain : Gain s t ids rules)
    : Fresh repeats t u more := by
  intro id member met unrepeated
  obtain ⟨once, new⟩ := fresh id (List.mem_append_right _ member) met unrepeated
  have there : 0 < more.count id := List.count_pos_iff.mpr member
  rw [List.count_append] at once
  refine ⟨by omega, fun known => ?_⟩
  rcases gain.visited id known with before | compiled
  · exact new before
  · have here : 0 < ids.count id := List.count_pos_iff.mpr compiled
    omega

theorem perm (fresh : Fresh repeats s t ids) (same : ids.Perm more) : Fresh repeats s t more := by
  intro id member met unrepeated
  rw [← same.count_eq]
  exact fresh id (same.mem_iff.mpr member) met unrepeated

/-- Sections that are met once and for the first time are so wherever some may repeat. -/
theorem of_nodup (distinct : ids.Nodup) (new : ∀ id ∈ ids, id ∉ s.visited)
    : Fresh repeats s t ids :=
  fun id member _ _ => ⟨List.count_eq_one_of_mem distinct member, new id member⟩

end Fresh

/-- Wherever the compiler of a section succeeds, the outcome has a derivation. -/
def SectionCompiler.Derives (compile : SectionCompiler) (env : CompileEnv)
    (repeats : NodeId → Prop) (c : Container) : Prop :=
  ∀ context ancestor s out,
    (compile context ancestor s).context = .ok out
      → Fresh repeats s (compile context ancestor s).state c.ids
      → ∃ rules,
          Compiles env repeats ancestor context c
            ⟨(compile context ancestor s).container, out, rules⟩
          ∧ Gain s (compile context ancestor s).state c.ids rules

/-! ### One pass -/

/-- How compiling some sections moves the progress on. -/
structure Advance (p q : Progress) (parts : List CompiledPart) : Prop where
  failure : q.failure = none
  context : q.context = CompiledPart.contextAfter p.context parts
  entered : CompiledPart.Entered p.context parts
  operands
    : q.operands
      = p.operands.addAll (·.kind) (Operand.ofContainer ·.left) (CompiledPart.operands parts)
  results
    : q.results
      = p.results
        ++ (CompiledPart.operands parts).map fun part =>
          (part.left.id, part.left.path, part.context)
  gain : Gain p.state q.state (parts.flatMap (·.origin.ids)) (parts.flatMap (·.rules))

namespace Advance

variable {p q r : Progress} {parts more : List CompiledPart}

theorem refl (running : p.failure = none) : Advance p p [] where
  failure := running
  context := rfl
  entered := trivial
  operands := rfl
  results := by simp [CompiledPart.operands]
  gain := .refl

theorem trans (first : Advance p q parts) (second : Advance q r more)
    : Advance p r (parts ++ more) where
  failure := second.failure
  context := by rw [second.context, first.context, CompiledPart.contextAfter_append]
  entered := CompiledPart.entered_append.mpr ⟨first.entered, first.context ▸ second.entered⟩
  operands := by
    rw [second.operands, first.operands, CompiledPart.operands, CompiledPart.operands,
      CompiledPart.operands, List.filter_append, Operands.addAll_append]
  results := by simp [second.results, first.results, CompiledPart.operands]
  gain := by simpa using first.gain.trans second.gain

/-- Taking over the outcome for a child is an advance by that child. -/
theorem add {part : CompiledPart} {compiled : Compiled} (running : p.failure = none)
    (left : compiled.container = part.left) (context : compiled.context = .ok part.context)
    (entered : part.entered = p.context)
    (gain : Gain p.state compiled.state part.origin.ids part.rules)
    : Advance p (p.add compiled) [part] := by
  have spent : part.isSpent = (part.left.kind == .application && part.left.isEmpty) := rfl
  have kind : part.kind = part.left.kind := rfl
  constructor <;>
    simp only [Progress.add, context, left, CompiledPart.contextAfter, CompiledPart.Entered,
      CompiledPart.operands, CompiledPart.passOn, List.foldl_cons, List.foldl_nil, List.filter_cons,
      List.filter_nil, spent, kind, entered, and_self]
  all_goals
    cases part.left.kind == Kind.application <;> cases part.left.isEmpty <;>
      simp [running, Operands.addAll, kind, gain]

end Advance

/-- A pass puts what is left of the sections of its kind in their places. -/
inductive Fills (kind : Kind) : List Child → List CompiledPart → List Child → Prop
  | nil : Fills kind [] [] []
  | skip {child children parts filled} (other : child.container.kind ≠ kind)
    (rest : Fills kind children parts filled)
    : Fills kind (child :: children) parts (child :: filled)
  | fill {child children parts filled} {part : CompiledPart} (same : child.container.kind = kind)
    (origin : part.origin = child.container) (left : part.left.kind = kind)
    (rest : Fills kind children parts filled)
    : Fills kind (child :: children) (part :: parts)
      ({ child with container := part.left } :: filled)

namespace Fills

variable {kind : Kind} {children filled : List Child} {parts : List CompiledPart}

/-- A pass touches the sections of its kind only. -/
theorem filter_eq (fills : Fills kind children parts filled) {other : Kind} (differs : other ≠ kind)
    : filled.filter (·.container.kind == other) = children.filter (·.container.kind == other) := by
  induction fills with
  | nil => rfl
  | skip _ _ ih => simp [List.filter_cons, ih]
  | fill same _ left _ ih => simp [same, left, differs.symm, ih]

theorem mem_of_other (fills : Fills kind children parts filled) {child : Child}
    (member : child ∈ filled) (other : child.container.kind ≠ kind)
    : child ∈ children := by
  have listed : child ∈ filled.filter (·.container.kind == child.container.kind) := by
    simp [member]
  rw [fills.filter_eq other] at listed
  exact (List.mem_filter.mp listed).1

theorem origins (fills : Fills kind children parts filled)
    : parts.map (·.origin)
      = (children.filter (·.container.kind == kind)).map (·.container) := by
  induction fills with
  | nil => rfl
  | skip other _ ih => simp [other, ih]
  | fill same origin _ _ ih => simp [same, origin, ih]

theorem ids_eq (fills : Fills kind children parts filled)
    : parts.flatMap (·.origin.ids)
      = (children.filter (·.container.kind == kind)).flatMap (·.container.ids) := by
  have same := congrArg (List.flatMap Container.ids) fills.origins
  simpa only [List.flatMap_map] using same

theorem of_cons_other {child : Child} (fills : Fills kind (child :: children) parts filled)
    (other : child.container.kind ≠ kind)
    : ∃ rest, filled = child :: rest ∧ Fills kind children parts rest := by
  cases fills with
  | skip _ rest => exact ⟨_, rfl, rest⟩
  | fill same => exact absurd same other

theorem of_cons_same {child : Child} (fills : Fills kind (child :: children) parts filled)
    (same : child.container.kind = kind)
    : ∃ part more rest,
        parts = part :: more ∧ filled = { child with container := part.left } :: rest
        ∧ part.origin = child.container ∧ part.left.kind = kind
        ∧ Fills kind children more rest := by
  cases fills with
  | skip other => exact absurd same other
  | fill _ origin left rest => exact ⟨_, _, _, rfl, rfl, origin, left, rest⟩

/-- Four passes, with the spent applications taken out after the first, come to one outcome for
every child, in the order of the children.
-/
theorem exists_parts {children d1 d2 d3 d4 : List Child} {as ss es rs : List CompiledPart}
    (applied : Fills .application children as d1)
    (selected : Fills .selection (d1.filter (!·.isSpent)) ss d2)
    (excepted : Fills .exception d2 es d3)
    (required : Fills .requirement d3 rs d4)
    : ∃ parts : List CompiledPart,
        parts.map (·.origin) = children.map (·.container)
        ∧ d4.map (·.container) = (CompiledPart.operands parts).map (·.left)
        ∧ parts.filter (·.kind == .application) = as
        ∧ parts.filter (·.kind == .selection) = ss
        ∧ parts.filter (·.kind == .exception) = es
        ∧ parts.filter (·.kind == .requirement) = rs := by
  -- By induction on the children: the pass of its kind fills in a child, and no other touches it.
  induction children generalizing d1 d2 d3 d4 as ss es rs with
  | nil =>
      cases applied
      cases selected
      cases excepted
      cases required
      exact ⟨[], rfl, rfl, rfl, rfl, rfl, rfl⟩
  | cons child children ih =>
      cases same : child.container.kind with
      | application =>
          obtain ⟨part, as, d1, rfl, rfl, origin, left, applications⟩ :=
            applied.of_cons_same same
          have kind : part.kind = .application := left
          have sameSpent : Child.isSpent { child with container := part.left } = part.isSpent := rfl
          cases spent : part.isSpent with
          | true =>
              -- The later passes do not meet the child any more.
              rw [List.filter_cons_of_neg (by simp [sameSpent, spent])] at selected
              obtain ⟨parts, origins, operands, ofKinds⟩ :=
                ih applications selected excepted required
              refine ⟨part :: parts, by simp [origin, origins], ?_, ?_⟩
              · simpa [CompiledPart.operands, spent] using operands
              · simpa [kind] using ofKinds
          | false =>
              rw [List.filter_cons_of_pos (by simp [sameSpent, spent])] at selected
              obtain ⟨d2, rfl, selections⟩ := selected.of_cons_other (by simp [left])
              obtain ⟨d3, rfl, exceptions⟩ := excepted.of_cons_other (by simp [left])
              obtain ⟨d4, rfl, requirements⟩ := required.of_cons_other (by simp [left])
              obtain ⟨parts, origins, operands, ofKinds⟩ :=
                ih applications selections exceptions requirements
              refine ⟨part :: parts, by simp [origin, origins], ?_, ?_⟩
              · simpa [CompiledPart.operands, spent] using operands
              · simpa [kind] using ofKinds
      | selection =>
          obtain ⟨d1, rfl, applications⟩ := applied.of_cons_other (by simp [same])
          rw [List.filter_cons_of_pos (by simp [Child.isSpent, same])] at selected
          obtain ⟨part, ss, d2, rfl, rfl, origin, left, selections⟩ :=
            selected.of_cons_same same
          obtain ⟨d3, rfl, exceptions⟩ := excepted.of_cons_other (by simp [left])
          obtain ⟨d4, rfl, requirements⟩ := required.of_cons_other (by simp [left])
          have kind : part.kind = .selection := left
          obtain ⟨parts, origins, operands, ofKinds⟩ :=
            ih applications selections exceptions requirements
          refine ⟨part :: parts, by simp [origin, origins], ?_, ?_⟩
          · simpa [CompiledPart.operands, CompiledPart.isSpent, kind] using operands
          · simpa [kind] using ofKinds
      | exception =>
          obtain ⟨d1, rfl, applications⟩ := applied.of_cons_other (by simp [same])
          rw [List.filter_cons_of_pos (by simp [Child.isSpent, same])] at selected
          obtain ⟨d2, rfl, selections⟩ := selected.of_cons_other (by simp [same])
          obtain ⟨part, es, d3, rfl, rfl, origin, left, exceptions⟩ :=
            excepted.of_cons_same same
          obtain ⟨d4, rfl, requirements⟩ := required.of_cons_other (by simp [left])
          have kind : part.kind = .exception := left
          obtain ⟨parts, origins, operands, ofKinds⟩ :=
            ih applications selections exceptions requirements
          refine ⟨part :: parts, by simp [origin, origins], ?_, ?_⟩
          · simpa [CompiledPart.operands, CompiledPart.isSpent, kind] using operands
          · simpa [kind] using ofKinds
      | requirement =>
          obtain ⟨d1, rfl, applications⟩ := applied.of_cons_other (by simp [same])
          rw [List.filter_cons_of_pos (by simp [Child.isSpent, same])] at selected
          obtain ⟨d2, rfl, selections⟩ := selected.of_cons_other (by simp [same])
          obtain ⟨d3, rfl, exceptions⟩ := excepted.of_cons_other (by simp [same])
          obtain ⟨part, rs, d4, rfl, rfl, origin, left, requirements⟩ :=
            required.of_cons_same same
          have kind : part.kind = .requirement := left
          obtain ⟨parts, origins, operands, ofKinds⟩ :=
            ih applications selections exceptions requirements
          refine ⟨part :: parts, by simp [origin, origins], ?_, ?_⟩
          · simpa [CompiledPart.operands, CompiledPart.isSpent, kind] using operands
          · simpa [kind] using ofKinds

end Fills

section

variable {env : CompileEnv} {repeats : NodeId → Prop} {path : RulePath} {kind : Kind} {p : Progress}
  {children : List Child}

theorem compileKind_of_failure (failed : p.failure.isNone = false)
    : compileKind path kind p children = (p, children) := by
  induction children with
  | nil => rfl
  | cons child rest ih => rw [compileKind_cons_of_false (by simp [failed]), ih]

/-- A pass that does not fail compiles every section of its kind. -/
theorem compileKind_derives (running : p.failure = none)
    (succeeds : (compileKind path kind p children).1.failure = none)
    (derives
      : ∀ child ∈ children, child.container.kind = kind →
          child.compile.Derives env repeats child.container)
    (growing : ∀ child ∈ children, child.compile.Growing)
    (fresh
      : Fresh repeats p.state (compileKind path kind p children).1.state
        ((children.filter (·.container.kind == kind)).flatMap (·.container.ids)))
    : ∃ parts,
        Fills kind children parts (compileKind path kind p children).2
        ∧ Advance p (compileKind path kind p children).1 parts
        ∧ ∀ part ∈ parts,
            Compiles env repeats (some path) part.entered part.origin part.toYield := by
  induction children generalizing p with
  | nil => exact ⟨[], .nil, .refl running, by simp⟩
  | cons child rest ih =>
      have ⟨derivesHere, derivesRest⟩ := List.forall_mem_cons.mp derives
      have ⟨_, growingRest⟩ := List.forall_mem_cons.mp growing
      by_cases same : child.container.kind = kind
      · rw [compileKind_cons_of_true (by simp [same, running])] at succeeds fresh ⊢
        simp only [List.filter_cons, same, beq_self_eq_true, if_true, List.flatMap_cons] at fresh
        cases context : (child.compile p.context (some path) p.state).context with
        | error e =>
            have failed
                : (p.add (child.compile p.context (some path) p.state)).failure = some e := by
              simp [Progress.add, context]
            rw [compileKind_of_failure (by simp [failed]), failed] at succeeds
            cases succeeds
        | ok out =>
            have grows
                : Grows (p.add (child.compile p.context (some path) p.state)).state
                    (compileKind path kind (p.add (child.compile p.context (some path) p.state))
                      rest).1.state :=
              compileKind_grows rfl growingRest
            rw [state_add] at grows
            obtain ⟨rules, compiles, gain⟩ :=
              derivesHere same _ _ _ _ context (fresh.left grows)
            -- The child is compiled for the context that those before it have led to.
            let part : CompiledPart :=
              { left := (child.compile p.context (some path) p.state).container
                context := out
                rules := rules
                origin := child.container
                entered := p.context }
            have advance
                : Advance p (p.add (child.compile p.context (some path) p.state)) [part] :=
              .add running rfl context rfl gain
            have freshRest := fresh.right (by simpa [part] using advance.gain)
            obtain ⟨parts, fills, more, below⟩ :=
              ih advance.failure succeeds derivesRest growingRest freshRest
            refine ⟨part :: parts, ?_, advance.trans more, ?_⟩
            · exact .fill same rfl (compiles.kind_eq.trans same) fills
            · exact List.forall_mem_cons.mpr ⟨compiles, below⟩
      · rw [compileKind_cons_of_false (by simp [same])] at succeeds fresh ⊢
        simp only [List.filter_cons, same, beq_iff_eq, if_false] at fresh
        obtain ⟨parts, fills, advance, below⟩ :=
          ih running succeeds derivesRest growingRest fresh
        exact ⟨parts, .skip same fills, advance, below⟩

theorem failure_of_compileKind (succeeds : (compileKind path kind p children).1.failure = none)
    : p.failure = none := by
  cases failed : p.failure with
  | none => rfl
  | some e =>
      rw [compileKind_of_failure (by simp [failed]), failed] at succeeds
      exact succeeds

/-- A pass leaves the sections of later passes to be met for the first time. -/
theorem exists_pass {q : Progress} {filled : List Child} {u : CompileState} {more : List NodeId}
    (run : compileKind path kind p children = (q, filled))
    (running : p.failure = none) (succeeds : q.failure = none)
    (derives
      : ∀ child ∈ children, child.container.kind = kind →
          child.compile.Derives env repeats child.container)
    (growing : ∀ child ∈ children, child.compile.Growing) (later : Grows q.state u)
    (fresh
      : Fresh repeats p.state u
        ((children.filter (·.container.kind == kind)).flatMap (·.container.ids) ++ more))
    : ∃ parts,
        Fills kind children parts filled ∧ Advance p q parts ∧ Fresh repeats q.state u more
        ∧ ∀ part ∈ parts,
            Compiles env repeats (some path) part.entered part.origin part.toYield := by
  obtain ⟨parts, fills, advance, below⟩ :=
    compileKind_derives running (by rw [run]; exact succeeds) derives growing
      (by rw [run]; exact fresh.left later)
  rw [run] at fills advance
  exact ⟨parts, fills, advance, fresh.right (fills.ids_eq ▸ advance.gain), below⟩

theorem filter_not_isSpent (other : kind ≠ .application)
    : (children.filter (!·.isSpent)).filter (·.container.kind == kind)
      = children.filter (·.container.kind == kind) := by
  rw [List.filter_filter]
  refine List.filter_congr fun child _ => ?_
  cases same : child.container.kind == kind with
  | false => rfl
  | true =>
      rw [beq_iff_eq] at same
      simp [Child.isSpent, same, other]

/-- The passes compile every child, unless one fails. -/
theorem compileKinds_derives (running : p.failure = none)
    (succeeds : (compileKinds path p children).1.failure = none)
    (derives : ∀ child ∈ children, child.compile.Derives env repeats child.container)
    (growing : ∀ child ∈ children, child.compile.Growing)
    (fresh
      : Fresh repeats p.state (compileKinds path p children).1.state
        (children.flatMap (·.container.ids)))
    : ∃ parts : List CompiledPart,
        parts.map (·.origin) = children.map (·.container)
        ∧ (compileKinds path p children).2.map (·.container)
          = (CompiledPart.operands parts).map (·.left)
        ∧ Advance p (compileKinds path p children).1 (Kind.sort (·.kind) parts)
        ∧ ∀ part ∈ parts,
            Compiles env repeats (some path) part.entered part.origin part.toYield := by
  rcases first : compileKind path .application p children with ⟨p1, d1⟩
  rcases second : compileKind path .selection p1 (d1.filter (!·.isSpent)) with ⟨p2, d2⟩
  rcases third : compileKind path .exception p2 d2 with ⟨p3, d3⟩
  rcases fourth : compileKind path .requirement p3 d3 with ⟨p4, d4⟩
  -- Where the last pass did not fail, no pass before it did.
  simp only [compileKinds, first] at succeeds fresh ⊢
  have running1 := failure_of_compileKind
    (failure_of_compileKind (failure_of_compileKind succeeds))
  simp only [running1, Option.isNone_none, if_true, second] at succeeds fresh ⊢
  have running2 := failure_of_compileKind (failure_of_compileKind succeeds)
  simp only [third] at succeeds fresh ⊢
  have running3 := failure_of_compileKind succeeds
  simp only [fourth] at succeeds fresh ⊢
  have growing1 := forall_compile_of_pass (·.Growing) first growing
  have growingKept : ∀ child ∈ d1.filter (!·.isSpent), child.compile.Growing :=
    fun child member => growing1 child (List.mem_filter.mp member).1
  have growing2 := forall_compile_of_pass (·.Growing) second growingKept
  have growing3 := forall_compile_of_pass (·.Growing) third growing2
  have later3 := compileKind_grows fourth growing3
  have later2 := (compileKind_grows third growing2).trans later3
  have later1 := (compileKind_grows second growingKept).trans later2
  have sorted
      : (children.flatMap (·.container.ids)).Perm
        ((Kind.sort (·.container.kind) children).flatMap (·.container.ids)) :=
    Kind.sort_perm.symm.flatMap_right _
  have fresh := fresh.perm sorted
  simp only [Kind.sort_eq, List.flatMap_append, List.append_assoc] at fresh
  obtain ⟨as, applied, advance1, fresh1, below1⟩ :=
    exists_pass first running running1 (fun child member _ => derives child member) growing later1
      fresh
  -- What a later pass compiles, no earlier pass has touched.
  have untouched {k : Kind} (other : k ≠ .application)
      : (d1.filter (!·.isSpent)).filter (·.container.kind == k)
        = children.filter (·.container.kind == k) :=
    (filter_not_isSpent other).trans (applied.filter_eq other)
  have derives1 (child : Child) (member : child ∈ d1.filter (!·.isSpent))
      (other : child.container.kind ≠ .application)
      : child.compile.Derives env repeats child.container :=
    derives child (applied.mem_of_other (List.mem_filter.mp member).1 other)
  rw [← untouched (k := .selection) (by decide)] at fresh1
  obtain ⟨ss, selected, advance2, fresh2, below2⟩ :=
    exists_pass second running1 running2
      (fun child member same => derives1 child member (by simp [same])) growingKept later2 fresh1
  have derives2 (child : Child) (member : child ∈ d2) (early : child.container.kind ≠ .application)
      (other : child.container.kind ≠ .selection)
      : child.compile.Derives env repeats child.container :=
    derives1 child (selected.mem_of_other member other) early
  have left2 := selected.filter_eq (show Kind.exception ≠ .selection by decide)
  rw [← untouched (k := .exception) (by decide), ← left2] at fresh2
  obtain ⟨es, excepted, advance3, fresh3, below3⟩ :=
    exists_pass third running2 running3
      (fun child member same => derives2 child member (by simp [same]) (by simp [same])) growing2
      later3 fresh2
  have left3 := (excepted.filter_eq (show Kind.requirement ≠ .exception by decide)).trans
    (selected.filter_eq (by decide))
  rw [← untouched (k := .requirement) (by decide), ← left3, ← List.append_nil (List.flatMap _ _)]
    at fresh3
  obtain ⟨rs, required, advance4, _, below4⟩ :=
    exists_pass fourth running3 succeeds
      (fun child member same =>
        derives2 child (excepted.mem_of_other member (by simp [same])) (by simp [same])
          (by simp [same]))
      growing3 .refl fresh3
  obtain ⟨parts, origins, operands, rfl, rfl, rfl, rfl⟩ :=
    Fills.exists_parts applied selected excepted required
  have advance := ((advance1.trans advance2).trans advance3).trans advance4
  rw [← Kind.sort_eq] at advance
  refine ⟨parts, origins, operands, advance, fun part member => ?_⟩
  have listed : part ∈ Kind.sort (·.kind) parts := Kind.mem_sort.mpr member
  rw [Kind.sort_eq] at listed
  simp only [List.mem_append] at listed
  rcases listed with ((listed | listed) | listed) | listed
  · exact below1 part listed
  · exact below2 part listed
  · exact below3 part listed
  · exact below4 part listed

end

end ClauseRules
