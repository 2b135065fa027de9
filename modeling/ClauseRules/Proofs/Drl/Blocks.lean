import ClauseRules.Config
import ClauseRules.Proofs.Document.Unbroken
import Mathlib.Algebra.Order.BigOperators.Group.List
import Mathlib.Algebra.Order.Group.Nat

/-! Rule files line by line. Every rule is a block of lines, which starts with an empty one and ends
with the only line `end` in it, as long as no text in the rules has a line feed. Values of tags with
line feeds are written as they are and break their line, even though quotes in them are escaped.
-/

namespace ClauseRules

open Text (IsLine)

theorem Sha256.isLine_text (s : State) : IsLine s.text := by
  have digit (n : Nat) : '\n' ≠ Text.hexDigit (n % 16) := by
    have all : ∀ i < 16, '\n' ≠ Text.hexDigit i := by decide
    exact all _ (Nat.mod_lt _ (by decide))
  rw [State.text, Text.isLine_ofList, List.mem_flatMap]
  rintro ⟨w, _, member⟩
  obtain ⟨i, _, same⟩ := List.mem_map.mp member
  exact digit _ same.symm

namespace Drl

/-- The lines of a rule after an empty one: its name, its conditions and what it does. -/
def IsBlock (lines : List String) : Prop :=
  ∃ head conditions action,
    lines = ["", head, "when"] ++ conditions ++ ["then", action, "end"]
    ∧ head.startsWith "rule" = true ∧ conditions ≠ []
    ∧ ∀ line ∈ action :: conditions, line.startsWith "\t" = true

theorem IsBlock.count_end {lines : List String} (block : IsBlock lines)
    : lines.count "end" = 1 := by
  obtain ⟨head, conditions, action, rfl, named, _, indented⟩ := block
  have absent : "end" ∉ head :: action :: conditions := by
    intro member
    rcases List.mem_cons.mp member with rfl | member
    · simp at named
    · simpa using indented _ member
  simp only [List.mem_cons, not_or] at absent
  obtain ⟨first, last, others⟩ := absent
  simp [List.count_eq_zero.mpr others, Ne.symm first, Ne.symm last]

/-- A rule without line feeds is written as a block of single lines. -/
theorem exists_block {r : Rule} (expressible : r.Expressible) (unbroken : r.Unbroken)
    (type : ∀ object, r.entityType = some object → IsLine object)
    : ∃ lines,
        ruleLines r = .ok lines ∧ IsBlock ("" :: lines) ∧ ∀ line ∈ "" :: lines, IsLine line := by
  obtain ⟨conditions, action, left, some, right, written⟩ := expressible.exists_ruleLines
  refine ⟨_, written, ⟨_, conditions.map ("\t" ++ ·), "\t" ++ action, rfl, ?_, ?_, ?_⟩, ?_⟩
  · simp
  · simpa using some
  · simp
  · exact List.forall_mem_cons.mpr ⟨by decide, isLine_block unbroken type left right⟩

theorem count_end_flatten {blocks : List (List String)} (each : ∀ block ∈ blocks, IsBlock block)
    : blocks.flatten.count "end" = blocks.length := by
  have once : blocks.map (List.count "end") = blocks.map fun _ => 1 :=
    List.map_congr_left fun block listed => (each block listed).count_end
  rw [List.count_flatten, once]
  simp

theorem isLine_header (rules : RuleSet)
    : ∀ line ∈ ("// fingerprint: " ++ rules.fingerprint) :: defaultImports, IsLine line := by
  refine List.forall_mem_cons.mpr ⟨?_, by decide⟩
  exact Text.isLine_append.mpr ⟨by decide, Sha256.isLine_text _⟩

theorem count_end_header (rules : RuleSet)
    : (("// fingerprint: " ++ rules.fingerprint) :: defaultImports).count "end" = 0 := by
  have differs : "// fingerprint: " ++ rules.fingerprint ≠ "end" := by
    intro same
    simpa using congrArg (·.toList.head?) same
  rw [List.count_cons_of_ne differs]
  decide

/-! ### Texts inside of others -/

theorem infix_append {cs : List Char} {a b : String}
    (inside : cs <:+: a.toList ∨ cs <:+: b.toList)
    : cs <:+: (a ++ b).toList := by
  rw [String.toList_append]
  rcases inside with left | right
  · exact left.trans (List.prefix_append _ _).isInfix
  · exact right.trans (List.suffix_append _ _).isInfix

theorem infix_intercalate {separator text : String} {texts : List String} (member : text ∈ texts)
    : text.toList <:+: (separator.intercalate texts).toList := by
  induction texts with
  | nil => exact absurd member List.not_mem_nil
  | cons first rest ih =>
      cases rest with
      | nil =>
          obtain rfl := List.mem_singleton.mp member
          rw [String.intercalate_singleton]
      | cons next rest =>
          rw [String.intercalate_cons_cons]
          rcases List.mem_cons.mp member with rfl | later
          · exact infix_append (.inl (infix_append (.inl List.infix_rfl)))
          · exact infix_append (.inr (ih later))

theorem infix_entityLine {object text : String} {texts : List String} (member : text ∈ texts)
    : text.toList <:+: (entityLine object texts).toList := by
  have listed := List.mem_cons_of_mem ("type contains " ++ quote object) member
  rw [entityLine, entityPattern]
  exact infix_append (.inr (infix_append (.inl (infix_append (.inr (infix_intercalate listed))))))

theorem infix_testText (t : PropertyTest) (clause : String)
    : (quote t.value).toList <:+: (testText t clause).toList := by
  have inside
      : quote t.value ∈ [t.property, t.comparator.symbol, t.value, t.unit, clause].map quote := by
    simp
  exact infix_append (.inl (infix_append (.inr (infix_intercalate inside))))

/-- A rule ends with a line that is `end`. -/
theorem count_end_ruleLines {r : Rule} {lines : List String} (expressible : r.Expressible)
    (written : ruleLines r = .ok lines)
    : 1 ≤ (lines.flatMap Text.lines).count "end" := by
  obtain ⟨conditions, action, _, _, _, found⟩ := expressible.exists_ruleLines
  obtain rfl := Except.ok.inj (found.symm.trans written)
  refine List.count_pos_iff.mpr (List.mem_flatMap.mpr ⟨"end", ?_, by decide⟩)
  simp [block]

/-- Where a rule on an entity compares with a text that has such a line too, more than one line of
the rule is `end`.
-/
theorem count_end_of_value {r : Rule} {t : PropertyTest} {lines : List String} (origin : r.Origin)
    (isStatus : r.purpose.isStatus = true) (asks : .test t ∈ Drl.terms r.guard)
    (broken : "\nend\n".toList <:+: (quote t.value).toList) (written : ruleLines r = .ok lines)
    : 2 ≤ (lines.flatMap Text.lines).count "end" := by
  -- All that such a rule asks for stands on the line of its entity.
  obtain ⟨object, conjuncts, texts, _, guard, each, single⟩ :=
    origin.conditions_of_isStatus isStatus
  rw [guard] at asks
  have among : testText t r.clause.text ∈ texts := by
    have listed : some (testText t r.clause.text) ∈ texts.map some :=
      each ▸ List.mem_map.mpr ⟨_, asks, rfl⟩
    simpa using listed
  obtain ⟨conditions, action, left, _, _, found⟩ := origin.expressible.exists_ruleLines
  obtain rfl := Except.ok.inj (single.symm.trans left)
  obtain rfl := Except.ok.inj (found.symm.trans written)
  have inside : "\nend\n".toList <:+: ("\t" ++ entityLine object texts).toList :=
    infix_append (.inr ((broken.trans (infix_testText t _)).trans (infix_entityLine among)))
  have condition : 1 ≤ (Text.lines ("\t" ++ entityLine object texts)).count "end" :=
    List.count_pos_iff.mpr (Text.mem_lines (by decide) inside)
  have last : 1 ≤ (["then", "\t" ++ action, "end"].flatMap Text.lines).count "end" :=
    List.count_pos_iff.mpr (List.mem_flatMap.mpr ⟨"end", by simp, by decide⟩)
  simp only [block, List.map_cons, List.map_nil, List.flatMap_append, List.count_append,
    List.flatMap_singleton] at *
  omega

/-- Where each block has such a line and one has several, there are more of them than blocks. -/
theorem length_lt_count_end {header : List String} {blocks : List (List String)}
    (each : ∀ block ∈ blocks, 1 ≤ (block.flatMap Text.lines).count "end")
    (several : ∃ block ∈ blocks, 1 < (block.flatMap Text.lines).count "end")
    : blocks.length < (Text.lines (Text.unlines (header ++ blocks.flatten))).count "end" :=
  calc blocks.length
      = (blocks.map fun _ => 1).sum := by simp
    _ < (blocks.map fun block => (block.flatMap Text.lines).count "end").sum :=
        List.sum_lt_sum _ _ each several
    _ = (blocks.flatten.flatMap Text.lines).count "end" := by
        rw [List.flatten_eq_flatMap, List.flatMap_assoc, List.count_flatMap]
        rfl
    _ ≤ (Text.lines (Text.unlines (header ++ blocks.flatten))).count "end" := by
        rw [Text.lines_unlines, List.flatMap_append, List.count_append, List.count_append]
        omega

end Drl

namespace Document

variable {document : Document} {rules : RuleSet}

/-- A compiled document, in whose own texts and classes there is no line feed, is written as one
block for each rule below the fingerprint and the imports. So as many lines are `end` as there are
rules.
-/
theorem exists_blocks (d : Dictionary)
    (succeeds : (document.compile ⟨d.vocabulary, {}⟩).1 = .ok rules)
    (ids : ∀ k ∈ document.allSections, IsLine k.id.text)
    (tags : ∀ t ∈ Node.tagsOfList document.nodes, t.Unbroken)
    (classes : ∀ object ∈ d.objectNames, IsLine object)
    : ∃ (text : String) (blocks : List (List String)),
        Drl.text defaultImports rules = .ok text ∧ blocks.length = rules.size
        ∧ (∀ block ∈ blocks, Drl.IsBlock block)
        ∧ Text.lines text
          = ("// fingerprint: " ++ rules.fingerprint) :: defaultImports ++ blocks.flatten ++ [""]
        ∧ (Text.lines text).count "end" = rules.size := by
  have each (r : Rule) (member : r ∈ rules)
      : ∃ lines,
          Drl.ruleLines r = .ok lines ∧ Drl.IsBlock ("" :: lines)
          ∧ ∀ line ∈ "" :: lines, IsLine line := by
    refine Drl.exists_block (compile_origin succeeds r member).expressible
      (compile_unbroken succeeds ids tags r member) fun object isType => ?_
    -- The class in place of a missing one is the only one that the dictionary need not list.
    rcases entityType_known d.within succeeds member isType with known | same
    · exact classes object known
    · exact same ▸ (by decide : IsLine defaultFallbackObject)
  choose! lines written isBlock single using each
  obtain ⟨blocks, made⟩ : ∃ blocks, blocks = rules.toList.map fun r => "" :: lines r := ⟨_, rfl⟩
  have length : blocks.length = rules.size := made ▸ List.length_map _
  have blocky : ∀ block ∈ blocks, Drl.IsBlock block := made ▸ List.forall_mem_map.mpr isBlock
  have single : ∀ block ∈ blocks, ∀ line ∈ block, IsLine line :=
    made ▸ List.forall_mem_map.mpr single
  have whole
      : Drl.text defaultImports rules
        = .ok (Text.unlines
          (("// fingerprint: " ++ rules.fingerprint) :: defaultImports ++ blocks.flatten)) :=
    made ▸ Drl.text_eq defaultImports written
  have lines
      : Text.lines (Text.unlines
          (("// fingerprint: " ++ rules.fingerprint) :: defaultImports ++ blocks.flatten))
        = ("// fingerprint: " ++ rules.fingerprint) :: defaultImports ++ blocks.flatten
          ++ [""] := by
    refine Text.lines_unlines_of_isLine (List.forall_mem_append.mpr ⟨Drl.isLine_header rules, ?_⟩)
    intro line member
    obtain ⟨block, listed, inside⟩ := List.mem_flatten.mp member
    exact single block listed line inside
  refine ⟨_, blocks, whole, length, blocky, lines, ?_⟩
  rw [lines, List.count_append, List.count_append, Drl.count_end_header,
    Drl.count_end_flatten blocky, length]
  simp

/-- Doors have a width. -/
def doorWidths : Dictionary := Dictionary.empty.addProperty "door" { name := "width" }

/-- A section about doors of a width that is told in words. -/
def wordyDoors (width : String) : Document where
  base := "GB/R/B/1"
  items := [
    .container { text := "y1" } "/b" .requirement [
      .tag { id := { text := "y2" }, kind := .requirement, property := "width", value := width }]]
  tables := []

theorem exists_blocks_wordyDoors
    : ∃ rules,
        ((wordyDoors "as \"end\"").compile ⟨doorWidths.vocabulary, {}⟩).1 = .ok rules
        ∧ rules.size = 8
        ∧ (∀ k ∈ (wordyDoors "as \"end\"").allSections, IsLine k.id.text)
        ∧ (∀ t ∈ Node.tagsOfList (wordyDoors "as \"end\"").nodes, t.Unbroken)
        ∧ (∀ object ∈ doorWidths.objectNames, IsLine object)
        ∧ ∃ text, Drl.text defaultImports rules = .ok text
          ∧ (Text.lines text).count "end" = 8 := by
  obtain ⟨rules, compiled, size⟩
      : ∃ rules,
          ((wordyDoors "as \"end\"").compile ⟨doorWidths.vocabulary, {}⟩).1 = .ok rules
          ∧ rules.size = 8 := by
    refine exists_of_compile (P := fun rules => rules.size = 8) ?_
    decide +kernel
  have ids : ∀ k ∈ (wordyDoors "as \"end\"").allSections, IsLine k.id.text := by decide +kernel
  have tags : ∀ t ∈ Node.tagsOfList (wordyDoors "as \"end\"").nodes, t.Unbroken :=
    List.forall_mem_singleton.mpr ⟨by decide, by decide, by decide⟩
  have classes : ∀ object ∈ doorWidths.objectNames, IsLine object := by decide +kernel
  obtain ⟨text, _, written, _, _, _, count⟩ := exists_blocks doorWidths compiled ids tags classes
  exact ⟨rules, compiled, size, ids, tags, classes, text, written, size ▸ count⟩

/-- The condition is a test that compares with the value. -/
def comparesWith (value : String) : Condition → Bool
  | .test t => t.value == value
  | _ => false

/-- Where the width has a line that is `end`, more lines are so than there are rules. -/
theorem count_end_wordyDoors
    : ∃ rules text,
        ((wordyDoors "a\nend\nb").compile ⟨doorWidths.vocabulary, {}⟩).1 = .ok rules
        ∧ Drl.text defaultImports rules = .ok text
        ∧ (Text.lines text).count "end" ≠ rules.size := by
  obtain ⟨rules, compiled, r, member, isStatus, asks⟩
      : ∃ rules,
          ((wordyDoors "a\nend\nb").compile ⟨doorWidths.vocabulary, {}⟩).1 = .ok rules
          ∧ ∃ r ∈ rules, r.purpose.isStatus = true
            ∧ (Drl.terms r.guard).any (comparesWith "a\nend\nb") = true := by
    refine exists_of_compile
      (P := fun rules => ∃ r ∈ rules, r.purpose.isStatus = true
        ∧ (Drl.terms r.guard).any (comparesWith "a\nend\nb") = true) ?_
    decide +kernel
  obtain ⟨t, asks, value⟩
      : ∃ t, Condition.test t ∈ Drl.terms r.guard ∧ t.value = "a\nend\nb" := by
    obtain ⟨c, listed, compares⟩ := List.any_eq_true.mp asks
    cases c with
    | test t => exact ⟨t, listed, beq_iff_eq.mp compares⟩
    | _ => cases compares
  have origin := compile_origin compiled
  choose! conditions action _ _ _ written using
    fun r member => (origin r member).expressible.exists_ruleLines
  have length
      : (rules.toList.map fun r => "" :: Drl.block r (conditions r) (action r)).length
        = rules.size :=
    List.length_map _
  refine ⟨rules, _, compiled, Drl.text_eq defaultImports written, Nat.ne_of_gt ?_⟩
  refine length ▸ Drl.length_lt_count_end ?_ ?_
  · refine List.forall_mem_map.mpr fun other within => ?_
    rw [List.flatMap_cons, List.count_append]
    exact le_add_left
      (Drl.count_end_ruleLines (origin other within).expressible (written other within))
  · refine ⟨_, List.mem_map_of_mem member, ?_⟩
    rw [List.flatMap_cons, List.count_append]
    exact le_add_left (Drl.count_end_of_value (origin r member) isStatus asks
      (by rw [value]; decide) (written r member))

end Document

end ClauseRules
