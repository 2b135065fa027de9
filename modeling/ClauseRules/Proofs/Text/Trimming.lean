import ClauseRules.Text.Blank
import Mathlib.Data.List.DropRight

/-! Dropping characters at the ends of a text. A character that is not dropped keeps all that stands
on its other side, and what has none of the characters in it is found in a text before and after.
Trimming drops blanks at both ends and leaves a trimmed text alone.
-/

namespace ClauseRules

/-- What begins with a character that the front does not hold stands behind the front. -/
theorem cons_infix_append_iff {α : Type} {c : α} {w front back : List α} (absent : c ∉ front)
    : c :: w <:+: front ++ back ↔ c :: w <:+: back := by
  induction front with
  | nil => rfl
  | cons d front ih =>
      rw [List.mem_cons, not_or] at absent
      obtain ⟨differs, absent⟩ := absent
      have elsewhere : ¬c :: w <+: d :: (front ++ back) := fun start =>
        differs (List.cons_prefix_cons.mp start).1
      rw [List.cons_append, List.infix_cons_iff, ih absent]
      exact or_iff_right elsewhere

namespace Text

variable {p q : Char → Bool} {c : Char} {cs ds w front back : List Char}

/-! ### Dropping at one end -/

theorem dropLastWhile_subset (p : Char → Bool) (cs : List Char) : dropLastWhile p cs ⊆ cs :=
  fun _ member =>
    List.mem_reverse.mp ((List.dropWhile_sublist _).subset (List.mem_reverse.mp member))

theorem dropWhile_append_cons (stops : p c = false)
    : (front ++ c :: back).dropWhile p = front.dropWhile p ++ c :: back := by
  rw [List.dropWhile_append]
  split
  case isTrue none =>
    rw [List.isEmpty_iff.mp none, List.dropWhile_cons_of_neg (by simp [stops]), List.nil_append]
  case isFalse => rfl

theorem dropLastWhile_append_cons (stops : p c = false)
    : dropLastWhile p (front ++ c :: back) = front ++ c :: dropLastWhile p back := by
  have backwards : (front ++ c :: back).reverse = back.reverse ++ c :: front.reverse := by simp
  rw [dropLastWhile, backwards, dropWhile_append_cons stops, dropLastWhile]
  simp

/-- What is filtered out need not be dropped before. -/
theorem filter_dropWhile (out : ∀ c ∈ cs, p c = true → q c = false)
    : (cs.dropWhile p).filter q = cs.filter q := by
  have none : (cs.takeWhile p).filter q = [] := by
    refine List.filter_eq_nil_iff.mpr fun c member => ?_
    rw [out c ((List.takeWhile_sublist p).subset member) (List.mem_takeWhile_imp member)]
    nofun
  conv_rhs => rw [← List.takeWhile_append_dropWhile (p := p) (l := cs)]
  rw [List.filter_append, none, List.nil_append]

theorem filter_dropLastWhile (out : ∀ c ∈ cs, p c = true → q c = false)
    : (dropLastWhile p cs).filter q = cs.filter q := by
  have backwards : ∀ c ∈ cs.reverse, p c = true → q c = false := fun c member =>
    out c (List.mem_reverse.mp member)
  rw [dropLastWhile, List.filter_reverse, filter_dropWhile backwards, List.filter_reverse,
    List.reverse_reverse]

theorem infix_dropWhile (kept : ∀ c ∈ w, p c = false) : w <:+: cs.dropWhile p ↔ w <:+: cs := by
  cases w with
  | nil => simp
  | cons c w =>
      have absent : c ∉ cs.takeWhile p := fun member =>
        absurd (List.mem_takeWhile_imp member) (by simp [kept c List.mem_cons_self])
      conv_rhs => rw [← List.takeWhile_append_dropWhile (p := p) (l := cs)]
      exact (cons_infix_append_iff absent).symm

/-! ### Trimming -/

theorem trimChars_subset (cs : List Char) : trimChars cs ⊆ cs :=
  fun _ member => (List.dropWhile_sublist _).subset (dropLastWhile_subset _ _ member)

/-- Trimming takes away nothing that has no blanks in it. -/
theorem infix_trimChars (solid : w.any isBlank = false) : w <:+: trimChars cs ↔ w <:+: cs := by
  have forwards : ∀ c ∈ w, isBlank c = false := by simpa using solid
  have backwards : ∀ c ∈ w.reverse, isBlank c = false := by simpa using solid
  rw [trimChars, dropLastWhile, ← List.reverse_infix, List.reverse_reverse,
    infix_dropWhile backwards, List.reverse_infix, infix_dropWhile forwards]

/-- No blank stands at either end. -/
structure Trimmed (cs : List Char) : Prop where
  first : ∀ c ∈ cs.head?, isBlank c = false
  last : ∀ c ∈ cs.getLast?, isBlank c = false

theorem Trimmed.trimChars_eq (trimmed : Trimmed cs) : trimChars cs = cs := by
  have front : cs.dropWhile isBlank = cs := by
    refine List.dropWhile_eq_self_iff.mpr fun some => ?_
    simpa using trimmed.first _ (List.head?_eq_getElem? ▸ List.getElem?_eq_getElem some)
  have back : cs.rdropWhile isBlank = cs := by
    refine List.rdropWhile_eq_self_iff.mpr fun some => ?_
    simpa using trimmed.last _ (List.getLast?_eq_some_getLast some)
  rw [trimChars, front]
  exact back

theorem trimmed_trimChars (cs : List Char) : Trimmed (trimChars cs) := by
  have same : trimChars cs = (cs.dropWhile isBlank).rdropWhile isBlank := rfl
  constructor
  · intro c first
    -- What is left after the end was trimmed still begins in the same way.
    obtain ⟨dropped, split⟩ := List.rdropWhile_prefix isBlank (l := cs.dropWhile isBlank)
    have whole : (cs.dropWhile isBlank).head? = some c := by
      rw [← split, ← same, List.head?_append, first, Option.some_or]
    simpa only [whole] using List.head?_dropWhile_not isBlank cs
  · intro c last
    rw [same] at last
    obtain ⟨some, rfl⟩ := List.mem_getLast?_eq_getLast last
    exact Bool.eq_false_iff.mpr (List.rdropWhile_last_not _ _ some)

/-- Whether a text is trimmed depends on where its blanks are only. -/
theorem Trimmed.of_map_isBlank (trimmed : Trimmed cs) (same : ds.map isBlank = cs.map isBlank)
    : Trimmed ds := by
  constructor
  · intro d first
    have blank : cs.head?.map isBlank = some (isBlank d) := by
      rw [← List.head?_map, ← same, List.head?_map, first, Option.map_some]
    obtain ⟨c, start, also⟩ := Option.map_eq_some_iff.mp blank
    rw [← also, trimmed.first c start]
  · intro d last
    have blank : cs.getLast?.map isBlank = some (isBlank d) := by
      rw [← List.getLast?_map, ← same, List.getLast?_map, last, Option.map_some]
    obtain ⟨c, ending, also⟩ := Option.map_eq_some_iff.mp blank
    rw [← also, trimmed.last c ending]

end Text

end ClauseRules
