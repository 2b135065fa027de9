import ClauseRules.Text.Lines
import Mathlib.Data.List.Basic

/-! Texts without line feeds. Such texts written one below the other can be cut apart at the line
feeds again.
-/

namespace ClauseRules.Text

/-- No line feed stands in the text. -/
def IsLine (text : String) : Prop := '\n' ∉ text.toList

instance : DecidablePred IsLine := fun text => inferInstanceAs (Decidable ('\n' ∉ text.toList))

/-- What stands before, between and after the line feeds of a text. -/
def lines (text : String) : List String := (text.toList.splitOn '\n').map String.ofList

variable {first second separator : String} {rest texts : List String}

@[simp]
theorem isLine_append : IsLine (first ++ second) ↔ IsLine first ∧ IsLine second := by
  simp [IsLine, not_or]

theorem isLine_ofList {cs : List Char} : IsLine (String.ofList cs) ↔ '\n' ∉ cs := by
  rw [IsLine, String.toList_ofList]

theorem isLine_intercalate (between : IsLine separator) (each : ∀ text ∈ texts, IsLine text)
    : IsLine (separator.intercalate texts) := by
  induction texts with
  | nil => rw [String.intercalate_nil]; decide
  | cons text rest ih =>
      obtain ⟨here, others⟩ := List.forall_mem_cons.mp each
      cases rest with
      | nil => rwa [String.intercalate_singleton]
      | cons next rest =>
          rw [String.intercalate_cons_cons, isLine_append, isLine_append]
          exact ⟨⟨here, between⟩, ih others⟩

theorem lines_of_isLine (line : IsLine first) : lines first = [first] := by
  rw [lines, List.splitOn_eq_singleton line, List.map_singleton, String.ofList_toList]

/-- After the last line feed nothing is left. -/
theorem lines_unlines : lines (unlines texts) = texts.flatMap lines ++ [""] := by
  induction texts with
  | nil => rfl
  | cons text rest ih =>
      have cut
          : (unlines (text :: rest)).toList = text.toList ++ '\n' :: (unlines rest).toList := by
        simp [unlines]
      rw [lines, cut, List.splitOn_append_cons_self, List.map_append, List.flatMap_cons,
        List.append_assoc, ← ih]
      rfl

theorem lines_unlines_of_isLine (each : ∀ text ∈ texts, IsLine text)
    : lines (unlines texts) = texts ++ [""] := by
  have single : texts.flatMap lines = texts.flatMap fun text => [text] :=
    List.flatMap_congr fun text listed => lines_of_isLine (each text listed)
  rw [lines_unlines, single, List.flatMap_singleton']

/-- What stands between two line feeds is a line. -/
theorem mem_lines (line : IsLine second)
    (inside : '\n' :: second.toList ++ ['\n'] <:+: first.toList)
    : second ∈ lines first := by
  obtain ⟨front, back, same⟩ := inside
  have cut : first.toList = front ++ '\n' :: (second.toList ++ '\n' :: back) := by
    simpa using same.symm
  rw [lines, cut, List.splitOn_append_cons_self, List.splitOn_append_cons_self_of_not_mem line]
  simp

end ClauseRules.Text
