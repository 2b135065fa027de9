import ClauseRules.Proofs.Text.Legible
import ClauseRules.Proofs.Text.Lines
import ClauseRules.Rule.Drl

/-! Quoted texts in the rule language. A quote inside of a text has a backslash before it, so that
the end of the text can be found; a line feed stays as it is.
-/

namespace ClauseRules.Drl

open Text (IsLine)

theorem toList_quote (s : String)
    : (quote s).toList = '"' :: s.toList.flatMap quoteChar ++ ['"'] := by
  simp [quote]

theorem quoteChar_legible : Legible (fun _ => True) quoteChar := by
  intro c d _ _ rest more same
  simp only [quoteChar] at same
  split at same <;> split at same <;> grind

theorem quoteChar_start (c : Char)
    : ∃ first others, quoteChar c = first :: others ∧ first ≠ '"' := by
  simp only [quoteChar]
  split
  · exact ⟨_, _, rfl, by decide⟩
  · exact ⟨_, _, rfl, by simp_all⟩

theorem quote_legible : Legible (fun _ => True) fun s => (quote s).toList := by
  intro s t _ _ rest more same
  simp only [toList_quote, List.cons_append, List.append_assoc, List.cons.injEq, true_and,
    List.nil_append] at same
  obtain ⟨chars, after⟩ :=
    eq_of_flatMap_stop (fun _ _ _ => quoteChar_legible trivial trivial) quoteChar_start same
  exact ⟨String.toList_inj.mp chars, after⟩

theorem isLine_quote {s : String} : IsLine (quote s) ↔ IsLine s := by
  have char (c : Char) : '\n' ∈ quoteChar c ↔ c = '\n' := by
    simp only [quoteChar]
    split <;> grind
  simp [IsLine, toList_quote, char]

end ClauseRules.Drl
