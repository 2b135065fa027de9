import ClauseRules.Comparator
import ClauseRules.Proofs.Text.Trimming
import Mathlib.Data.List.Basic

/-! Escapes of ampersands in comparators. Reading a token undoes one escape of each ampersand, and
one more if the outer one is written with a plus. What an ampersand was escaped to beyond that is
left as it is and would be undone if the symbol were read again. So the symbol of a comparator is
read as the same comparator exactly if no ampersand was escaped that often.
-/

namespace ClauseRules

namespace Comparator

open Text (Trimmed isBlank trimChars)

/-! ### Replacing by ampersands -/

/-- The second text is the first one with ampersands in place of the occurrences of `old` that are
met from left to right.
-/
inductive Replaced (old : List Char) : List Char → List Char → Prop
  | nil : Replaced old [] []
  | here {rest ds : List Char} (later : Replaced old rest ds)
    : Replaced old (old ++ rest) ('&' :: ds)
  | kept {c : Char} {rest ds : List Char} (absent : ¬old <+: c :: rest)
    (later : Replaced old rest ds)
    : Replaced old (c :: rest) (c :: ds)

theorem replaced_drop {old : List Char} (some : old ≠ []) (skip : Nat) (cs : List Char)
    : Replaced old (cs.drop skip) (replaceByAmpersand old skip cs) := by
  induction cs generalizing skip with
  | nil =>
      rw [List.drop_nil, replaceByAmpersand]
      exact .nil
  | cons c rest ih =>
      cases skip with
      | succ skip => exact ih skip
      | zero =>
          rw [List.drop_zero, replaceByAmpersand]
          split
          case isTrue occurs =>
            -- The rest of the occurrence is what the scan skips.
            obtain ⟨after, split⟩ := List.isPrefixOf_iff_prefix.mp occurs
            obtain ⟨mark, name, rfl⟩ := List.exists_cons_of_ne_nil some
            have inside : name ++ after = rest := List.tail_eq_of_cons_eq split
            have later := ih ((mark :: name).length - 1)
            have next : rest.drop ((mark :: name).length - 1) = after := by simp [← inside]
            rw [next] at later
            rw [← split]
            exact .here later
          case isFalse differs =>
            exact .kept (fun start => differs (List.isPrefixOf_iff_prefix.mpr start)) (ih 0)

theorem replaced {old : List Char} (some : old ≠ []) (cs : List Char)
    : Replaced old cs (replaceByAmpersand old 0 cs) :=
  replaced_drop some 0 cs

namespace Replaced

variable {old cs ds : List Char}

theorem length_le (replaced : Replaced old cs ds) (some : old ≠ []) : ds.length ≤ cs.length := by
  have long := List.length_pos_iff.mpr some
  induction replaced with
  | nil => exact le_rfl
  | here _ ih =>
      rw [List.length_cons, List.length_append]
      omega
  | kept _ _ ih =>
      rw [List.length_cons, List.length_cons]
      omega

/-- A text gets shorter if there is something to replace. -/
theorem length_lt (replaced : Replaced old cs ds) (long : 1 < old.length) (occurs : old <:+: cs)
    : ds.length < cs.length := by
  have some : old ≠ [] := List.ne_nil_of_length_pos (by omega)
  induction replaced with
  | nil => exact absurd (List.infix_nil.mp occurs) some
  | here later _ =>
      have le := later.length_le some
      rw [List.length_cons, List.length_append]
      omega
  | kept absent _ ih =>
      have lt := ih ((List.infix_cons_iff.mp occurs).resolve_left absent)
      rw [List.length_cons, List.length_cons]
      omega

theorem eq_of_absent (replaced : Replaced old cs ds) (absent : ¬old <:+: cs) : ds = cs := by
  induction replaced with
  | nil => rfl
  | here _ _ => exact absurd (List.prefix_append _ _).isInfix absent
  | kept _ _ ih => rw [ih fun occurs => absent (List.infix_cons occurs)]

/-- What comes last was last before, or is an ampersand. -/
theorem mem_getLast? (replaced : Replaced old cs ds)
    : ∀ d ∈ ds.getLast?, d = '&' ∨ d ∈ cs.getLast? := by
  induction replaced with
  | nil => exact fun _ => nofun
  | @here rest ds later ih =>
      intro d last
      cases ds with
      | nil => exact .inl (Option.some.inj last).symm
      | cons e ds => exact (ih d last).imp_right List.mem_getLast?_append_of_mem_getLast?
  | @kept c rest ds _ later ih =>
      intro d last
      cases later with
      | nil => exact .inr last
      | here later => exact (ih d last).imp_right List.mem_getLast?_cons
      | kept absent later => exact (ih d last).imp_right List.mem_getLast?_cons

theorem trimmed (replaced : Replaced old cs ds) (trimmed : Trimmed cs) : Trimmed ds := by
  constructor
  · intro d first
    cases replaced with
    | nil => cases first
    | here _ =>
        obtain rfl := Option.some.inj first
        decide
    | kept _ _ => exact trimmed.first d first
  · intro d last
    rcases replaced.mem_getLast? d last with rfl | before
    · decide
    · exact trimmed.last d before

variable {mark c : Char} {name w : List Char}

/-- A start that no replacement can touch is the same before and after. -/
theorem prefix_iff (replaced : Replaced (mark :: name) cs ds) (plain : '&' ∉ w)
    (unmarked : mark ∉ w)
    : w <+: ds ↔ w <+: cs := by
  induction replaced generalizing w with
  | nil => rfl
  | here _ _ =>
      cases w with
      | nil => simp
      | cons d w =>
          rw [List.cons_append, List.cons_prefix_cons, List.cons_prefix_cons]
          refine iff_of_false ?_ ?_
          · rintro ⟨rfl, _⟩
            exact plain List.mem_cons_self
          · rintro ⟨rfl, _⟩
            exact unmarked List.mem_cons_self
  | kept _ _ ih =>
      cases w with
      | nil => simp
      | cons d w =>
          rw [List.cons_prefix_cons, List.cons_prefix_cons,
            ih (fun member => plain (List.mem_cons_of_mem _ member))
              (fun member => unmarked (List.mem_cons_of_mem _ member))]

/-- What is found in the text after the replacement. It stood there before and was left alone, or it
begins with an ampersand that takes the place of an occurrence. Replacements do not reach into it,
as it holds neither the mark nor an ampersand but at its beginning, and if it begins with the mark,
it is long enough to show the whole occurrence.
-/
theorem cons_infix_iff (replaced : Replaced (mark :: name) cs ds) (plain : '&' ∉ w)
    (unmarked : mark ∉ w) (inner : mark ∉ name) (outer : c ∉ name) (whole : c = mark → name <+: w)
    : c :: w <:+: ds ↔ c = '&' ∧ mark :: name ++ w <:+: cs ∨ c ≠ mark ∧ c :: w <:+: cs := by
  induction replaced with
  | nil => simp
  | @here rest ds later ih =>
      have repeated
          : mark :: name ++ w <:+: mark :: name ++ rest
            ↔ w <+: rest ∨ mark :: name ++ w <:+: rest := by
        rw [List.cons_append, List.cons_append, List.infix_cons_iff, cons_infix_append_iff inner,
          List.prefix_cons_inj, List.prefix_append_right_inj]
      have behind (differs : c ≠ mark) : c :: w <:+: mark :: name ++ rest ↔ c :: w <:+: rest :=
        cons_infix_append_iff (by simp [differs, outer])
      rw [List.infix_cons_iff, List.cons_prefix_cons, later.prefix_iff plain unmarked, ih, repeated,
        and_congr_right behind, and_or_left, or_assoc]
  | @kept d rest ds absent later ih =>
      have elsewhere : ¬mark :: name ++ w <+: d :: rest := fun start =>
        absent ((List.prefix_append _ _).trans start)
      have differs (start : c :: w <+: d :: rest) : c ≠ mark := by
        rintro rfl
        have occurs : c :: name <+: c :: w := List.cons_prefix_cons.mpr ⟨rfl, whole rfl⟩
        exact absent (occurs.trans start)
      have start : c :: w <+: d :: ds ↔ c :: w <+: d :: rest := by
        rw [List.cons_prefix_cons, List.cons_prefix_cons, later.prefix_iff plain unmarked]
      rw [List.infix_cons_iff, start, ih, List.infix_cons_iff, or_iff_right elsewhere,
        List.infix_cons_iff, and_or_left, and_iff_right_of_imp differs]
      exact or_left_comm

end Replaced

/-! ### Undoing escapes -/

section

variable {cs : List Char}

theorem exists_replaced (cs : List Char)
    : ∃ ds,
        Replaced ('+' :: "amp;".toList) cs ds
        ∧ Replaced ('&' :: "amp;".toList) ds (unescape cs) :=
  ⟨_, replaced (List.cons_ne_nil _ _) _, replaced (List.cons_ne_nil _ _) _⟩

/-- Nothing is left of the escapes with a plus. -/
theorem not_infix_unescape (cs : List Char) : ¬"+amp;".toList <:+: unescape cs := by
  obtain ⟨ds, first, second⟩ := exists_replaced cs
  have inner : ¬ '+' :: "amp;".toList <:+: ds := by
    rw [first.cons_infix_iff (by decide) (by decide) (by decide) (by decide) fun _ =>
      List.prefix_rfl]
    simp
  have outer := second.cons_infix_iff (c := '+') (w := "amp;".toList) (by decide) (by decide)
    (by decide) (by decide) fun same => absurd same (by decide)
  intro occurs
  exact (outer.mp occurs).elim (fun first => absurd first.1 (by decide)) fun last => inner last.2

/-- The escape of an ampersand is left where it was escaped once more. -/
theorem infix_unescape_iff
    : "&amp;".toList <:+: unescape cs
      ↔ "&amp;amp;".toList <:+: cs ∨ "+amp;amp;amp;".toList <:+: cs := by
  obtain ⟨ds, first, second⟩ := exists_replaced cs
  have inner
      : '&' :: "amp;amp;".toList <:+: ds
        ↔ "+amp;amp;amp;".toList <:+: cs ∨ "&amp;amp;".toList <:+: cs := by
    rw [first.cons_infix_iff (w := "amp;amp;".toList) (by decide) (by decide) (by decide)
      (by decide) fun same => absurd same (by decide)]
    exact or_congr (and_iff_right rfl) (and_iff_right (by decide))
  have outer : '&' :: "amp;".toList <:+: unescape cs ↔ '&' :: "amp;amp;".toList <:+: ds := by
    rw [second.cons_infix_iff (by decide) (by decide) (by decide) (by decide) fun _ =>
      List.prefix_rfl]
    exact (or_iff_left fun never => never.1 rfl).trans (and_iff_right rfl)
  exact outer.trans (inner.trans or_comm)

theorem unescape_eq_self_iff (unmarked : ¬"+amp;".toList <:+: cs)
    : unescape cs = cs ↔ ¬"&amp;".toList <:+: cs := by
  obtain ⟨ds, first, second⟩ := exists_replaced cs
  obtain rfl := first.eq_of_absent unmarked
  refine ⟨fun same occurs => ?_, second.eq_of_absent⟩
  have shorter := second.length_lt (by decide) occurs
  rw [same] at shorter
  exact absurd shorter (lt_irrefl _)

theorem trimmed_unescape (trimmed : Trimmed cs) : Trimmed (unescape cs) := by
  obtain ⟨ds, first, second⟩ := exists_replaced cs
  exact second.trimmed (first.trimmed trimmed)

end

/-! ### Tokens -/

section

variable {comparator : Comparator} {token other raw : String}

theorem ofToken_cases (token : String)
    : (ofToken token).isRecognised = true ∨ ofToken token = .unrecognised token := by
  rw [ofToken]
  split_ifs <;> simp [isRecognised]

theorem eq_of_ofToken (unknown : ofToken token = .unrecognised other) : token = other := by
  rcases ofToken_cases token with recognised | same
  · rw [unknown] at recognised
    cases recognised
  · exact Comparator.unrecognised.inj (same.symm.trans unknown)

/-- The evaluator knows no token with the escape of an ampersand. -/
theorem ofToken_of_escape (escaped : "&amp;".toList <:+: token.toList)
    : ofToken token = .unrecognised token := by
  have unlisted (tokens : List String)
      (free : ∀ known ∈ tokens, ¬"&amp;".toList <:+: known.toList)
      : ¬tokens.contains token = true :=
    fun listed => free token (List.contains_iff_mem.mp listed) escaped
  have differs (known : String) (free : ¬"&amp;".toList <:+: known.toList)
      : ¬(token == known) = true :=
    fun same => free (beq_iff_eq.mp same ▸ escaped)
  rw [ofToken, if_neg, if_neg, if_neg, if_neg, if_neg, if_neg, if_neg]
  all_goals first | exact unlisted _ (by decide +kernel) | exact differs _ (by decide +kernel)

theorem parse_symbol_of_isRecognised (recognised : comparator.isRecognised = true)
    : parse (some comparator.symbol) = comparator := by
  cases comparator with
  | unrecognised token => cases recognised
  | _ => decide +kernel

/-- A token that was trimmed and has no escape with a plus is settled if it has none at all. -/
theorem parse_symbol_ofToken_iff {cs : List Char} (trimmed : Trimmed cs)
    (unmarked : ¬"+amp;".toList <:+: cs)
    : parse (some (ofToken (String.ofList cs)).symbol) = ofToken (String.ofList cs)
      ↔ ¬"&amp;".toList <:+: cs := by
  rcases ofToken_cases (String.ofList cs) with recognised | unknown
  · refine iff_of_true (parse_symbol_of_isRecognised recognised) fun escaped => ?_
    have inside : "&amp;".toList <:+: (String.ofList cs).toList := by
      rwa [String.toList_ofList (l := cs)]
    rw [ofToken_of_escape inside] at recognised
    cases recognised
  · rw [unknown, symbol, parse, String.toList_ofList, trimmed.trimChars_eq,
      ← unescape_eq_self_iff unmarked]
    constructor
    · exact fun same => String.ofList_injective (eq_of_ofToken same)
    · intro same
      rw [same, unknown]

/-- Some ampersand of a token is escaped once more than reading undoes. -/
def OverEscaped (raw : String) : Prop :=
  "&amp;amp;".toList <:+: raw.toList ∨ "+amp;amp;amp;".toList <:+: raw.toList

/-- The symbol of a comparator is read as that comparator, unless an ampersand was escaped once more
than reading undoes. Then the escape that is left makes the token one that the evaluator does not
know, and is undone when the symbol is read.
-/
theorem parse_symbol_parse_iff (raw : String)
    : parse (some (parse (some raw)).symbol) = parse (some raw) ↔ ¬OverEscaped raw := by
  have trimmed := trimmed_unescape (Text.trimmed_trimChars raw.toList)
  have settled := parse_symbol_ofToken_iff trimmed (not_infix_unescape _)
  rwa [infix_unescape_iff, Text.infix_trimChars (by decide), Text.infix_trimChars (by decide)]
    at settled

/-- A sign for less whose ampersand was escaped twice. -/
def twiceEscaped : String := "&amp;amp;lt;"

/-- The evaluator does not know it, but it knows what its symbol is read as. -/
theorem twiceEscaped_unsettled
    : parse (some (parse (some twiceEscaped)).symbol) ≠ parse (some twiceEscaped) := by
  decide +kernel

end

end Comparator

end ClauseRules
