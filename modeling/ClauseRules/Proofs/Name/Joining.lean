import ClauseRules.Proofs.Name.Spelling

/-! Names of numbered parts. A part is named by the name of the whole, an underscore and its number,
and this name can be spelled from the whole as it was written as well as from its name: the words of
the whole are the same, the last one goes on with the number, and no address has an underscore where
its scheme would be.
-/

namespace ClauseRules

/-! ### Addresses -/

namespace Url

variable {isSeparator : Char → Bool} {front back : List Char} {text : String}

/-- The parts before a separator and those behind it. -/
theorem splitAt_append_cons {c : Char} (separates : isSeparator c = true)
    : splitAt isSeparator (front ++ c :: back)
      = splitAt isSeparator front ++ splitAt isSeparator back := by
  induction front with
  | nil =>
      obtain ⟨part, parts, same, step⟩ := exists_splitAt_cons isSeparator c back
      rw [List.nil_append, step, if_pos separates, same]
      rfl
  | cons d front ih =>
      obtain ⟨part, parts, same⟩ := List.exists_cons_of_ne_nil (splitAt_ne_nil isSeparator front)
      simp only [List.cons_append, splitAt, ih, same]
      split <;> rfl

theorem exists_clean_append_mark (front back : List Char)
    : ∃ ds es, clean (front ++ '_' :: back) = ds ++ '_' :: es ∧ ds ⊆ front := by
  rw [clean, Text.dropWhile_append_cons (by decide), Text.dropLastWhile_append_cons (by decide),
    List.filter_append, List.filter_cons_of_pos (by decide)]
  exact ⟨_, _, rfl, fun c member =>
    (List.dropWhile_sublist _).subset (List.mem_filter.mp member).1⟩

/-- No scheme has an underscore. -/
theorem scheme?_append_mark (absent : ':' ∉ front) : scheme? (front ++ '_' :: back) = none := by
  have behind : ∀ rest, (front ++ '_' :: back).dropWhile isSchemeChar ≠ ':' :: rest := by
    rw [Text.dropWhile_append_cons (by decide)]
    intro rest same
    cases start : front.dropWhile isSchemeChar with
    | nil => simp [start] at same
    | cons c cs =>
        rw [start] at same
        obtain rfl := List.head_eq_of_cons_eq same
        exact absent ((List.dropWhile_sublist _).subset (start ▸ List.mem_cons_self))
  -- What stands behind the characters of a scheme is `behind` not to be a colon.
  simp only [scheme?, List.span_eq_takeWhile_dropWhile]

theorem pathOf?_append_mark (absent : ':' ∉ front) (split : text.toList = front ++ '_' :: back)
    : pathOf? text = none := by
  obtain ⟨ds, es, same, inside⟩ := exists_clean_append_mark front back
  rw [pathOf?, split, same, scheme?_append_mark fun member => absent (inside member)]
  rfl

end Url

namespace Name

open Text (isBlank trimChars)

variable {c : Char} {cs word front number : List Char}

/-! ### Words -/

theorem isAllowed_of_isBlank (blank : isBlank c = true) (differs : c ≠ ' ')
    : isAllowed c = false := by
  refine Bool.eq_false_iff.mpr fun allowed => ?_
  have solid := isBlank_of_isPathChar ((isAllowed_iff.mp allowed).resolve_right differs)
  rw [blank] at solid
  cases solid

/-- Blanks at the end of a word are dropped in any case. -/
theorem filter_capitalise_trimChars (solid : ' ' ∉ word)
    : (capitalise (trimChars word)).filter isAllowed
      = (capitalise (word.dropWhile isBlank)).filter isAllowed := by
  cases start : word.dropWhile isBlank with
  | nil =>
      rw [trimChars, start]
      rfl
  | cons c rest =>
      have first : isBlank c = false := by
        simpa [start] using List.head?_dropWhile_not isBlank word
      have out : ∀ d ∈ rest, isBlank d = true → isAllowed d = false := by
        rintro d member blank
        refine isAllowed_of_isBlank blank ?_
        rintro rfl
        have inside : ' ' ∈ word.dropWhile isBlank := start ▸ List.mem_cons_of_mem _ member
        exact solid ((List.dropWhile_sublist _).subset inside)
      have trimmed : trimChars word = c :: Text.dropLastWhile isBlank rest := by
        rw [trimChars, start, ← List.nil_append (c :: rest), Text.dropLastWhile_append_cons first,
          List.nil_append]
      rw [trimmed, capitalise, capitalise, List.filter_append, List.filter_append,
        Text.filter_dropLastWhile out]

/-- A word that goes on with an underscore and a number is capitalised as it is without them. -/
theorem filter_capitalise_append (solid : ' ' ∉ word) (spaceless : ' ' ∉ number)
    : (capitalise (trimChars (word ++ '_' :: number))).filter isAllowed
      = (capitalise (trimChars word)).filter isAllowed ++ '_' :: number.filter isAllowed := by
  rw [filter_capitalise_trimChars solid, filter_capitalise_trimChars (by simp [solid, spaceless]),
    Text.dropWhile_append_cons (by decide)]
  have mark : ('_' :: number).filter isAllowed = '_' :: number.filter isAllowed :=
    List.filter_cons_of_pos (by decide)
  cases word.dropWhile isBlank with
  | nil =>
      have upper : capitalise ('_' :: number) = '_' :: number := rfl
      rw [List.nil_append, upper, mark]
      rfl
  | cons c rest =>
      rw [List.cons_append, capitalise, capitalise, ← List.append_assoc, List.filter_append, mark]

theorem joinWords_append_space (solid : ' ' ∉ word)
    : joinWords (front ++ ' ' :: word)
      = ((Url.splitAt (· == ' ') front).flatMap fun word => capitalise (trimChars word))
        ++ capitalise (trimChars word) := by
  have last : Url.splitAt (· == ' ') word = [word] :=
    Url.splitAt_eq_singleton fun c member => beq_eq_false_iff_ne.mpr fun same =>
      solid (same ▸ member)
  have words
      : Url.splitAt (· == ' ') (front ++ ' ' :: word)
        = Url.splitAt (· == ' ') front ++ [word] := by
    rw [Url.splitAt_append_cons (by decide), last]
  obtain ⟨first, others, some⟩ := List.exists_cons_of_ne_nil (Url.splitAt_ne_nil (· == ' ') front)
  simp only [joinWords, words]
  split
  case h_1 single => simp [some] at single
  case h_2 => rw [List.flatMap_append, List.flatMap_singleton]

/-- A number behind an underscore goes on with the last word. -/
theorem filter_joinWords_append (spaceless : ' ' ∉ number)
    : (joinWords (cs ++ '_' :: number)).filter isAllowed
      = (joinWords cs).filter isAllowed ++ '_' :: number.filter isAllowed := by
  by_cases worded : ' ' ∈ cs
  · -- The last space is the first one of the text read backwards.
    obtain ⟨behind, before, split, solid⟩ :=
      List.eq_append_cons_of_mem (List.mem_reverse.mpr worded)
    have words : cs = before.reverse ++ ' ' :: behind.reverse := by
      rw [← List.reverse_reverse cs, split]
      simp
    have solid : ' ' ∉ behind.reverse := fun member => solid (List.mem_reverse.mp member)
    rw [words, List.append_assoc, List.cons_append,
      joinWords_append_space (by simp [solid, spaceless]), joinWords_append_space solid,
      List.filter_append, List.filter_append, filter_capitalise_append solid spaceless,
      List.append_assoc]
  · rw [joinWords_eq_self worded, joinWords_eq_self (by simp [worded, spaceless]),
      List.filter_append, List.filter_cons_of_pos (by decide)]

/-! ### Whole names -/

variable {text pattern number : String}

theorem toList_append_mark (text number : String)
    : (text ++ "_" ++ number).toList = text.toList ++ '_' :: number.toList := by
  simp

theorem startsWith_append_mark (absent : '_' ∉ pattern.toList)
    (other : text.startsWith pattern = false) (number : String)
    : (text ++ "_" ++ number).startsWith pattern = false := by
  rw [String.startsWith_string_eq_false_iff] at other ⊢
  intro start
  rw [toList_append_mark, List.append_cons] at start
  rcases List.prefix_or_prefix_of_prefix start (List.prefix_append _ _) with short | long
  · rcases List.prefix_concat_iff.mp short with whole | inside
    · exact absent (whole ▸ by simp)
    · exact other inside
  · exact absent (long.subset (by simp))

theorem withoutHost_of_startsWith (pathOf? : String → Option String)
    (lower : text.startsWith "http" = false) (upper : text.startsWith "Http" = false)
    : withoutHost pathOf? text = text := by
  rw [withoutHost, lower, upper]
  rfl

/-- A number is joined to a name by being joined to the text that the name is spelled from. -/
theorem ofRuleWith_append {pathOf? : String → Option String}
    (whole : withoutHost pathOf? text = text)
    (joined : withoutHost pathOf? (text ++ "_" ++ number) = text ++ "_" ++ number)
    (spaceless : ' ' ∉ number.toList)
    : ofRuleWith pathOf? (text ++ "_" ++ number)
      = ofRuleWith pathOf? text ++ "_" ++ String.ofList (number.toList.filter isAllowed) := by
  have mark (cs : List Char) : '_' :: cs = "_".toList ++ cs := rfl
  rw [ofRuleWith, joined, toList_append_mark, filter_joinWords_append spaceless, ofRuleWith, whole,
    mark, ← List.append_assoc, String.ofList_append, String.ofList_append, String.ofList_toList]

/-- A part is named the same whether its number is joined to the whole as it was written or to the
name of the whole. The whole must not begin like an address, as of an address only the path would
count.
-/
theorem ofRule_ofRule_append (lower : text.startsWith "http" = false)
    (upper : text.startsWith "Http" = false) (spaceless : ' ' ∉ number.toList)
    : ofRule (text ++ "_" ++ number) = ofRule (ofRule text ++ "_" ++ number) := by
  have written : withoutHost Url.pathOf? (text ++ "_" ++ number) = text ++ "_" ++ number :=
    withoutHost_of_startsWith _ (startsWith_append_mark (by decide) lower number)
      (startsWith_append_mark (by decide) upper number)
  have uncolon : ':' ∉ (ofRule text).toList := fun member =>
    absurd (isPathChar_of_mem_ofRule ':' member) (by decide)
  have named : withoutHost Url.pathOf? (ofRule text) = ofRule text :=
    withoutHost_eq_self (Url.pathOf?_eq_none uncolon)
  -- The name may begin like an address that the text did not begin like.
  have spelled
      : withoutHost Url.pathOf? (ofRule text ++ "_" ++ number) = ofRule text ++ "_" ++ number :=
    withoutHost_eq_self (Url.pathOf?_append_mark uncolon (toList_append_mark _ _))
  have settled : ofRule (ofRule text) = ofRule text :=
    ofRule_eq_self_iff.mpr isPathChar_of_mem_ofRule
  calc ofRule (text ++ "_" ++ number)
      = ofRule text ++ "_" ++ String.ofList (number.toList.filter isAllowed) :=
        ofRuleWith_append (withoutHost_of_startsWith _ lower upper) written spaceless
    _ = ofRule (ofRule text) ++ "_" ++ String.ofList (number.toList.filter isAllowed) := by
        rw [settled]
    _ = ofRule (ofRule text ++ "_" ++ number) := (ofRuleWith_append named spelled spaceless).symm

end Name

end ClauseRules
