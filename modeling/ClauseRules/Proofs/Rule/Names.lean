import ClauseRules.Rule.Basic
import Mathlib.Data.List.Basic

/-! The ids of rules. An id is the path of a clause, followed by an underscore and what the rule is
for. Paths may hold underscores too, so that an id can be that of two rules, but only if one path
continues another like the ids of the rules about it.
-/

namespace ClauseRules

/-- A text cut in two ways at an underscore: both cuts are the same, or one part has the other cut
in it.
-/
theorem cut_cases {a b c d : List Char} (same : a ++ '_' :: b = c ++ '_' :: d)
    : (a = c ∧ b = d) ∨ (∃ l, c = a ++ '_' :: l ∧ b = l ++ '_' :: d)
      ∨ ∃ l, a = c ++ '_' :: l ∧ d = l ++ '_' :: b := by
  rcases List.append_eq_append_iff.mp same with ⟨l, left, right⟩ | ⟨l, left, right⟩
  · cases l with
    | nil => exact .inl ⟨by simpa using left.symm, by simpa using right⟩
    | cons first l =>
        obtain ⟨rfl, rest⟩ := List.cons.inj right
        exact .inr (.inl ⟨l, left, rest⟩)
  · cases l with
    | nil => exact .inl ⟨by simpa using left, by simpa using right.symm⟩
    | cons first l =>
        obtain ⟨rfl, rest⟩ := List.cons.inj right
        exact .inr (.inr ⟨l, left, rest⟩)

/-- The cut behind a word without underscores is the first one. -/
theorem isPrefix_of_cut {word b c d : List Char} (plain : '_' ∉ word)
    (same : word ++ '_' :: b = c ++ '_' :: d)
    : word <+: c := by
  rcases cut_cases same with ⟨rfl, _⟩ | ⟨l, rfl, _⟩ | ⟨l, rfl, _⟩
  · exact List.prefix_rfl
  · exact List.prefix_append _ _
  · exact absurd (by simp) plain

/-- The cut before a word without underscores is the last one. -/
theorem eq_of_last_cut {a word c other : List Char} (plain : '_' ∉ word) (also : '_' ∉ other)
    (same : a ++ '_' :: word = c ++ '_' :: other)
    : a = c ∧ word = other := by
  rcases cut_cases same with equal | ⟨l, _, rfl⟩ | ⟨l, _, rfl⟩
  · exact equal
  · exact absurd (by simp) plain
  · exact absurd (by simp) also

/-- The cut after a word without underscores is the first one. -/
theorem eq_of_first_cut {word b other d : List Char} (plain : '_' ∉ word) (also : '_' ∉ other)
    (same : word ++ '_' :: b = other ++ '_' :: d)
    : word = other ∧ b = d := by
  rcases cut_cases same with equal | ⟨l, rfl, _⟩ | ⟨l, rfl, _⟩
  · exact equal
  · exact absurd (by simp) also
  · exact absurd (by simp) plain

namespace RulePath

variable {p q : RulePath} {s t : String}

theorem toList_ruleId : (p.ruleId s).toList = p.text.toList ++ '_' :: s.toList := by
  simp [ruleId]

theorem ruleId_injective (same : p.ruleId s = p.ruleId t) : s = t := by
  have same := congrArg String.toList same
  rw [toList_ruleId, toList_ruleId] at same
  exact String.toList_inj.mp (List.cons.inj (List.append_cancel_left same)).2

/-- A path continues another one like the ids of rules that sum up the other clause or carry results
over to it.
-/
def Continues (q p : RulePath) : Prop :=
  q.text = p.text ++ "_Meta" ∨ (p.text ++ "_Transfer").toList <+: q.text.toList

instance : Decidable (q.Continues p) := inferInstanceAs (Decidable (_ ∨ _))

end RulePath

namespace Purpose

/-- The purposes of rules about a section by itself. -/
def own : List Purpose :=
  [.notApplicable, .applicable, .pass, .fail, .metaPass, .metaPassVacuous, .metaFail]

/-- The purposes of rules that carry results over. -/
def transfers : List Purpose := [.transferPass, .transferPassVacuous, .transferFail]

theorem eq_of_suffix_own : ∀ a ∈ own, ∀ b ∈ own, a.suffix = b.suffix → a = b := by decide

theorem eq_of_suffix_transfers : ∀ a ∈ transfers, ∀ b ∈ transfers, a.suffix = b.suffix → a = b := by
  decide

theorem suffix_own {purpose : Purpose} (listed : purpose ∈ own)
    : '_' ∉ purpose.suffix.toList
      ∨ ∃ word : String, '_' ∉ word.toList ∧ purpose.suffix = "Meta_" ++ word := by
  simp only [own, List.mem_cons, List.not_mem_nil, or_false] at listed
  rcases listed with rfl | rfl | rfl | rfl | rfl | rfl | rfl
  · exact .inl (by decide)
  · exact .inl (by decide)
  · exact .inl (by decide)
  · exact .inl (by decide)
  · exact .inr ⟨"Pass", by decide, rfl⟩
  · exact .inr ⟨"Pass2", by decide, rfl⟩
  · exact .inr ⟨"Fail", by decide, rfl⟩

theorem suffix_transfers : ∀ a ∈ transfers, '_' ∉ a.suffix.toList := by decide

theorem head_suffix_own : ∀ a ∈ own, a.suffix.toList.head? ≠ some 'T' := by decide

/-- The purposes of rules about a document. -/
def finals : List Purpose := [.documentFinalPass, .documentFinalFail]

theorem eq_of_suffix_finals : ∀ a ∈ finals, ∀ b ∈ finals, a.suffix = b.suffix → a = b := by decide

theorem last_suffix_finals
    : ∀ a ∈ own ++ transfers, ∀ b ∈ finals,
        a.suffix.toList.getLast? ≠ b.suffix.toList.getLast? := by
  decide

/-- A text that ends with a suffix has its last letter. -/
theorem getLast?_append_suffix {front : String} (purpose : Purpose)
    : (front ++ purpose.suffix).toList.getLast? = purpose.suffix.toList.getLast? := by
  have ends : purpose.suffix.toList.getLast?.isSome = true := by cases purpose <;> decide
  obtain ⟨c, last⟩ := Option.isSome_iff_exists.mp ends
  rw [String.toList_append, List.getLast?_append, last]
  rfl

end Purpose

/-- The id of a rule about a section: it names the purpose, and the section that a result is carried
over from.
-/
inductive Rule.Named (r : Rule) : Prop
  | own (listed : r.purpose ∈ Purpose.own) (id : r.id = r.clause.ruleId r.purpose.suffix)
  | transfer (part : String) (listed : r.purpose ∈ Purpose.transfers)
    (id : r.id = r.clause.ruleId ("Transfer_" ++ part ++ "_" ++ r.purpose.suffix))

namespace Rule.Named

variable {q r : Rule}

/-- Where the text after the path in an id is cut at an underscore, it starts like the names of
summary rules or of rules that carry results over.
-/
theorem exists_suffix (named : r.Named)
    : ∃ s : String,
        r.id = r.clause.ruleId s
        ∧ ∀ l rest, s.toList = l ++ '_' :: rest → l = "Meta".toList ∨ "Transfer".toList <+: l := by
  cases named with
  | own listed id =>
      refine ⟨_, id, fun l rest cut => ?_⟩
      rcases Purpose.suffix_own listed with plain | ⟨word, plain, sums⟩
      · rw [cut] at plain
        exact absurd (by simp) plain
      · -- The only underscore is the one behind the first word.
        have first : "Meta".toList ++ '_' :: word.toList = l ++ '_' :: rest := by
          rw [← cut, sums]
          simp
        rcases cut_cases first with ⟨same, _⟩ | ⟨_, _, later⟩ | ⟨_, earlier, _⟩
        · exact .inl same.symm
        · rw [later] at plain
          exact absurd (by simp) plain
        · have none : '_' ∉ "Meta".toList := by decide
          rw [earlier] at none
          exact absurd (by simp) none
  | transfer part listed id =>
      refine ⟨_, id, fun l rest cut => .inr ?_⟩
      -- The name of the part may have underscores, but they come behind the first word.
      have first
          : "Transfer".toList ++ '_' :: (part ++ "_" ++ r.purpose.suffix).toList
            = l ++ '_' :: rest := by
        rw [← cut]
        simp
      exact isPrefix_of_cut (by decide) first

/-- Rules of one id are about one clause, unless one clause continues the other. -/
theorem clause_or_continues (first : q.Named) (second : r.Named) (same : q.id = r.id)
    : q.clause = r.clause ∨ q.clause.Continues r.clause ∨ r.clause.Continues q.clause := by
  have continues {p other : RulePath} {l : List Char}
      (path : other.text.toList = p.text.toList ++ '_' :: l)
      (begins : l = "Meta".toList ∨ "Transfer".toList <+: l)
      : other.Continues p := by
    rcases begins with rfl | ⟨rest, rfl⟩
    · exact .inl (String.toList_inj.mp (by rw [path]; simp))
    · exact .inr ⟨rest, by rw [path]; simp⟩
  obtain ⟨s, sId, sCut⟩ := first.exists_suffix
  obtain ⟨t, tId, tCut⟩ := second.exists_suffix
  have texts := congrArg String.toList (sId.symm.trans (same.trans tId))
  rw [RulePath.toList_ruleId, RulePath.toList_ruleId] at texts
  rcases cut_cases texts with ⟨paths, _⟩ | ⟨l, path, suffix⟩ | ⟨l, path, suffix⟩
  · exact .inl (congrArg RulePath.mk (String.toList_inj.mp paths))
  · exact .inr (.inr (continues path (sCut l _ suffix)))
  · exact .inr (.inl (continues path (tCut l _ suffix)))

/-- An id ends like the suffix of its purpose. -/
theorem getLast?_id (named : r.Named)
    : r.id.toList.getLast? = r.purpose.suffix.toList.getLast?
      ∧ r.purpose ∈ Purpose.own ++ Purpose.transfers := by
  cases named with
  | own listed id =>
      rw [id, RulePath.ruleId]
      exact ⟨r.purpose.getLast?_append_suffix, List.mem_append_left _ listed⟩
  | transfer part listed id =>
      rw [id, RulePath.ruleId, ← String.append_assoc]
      exact ⟨r.purpose.getLast?_append_suffix, List.mem_append_right _ listed⟩

end Rule.Named

end ClauseRules
