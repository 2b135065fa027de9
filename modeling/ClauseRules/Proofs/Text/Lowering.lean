import ClauseRules.Proofs.Text.Trimming
import ClauseRules.Text.Case

/-! Lower-casing and trimming settle a text at once. Whatever takes the place of a letter is in
lower case itself, and is blank only if the letter was. So a text that was trimmed and lower-cased
has nothing to be trimmed and nothing to be lowered any more.
-/

namespace ClauseRules.Text

/-- Lower-casing leaves the character alone wherever it stands. -/
def IsLower (c : Char) : Prop := lowerChar c = [c] ∧ c ≠ 'Σ'

instance {c : Char} : Decidable (IsLower c) := inferInstanceAs (Decidable (_ ∧ _))

/-! ### The letters of the table -/

namespace CaseRun

variable {run other : CaseRun} {m n : Nat}

/-- Whether none of the partners of a run stands in the other run, where two runs of every second
letter may lie in each other. It is tested by functions that the kernel computes by itself, as it is
for all pairs of runs.
-/
def isApart (run other : CaseRun) : Bool :=
  (run.lower + (run.last - run.first)).blt other.first || other.last.blt run.lower
    || ((run.step.beq 2 || run.last.beq run.first) && other.step.beq 2
      && ((run.lower + 1) % 2).beq (other.first % 2))

theorem lower?_eq_some
    : run.lower? n = some m
      ↔ run.first ≤ n ∧ n ≤ run.last ∧ (n - run.first) % run.step = 0
        ∧ m = run.lower + (n - run.first) := by
  simp only [lower?, Option.ite_none_right_eq_some, Option.some.injEq, Bool.and_eq_true,
    decide_eq_true_eq, beq_iff_eq, and_assoc, eq_comm (a := m)]

theorem lower?_eq_none_of_isApart (apart : run.isApart other = true)
    (found : run.lower? n = some m)
    : other.lower? m = none := by
  obtain ⟨above, below, reached, rfl⟩ := lower?_eq_some.mp found
  refine Option.eq_none_iff_forall_ne_some.mpr fun k again => ?_
  obtain ⟨_, _, hit, _⟩ := lower?_eq_some.mp again
  simp only [isApart, Bool.or_eq_true, Bool.and_eq_true, Nat.blt_eq, Nat.beq_eq] at apart
  rcases apart with (before | after) | ⟨⟨even | single, two⟩, parity⟩
  · omega
  · omega
  · rw [two] at hit
    rw [even] at reached
    omega
  · rw [two] at hit
    omega

end CaseRun

theorem caseRuns_apart
    : (caseRuns.all fun run => caseRuns.all fun other => run.isApart other) = true := by
  decide +kernel

/-- The code point is that of a character in lower case if it is an ASCII character, and of one that
lower-casing looks for in the table otherwise. The character is not blank.
-/
def Tabled (n : Nat) : Prop :=
  n.isValidChar ∧ (0x80 ≤ n ∨ (Char.ofNat n).toLower = Char.ofNat n)
    ∧ n ≠ 'İ'.toNat ∧ n ≠ 'Σ'.toNat ∧ isBlank (Char.ofNat n) = false

instance {n : Nat} : Decidable (Tabled n) := inferInstanceAs (Decidable (_ ∧ _))

theorem caseRuns_tabled
    : ∀ run ∈ caseRuns, ∀ i ≤ run.last - run.first, Tabled (run.lower + i) := by
  decide +kernel

theorem ascii_lower
    : ∀ n < 0x80,
        IsLower (Char.ofNat n).toLower
        ∧ (isBlank (Char.ofNat n) = false → isBlank (Char.ofNat n).toLower = false) := by
  decide +kernel

/-! ### Characters -/

theorem toNat_ofNat {n : Nat} (valid : n.isValidChar) : (Char.ofNat n).toNat = n := by
  rw [Char.ofNat, dif_pos valid]
  rfl

theorem lowerChar_ascii {c : Char} (ascii : c.toNat < 0x80) : lowerChar c = [c.toLower] := by
  rw [lowerChar, if_pos ascii]

/-- Beyond ASCII, a letter that has one partner is looked for in the table. -/
theorem lowerChar_tabled {c : Char} (beyond : ¬c.toNat < 0x80) (notDotted : c ≠ 'İ')
    : lowerChar c = (caseRuns.findSome? (·.lower? c.toNat)).elim [c] ([Char.ofNat ·]) := by
  rw [lowerChar, if_neg beyond, if_neg (by simpa using notDotted)]
  cases caseRuns.findSome? (·.lower? c.toNat) with
  | some n => rfl
  | none => rfl

/-- The partner of a letter has no partner. -/
theorem isLower_of_lower? {run : CaseRun} {m n : Nat} (listed : run ∈ caseRuns)
    (found : run.lower? n = some m)
    : IsLower (Char.ofNat m) ∧ isBlank (Char.ofNat m) = false := by
  obtain ⟨above, below, _, place⟩ := CaseRun.lower?_eq_some.mp found
  obtain ⟨valid, ascii, notDotted, notSigma, solid⟩ : Tabled m := by
    rw [place]
    exact caseRuns_tabled run listed _ (Nat.sub_le_sub_right below _)
  have alone : caseRuns.findSome? (·.lower? m) = none := by
    refine List.findSome?_eq_none_iff.mpr fun other member => ?_
    have apart := List.all_eq_true.mp (List.all_eq_true.mp caseRuns_apart run listed) other member
    exact CaseRun.lower?_eq_none_of_isApart apart found
  have code := toNat_ofNat valid
  have isNot {c : Char} (differs : m ≠ c.toNat) : Char.ofNat m ≠ c := by
    rintro rfl
    exact differs code.symm
  refine ⟨⟨?_, isNot notSigma⟩, solid⟩
  by_cases low : m < 0x80
  · rw [lowerChar_ascii (by rwa [code]), ascii.resolve_left (Nat.not_le.mpr low)]
  · rw [lowerChar_tabled (by rwa [code]) (isNot notDotted), code, alone, Option.elim_none]

/-- The characters can take the place of another one: they are in lower case, and blank only if that
one is.
-/
structure Lowers (c : Char) (ds : List Char) : Prop where
  some : ds ≠ []
  lower : ∀ d ∈ ds, IsLower d
  solid : isBlank c = false → ∀ d ∈ ds, isBlank d = false

theorem lowers_singleton {c d : Char} (lower : IsLower d)
    (solid : isBlank c = false → isBlank d = false)
    : Lowers c [d] :=
  ⟨List.cons_ne_nil _ _, List.forall_mem_singleton.mpr lower,
    fun blank => List.forall_mem_singleton.mpr (solid blank)⟩

theorem lowers_lowerChar {c : Char} (other : c ≠ 'Σ') : Lowers c (lowerChar c) := by
  by_cases ascii : c.toNat < 0x80
  · obtain ⟨lower, solid⟩ := Char.ofNat_toNat c ▸ ascii_lower c.toNat ascii
    rw [lowerChar_ascii ascii]
    exact lowers_singleton lower solid
  · by_cases dotted : c = 'İ'
    · -- The only character that two take the place of.
      subst dotted
      have dot : IsLower '\u0307' ∧ isBlank '\u0307' = false := by decide +kernel
      have same : lowerChar 'İ' = ['i', '\u0307'] := rfl
      rw [same]
      exact ⟨List.cons_ne_nil _ _, by simpa using ⟨by decide, dot.1⟩,
        by simpa using fun _ => ⟨by decide, dot.2⟩⟩
    · have tabled := lowerChar_tabled ascii dotted
      cases found : caseRuns.findSome? (·.lower? c.toNat) with
      | some m =>
          obtain ⟨run, listed, partner⟩ := List.exists_of_findSome?_eq_some found
          obtain ⟨lower, solid⟩ := isLower_of_lower? listed partner
          rw [tabled, found, Option.elim_some]
          exact lowers_singleton lower fun _ => solid
      | none =>
          rw [found, Option.elim_none] at tabled
          rw [tabled]
          exact lowers_singleton ⟨tabled, other⟩ id

/-! ### Texts -/

variable {before cs rest : List Char} {c : Char}

/-- A text is lower-cased character by character from its front. -/
theorem lowerFrom_cons (before : List Char) (c : Char) (rest : List Char)
    : ∃ ds, lowerFrom before (c :: rest) = ds ++ lowerFrom (c :: before) rest ∧ Lowers c ds := by
  by_cases sigma : c = 'Σ'
  · subst sigma
    refine ⟨[lowerSigma before rest], rfl, ?_⟩
    rw [lowerSigma]
    split
    all_goals exact lowers_singleton (by decide +kernel) (by decide)
  · exact ⟨lowerChar c, by simp only [lowerFrom, beq_eq_false_iff_ne.mpr sigma,
      Bool.false_eq_true, if_false], lowers_lowerChar sigma⟩

theorem isLower_of_mem_lowerFrom : ∀ d ∈ lowerFrom before cs, IsLower d := by
  induction cs generalizing before with
  | nil => exact List.forall_mem_nil _
  | cons c rest ih =>
      obtain ⟨ds, same, lowers⟩ := lowerFrom_cons before c rest
      rw [same]
      exact List.forall_mem_append.mpr ⟨lowers.lower, ih⟩

theorem lowerFrom_of_isLower (lower : ∀ c ∈ cs, IsLower c) : lowerFrom before cs = cs := by
  induction cs generalizing before with
  | nil => rfl
  | cons c rest ih =>
      obtain ⟨⟨same, other⟩, later⟩ := List.forall_mem_cons.mp lower
      simp only [lowerFrom, beq_eq_false_iff_ne.mpr other, Bool.false_eq_true, if_false, same,
        ih later, List.singleton_append]

/-- Of ASCII texts every character is lower-cased by itself. -/
theorem lowerFrom_ascii (ascii : ∀ c ∈ cs, c.toNat < 0x80)
    : lowerFrom before cs = cs.map Char.toLower := by
  induction cs generalizing before with
  | nil => rfl
  | cons c rest ih =>
      obtain ⟨here, later⟩ := List.forall_mem_cons.mp ascii
      have other : (c == 'Σ') = false := by
        refine beq_eq_false_iff_ne.mpr ?_
        rintro rfl
        exact absurd here (by decide)
      simp only [lowerFrom, other, Bool.false_eq_true, if_false, lowerChar_ascii here, ih later,
        List.map_cons, List.singleton_append]

theorem lowerFrom_concat (before front : List Char) (c : Char)
    : ∃ es ds, lowerFrom before (front ++ [c]) = es ++ ds ∧ Lowers c ds := by
  induction front generalizing before with
  | nil =>
      obtain ⟨ds, same, lowers⟩ := lowerFrom_cons before c []
      exact ⟨[], ds, by simpa [lowerFrom] using same, lowers⟩
  | cons b front ih =>
      obtain ⟨es, ds, same, last⟩ := ih (b :: before)
      obtain ⟨bs, first, _⟩ := lowerFrom_cons before b (front ++ [c])
      exact ⟨bs ++ es, ds, by rw [List.cons_append, first, same, List.append_assoc], last⟩

/-- Lower-casing leaves no blank at an end where there was none. -/
theorem Trimmed.lowerFrom (trimmed : Trimmed cs) : Trimmed (lowerFrom before cs) := by
  constructor
  · intro d first
    cases cs with
    | nil => simp [Text.lowerFrom] at first
    | cons c rest =>
        obtain ⟨ds, same, lowers⟩ := lowerFrom_cons before c rest
        rw [same, List.head?_append_of_ne_nil _ lowers.some] at first
        exact lowers.solid (trimmed.first c rfl) d (List.mem_of_mem_head? first)
  · intro d last
    rcases List.eq_nil_or_concat cs with rfl | ⟨front, c, rfl⟩
    · simp [Text.lowerFrom] at last
    · rw [List.concat_eq_append] at last trimmed
      obtain ⟨es, ds, same, lowers⟩ := lowerFrom_concat before front c
      rw [same, List.getLast?_append_of_ne_nil _ lowers.some] at last
      exact lowers.solid (trimmed.last c (by simp)) d (List.mem_of_getLast? last)

/-- A text that was trimmed and lower-cased stays as it is when this is done again. -/
theorem lower_trim_lower_trim (s : String) : lower (trim (lower (trim s))) = lower (trim s) := by
  have trimmed : Trimmed (lowerFrom [] (trimChars s.toList)) := (trimmed_trimChars _).lowerFrom
  simp only [lower, trim, String.toList_ofList, trimmed.trimChars_eq,
    lowerFrom_of_isLower isLower_of_mem_lowerFrom]

end ClauseRules.Text
