import ClauseRules.Proofs.Rule.Transitivity
import ClauseRules.Proofs.Sorted.Order
import ClauseRules.Proofs.Text.Legible
import ClauseRules.Rule.Fingerprint

/-! What a fingerprint is taken from tells sets of rules apart. Rules are kept in an order of their
own, so that a set has one binary form however it was put together, and the binary form can be read:
every alternative starts with its number and every text and list with its length.
-/

namespace ClauseRules

open Std (LawfulEqOrd)

namespace Bytes

/-- The least length that does not go into four bytes. -/
def limit : Nat := 4294967296

/-- The length of the text goes into four bytes. -/
def Fits (s : String) : Prop := s.utf8ByteSize < limit

instance {s : String} : Decidable (Fits s) := inferInstanceAs (Decidable (_ < _))

theorem eq_of_toUInt8_eq {n m : Nat} (same : n.toUInt8 = m.toUInt8) : n % 256 = m % 256 := by
  simpa using congrArg UInt8.toNat same

theorem ofLength_legible : Legible (· < limit) ofLength := by
  intro n m first second rest more same
  simp only [ofLength, List.cons_append, List.nil_append, List.cons.injEq] at same
  obtain ⟨b₀, b₁, b₂, b₃, same⟩ := same
  have h₀ := eq_of_toUInt8_eq b₀
  have h₁ := eq_of_toUInt8_eq b₁
  have h₂ := eq_of_toUInt8_eq b₂
  have h₃ := eq_of_toUInt8_eq b₃
  simp only [limit] at first second
  exact ⟨by omega, same⟩

theorem toList_loop (bytes : ByteArray) (i : Nat) (before : List UInt8)
    : ByteArray.toList.loop bytes i before = before.reverse ++ bytes.data.toList.drop i := by
  fun_induction ByteArray.toList.loop bytes i before with
  | case1 i before inside ih =>
      have inside : i < bytes.data.toList.length := inside
      have here : bytes.get! i = bytes.data.toList[i] := getElem!_pos bytes.data i inside
      rw [ih, List.drop_eq_getElem_cons inside, here, List.reverse_cons, List.append_assoc,
        List.singleton_append]
  | case2 i before outside =>
      have outside : bytes.data.toList.length ≤ i := Nat.le_of_not_lt outside
      rw [List.drop_eq_nil_of_le outside, List.append_nil]

theorem toList_toUTF8 (s : String) : s.toUTF8.toList = s.toByteArray.data.toList :=
  toList_loop _ 0 []

theorem ofText_legible : Legible Fits ofText := by
  intro s t first second rest more same
  simp only [ofText, toList_toUTF8, List.append_assoc] at same
  obtain ⟨length, later⟩ := ofLength_legible first second same
  obtain ⟨bytes, after⟩ := List.append_inj later length
  exact ⟨String.toByteArray_inj.mp (ByteArray.ext (Array.toList_inj.mp bytes)), after⟩

/-- Alternatives that are numbered with one byte each. -/
theorem legible_rank {α : Type} {rank : α → Nat} (small : ∀ a, rank a < 256)
    (injective : ∀ a b, rank a = rank b → a = b)
    : Legible (fun _ : α => True) fun a => [(rank a).toUInt8] := by
  intro a b _ _ rest more same
  simp only [List.singleton_append, List.cons.injEq] at same
  have ranks := eq_of_toUInt8_eq same.1
  rw [Nat.mod_eq_of_lt (small a), Nat.mod_eq_of_lt (small b)] at ranks
  exact ⟨injective a b ranks, same.2⟩

theorem ofBool_legible : Legible (fun _ => True) ofBool := by
  intro a b _ _ rest more same
  cases a <;> cases b <;> simp_all [ofBool]

theorem ofOptionalText_legible : Legible (∀ s ∈ ·, Fits s) ofOptionalText := by
  intro s t first second rest more same
  cases s with
  | none =>
      cases t with
      | none => exact ⟨rfl, by simpa [ofOptionalText] using same⟩
      | some t => simp [ofOptionalText] at same
  | some s =>
      cases t with
      | none => simp [ofOptionalText] at same
      | some t =>
          simp only [ofOptionalText, List.cons_append, List.cons.injEq, true_and] at same
          obtain ⟨rfl, after⟩ := ofText_legible (first s rfl) (second t rfl) same
          exact ⟨rfl, after⟩

end Bytes

open Bytes (Fits ofText_legible ofLength_legible legible_rank)

/-! ### Tests, statuses and effects -/

/-- An order by rank tells values apart by their ranks. -/
theorem eq_of_rank {α : Type} [Ord α] [LawfulEqOrd α] {rank : α → Nat}
    (byRank : ∀ a b : α, compare a b = compare (rank a) (rank b)) (a b : α)
    (same : rank a = rank b)
    : a = b := by
  refine LawfulEqOrd.eq_of_compare ?_
  rw [byRank, same, Nat.compare_eq_eq]

theorem Status.bytes_legible : Legible (fun _ => True) Status.bytes :=
  legible_rank (fun s => by cases s <;> decide) (eq_of_rank fun _ _ => rfl)

theorem Outcome.bytes_legible : Legible (fun _ => True) Outcome.bytes :=
  legible_rank (fun o => by cases o <;> decide) (eq_of_rank fun _ _ => rfl)

theorem Purpose.rank_legible : Legible (fun _ => True) fun p : Purpose => [p.rank.toUInt8] :=
  legible_rank (fun p => by cases p <;> decide) (eq_of_rank fun _ _ => rfl)

theorem RulePath.bytes_legible : Legible (Fits ·.text) RulePath.bytes := by
  intro p q first second rest more same
  obtain ⟨text, after⟩ := ofText_legible first second same
  exact ⟨congrArg RulePath.mk text, after⟩

/-- The token of a comparator that is none of the known ones is short enough. -/
def Comparator.Fits (c : Comparator) : Prop := Bytes.Fits c.token

instance {c : Comparator} : Decidable c.Fits := inferInstanceAs (Decidable (Bytes.Fits _))

theorem Comparator.bytes_legible : Legible Comparator.Fits Comparator.bytes := by
  intro c d first second rest more same
  have small : ∀ c : Comparator, c.rank < 256 := fun c => by cases c <;> simp [rank]
  simp only [bytes, List.cons_append, List.cons.injEq] at same
  have ranks := Bytes.eq_of_toUInt8_eq same.1
  rw [Nat.mod_eq_of_lt (small c), Nat.mod_eq_of_lt (small d)] at ranks
  cases c <;> cases d <;> simp only [rank, Nat.reduceEqDiff] at ranks
  case unrecognised.unrecognised s t =>
    obtain ⟨rfl, after⟩ := ofText_legible first second same.2
    exact ⟨rfl, after⟩
  all_goals exact ⟨rfl, same.2⟩

/-- The texts of the test are short enough. -/
structure PropertyTest.Fits (t : PropertyTest) : Prop where
  property : Bytes.Fits t.property
  comparator : t.comparator.Fits
  value : Bytes.Fits t.value
  unit : Bytes.Fits t.unit

theorem PropertyTest.bytes_legible : Legible PropertyTest.Fits PropertyTest.bytes := by
  rintro ⟨p, c, v, u⟩ ⟨q, d, w, x⟩ first second rest more same
  simp only [bytes, List.append_assoc] at same
  obtain ⟨property, same⟩ := ofText_legible first.property second.property same
  obtain ⟨comparator, same⟩ := Comparator.bytes_legible first.comparator second.comparator same
  obtain ⟨value, same⟩ := ofText_legible first.value second.value same
  obtain ⟨unit, after⟩ := ofText_legible first.unit second.unit same
  exact ⟨by rw [PropertyTest.mk.injEq]; exact ⟨property, comparator, value, unit⟩, after⟩

namespace Effect

/-- The path is short enough and so is the list of statuses. -/
def Fits : Effect → Prop
  | .setStatus target statuses => Bytes.Fits target.text ∧ statuses.length < Bytes.limit
  | .insertResult rule _ => Bytes.Fits rule.text

theorem bytes_legible : Legible Effect.Fits Effect.bytes := by
  intro e f first second rest more same
  cases e <;> cases f <;>
    simp only [bytes, List.cons_append, List.cons.injEq, List.append_assoc, true_and] at same
  case setStatus.setStatus p as q bs =>
    obtain ⟨target, same⟩ := RulePath.bytes_legible first.1 second.1 same
    obtain ⟨length, same⟩ := ofLength_legible first.2 second.2 same
    obtain ⟨statuses, after⟩ :=
      Status.bytes_legible.flatMap (fun _ _ => trivial) (fun _ _ => trivial) length same
    exact ⟨by rw [target, statuses], after⟩
  case insertResult.insertResult p o q u =>
    obtain ⟨rule, same⟩ := RulePath.bytes_legible first second same
    obtain ⟨outcome, after⟩ := Outcome.bytes_legible trivial trivial same
    exact ⟨by rw [rule, outcome], after⟩
  all_goals exact absurd same.1 (by decide)

end Effect

/-! ### Conditions and rules -/

namespace Condition

mutual

/-- All texts and lists of the condition are short enough. -/
def Fits : Condition → Prop
  | .test t => t.Fits
  | .status target _ _ => Bytes.Fits target.text
  | .not inner => Fits inner
  | .and terms => terms.length < Bytes.limit ∧ FitAll terms
  | .or terms => terms.length < Bytes.limit ∧ FitAll terms
  | .forAll range consequence => Fits range ∧ Fits consequence
  | .forSome inner => Fits inner
  | .forNone inner => Fits inner
  | .result rule _ => Bytes.Fits rule.text

def FitAll : List Condition → Prop
  | [] => True
  | term :: rest => Fits term ∧ FitAll rest

end

mutual

theorem bytes_append_inj (a b : Condition) {rest more : List UInt8} (first : a.Fits)
    (second : b.Fits) (same : a.bytes ++ rest = b.bytes ++ more)
    : a = b ∧ rest = more := by
  -- The first byte tells the constructors apart, so only the cases of two equal ones are open.
  cases a <;> cases b <;>
    simp only [bytes, List.cons_append, List.cons.injEq, List.append_assoc, true_and] at same
  case test.test s t =>
    obtain ⟨rfl, after⟩ := PropertyTest.bytes_legible first second same
    exact ⟨rfl, after⟩
  case status.status p s m q t n =>
    obtain ⟨target, same⟩ := RulePath.bytes_legible first second same
    obtain ⟨status, same⟩ := Status.bytes_legible trivial trivial same
    obtain ⟨negated, after⟩ := Bytes.ofBool_legible trivial trivial same
    exact ⟨by rw [target, status, negated], after⟩
  case not.not a b =>
    obtain ⟨inner, after⟩ := bytes_append_inj a b first second same
    exact ⟨by rw [inner], after⟩
  case and.and as bs =>
    obtain ⟨length, same⟩ := ofLength_legible first.1 second.1 same
    obtain ⟨terms, after⟩ := bytesOfTerms_append_inj as bs first.2 second.2 length same
    exact ⟨by rw [terms], after⟩
  case or.or as bs =>
    obtain ⟨length, same⟩ := ofLength_legible first.1 second.1 same
    obtain ⟨terms, after⟩ := bytesOfTerms_append_inj as bs first.2 second.2 length same
    exact ⟨by rw [terms], after⟩
  case forAll.forAll a c b d =>
    obtain ⟨range, same⟩ := bytes_append_inj a b first.1 second.1 same
    obtain ⟨consequence, after⟩ := bytes_append_inj c d first.2 second.2 same
    exact ⟨by rw [range, consequence], after⟩
  case forSome.forSome a b =>
    obtain ⟨inner, after⟩ := bytes_append_inj a b first second same
    exact ⟨by rw [inner], after⟩
  case forNone.forNone a b =>
    obtain ⟨inner, after⟩ := bytes_append_inj a b first second same
    exact ⟨by rw [inner], after⟩
  case result.result p o q u =>
    obtain ⟨rule, same⟩ := RulePath.bytes_legible first second same
    obtain ⟨outcome, after⟩ := Outcome.bytes_legible trivial trivial same
    exact ⟨by rw [rule, outcome], after⟩
  all_goals exact absurd same.1 (by decide)
termination_by sizeOf a

theorem bytesOfTerms_append_inj (as bs : List Condition) {rest more : List UInt8}
    (first : FitAll as) (second : FitAll bs) (length : as.length = bs.length)
    (same : bytesOfTerms as ++ rest = bytesOfTerms bs ++ more)
    : as = bs ∧ rest = more := by
  cases as with
  | nil =>
      cases bs with
      | nil => exact ⟨rfl, same⟩
      | cons b bs => simp at length
  | cons a as =>
      cases bs with
      | nil => simp at length
      | cons b bs =>
          simp only [bytesOfTerms, List.append_assoc] at same
          obtain ⟨here, same⟩ := bytes_append_inj a b first.1 second.1 same
          obtain ⟨others, after⟩ :=
            bytesOfTerms_append_inj as bs first.2 second.2 (Nat.succ.inj length) same
          exact ⟨by rw [here, others], after⟩
termination_by sizeOf as

end

theorem bytes_legible : Legible Condition.Fits Condition.bytes :=
  fun a b first second _ _ => bytes_append_inj a b first second

end Condition

/-- All texts and lists of the rule are short enough. -/
structure Rule.Fits (r : Rule) : Prop where
  id : Bytes.Fits r.id
  clause : Bytes.Fits r.clause.text
  entityType : ∀ object ∈ r.entityType, Bytes.Fits object
  guard : r.guard.Fits
  effect : r.effect.Fits

theorem Rule.bytes_legible : Legible Rule.Fits Rule.bytes := by
  rintro ⟨i, p, u, t, g, e⟩ ⟨j, q, v, s, h, f⟩ first second rest more same
  simp only [bytes, List.append_assoc] at same
  obtain ⟨id, same⟩ := ofText_legible first.id second.id same
  obtain ⟨clause, same⟩ := RulePath.bytes_legible first.clause second.clause same
  obtain ⟨purpose, same⟩ := Purpose.rank_legible trivial trivial same
  obtain ⟨entityType, same⟩ :=
    Bytes.ofOptionalText_legible first.entityType second.entityType same
  obtain ⟨guard, same⟩ := Condition.bytes_legible first.guard second.guard same
  obtain ⟨effect, after⟩ := Effect.bytes_legible first.effect second.effect same
  exact ⟨by rw [Rule.mk.injEq]; exact ⟨id, clause, purpose, entityType, guard, effect⟩, after⟩

/-! ### Sets of rules -/

namespace RuleSet

/-- The set that results when the rules are put in, one by one or several at once. -/
inductive Gathers : List Rule → RuleSet → Prop
  | none : Gathers [] ∅
  | insert {rs : List Rule} {s : RuleSet} (before : Gathers rs s) (r : Rule)
    : Gathers (rs ++ [r]) (s.insert r)
  | extend {rs : List Rule} {s : RuleSet} (before : Gathers rs s) (more : List Rule)
    : Gathers (rs ++ more) (s.insertAll more)

variable {rs qs : List Rule} {s t : RuleSet}

theorem Gathers.mem_iff (gathers : Gathers rs s) {r : Rule} : r ∈ s ↔ r ∈ rs := by
  induction gathers with
  | none => simp
  | insert _ _ ih => simp [ih, or_comm]
  | extend _ _ ih => simp [ih, or_comm]

theorem Gathers.increasing (gathers : Gathers rs s) : s.Increasing := by
  induction gathers with
  | none => exact SortedSet.increasing_empty
  | insert _ r ih => exact ih.insert r
  | extend _ more ih => exact ih.insertAll more

/-- The binary form of a set tells its rules. -/
theorem eq_of_bytes_eq (first : ∀ r ∈ s, r.Fits) (second : ∀ r ∈ t, r.Fits)
    (size : s.size < Bytes.limit) (also : t.size < Bytes.limit) (same : s.bytes = t.bytes)
    : s = t := by
  simp only [bytes] at same
  obtain ⟨length, later⟩ := ofLength_legible size also same
  obtain ⟨rules, _⟩ :=
    Rule.bytes_legible.flatMap first second length (congrArg (· ++ []) later)
  cases s
  cases t
  exact congrArg SortedSet.mk rules

/-- Rules that were put into two sets, in any order and as often as one likes, lead to the same
binary form exactly if they are the same rules. So the binary form tells the sets apart, and sets of
the same rules have the same fingerprint.
-/
theorem bytes_eq_iff (first : Gathers rs s) (second : Gathers qs t) (fits : ∀ r ∈ rs, r.Fits)
    (also : ∀ r ∈ qs, r.Fits) (size : s.size < Bytes.limit) (size' : t.size < Bytes.limit)
    : (s.bytes = t.bytes ↔ ∀ r, r ∈ rs ↔ r ∈ qs)
      ∧ (s.bytes = t.bytes → s = t)
      ∧ ((∀ r, r ∈ rs ↔ r ∈ qs) → s.fingerprint = t.fingerprint) := by
  have told : s.bytes = t.bytes → s = t :=
    eq_of_bytes_eq (fun r member => fits r (first.mem_iff.mp member))
      (fun r member => also r (second.mem_iff.mp member)) size size'
  have gathered : s = t ↔ ∀ r, r ∈ rs ↔ r ∈ qs := by
    constructor
    · rintro rfl r
      rw [← first.mem_iff, second.mem_iff]
    · intro same
      refine first.increasing.ext second.increasing fun r => ?_
      rw [first.mem_iff, second.mem_iff, same r]
  refine ⟨⟨fun same => gathered.mp (told same), fun same => ?_⟩, told, fun same => ?_⟩
  · rw [gathered.mpr same]
  · rw [gathered.mpr same]

/-- A rule with several sorts of conditions in its guard. -/
def wideDoor : Rule where
  id := "/b/s1_Pass"
  clause := ⟨"/b/s1"⟩
  purpose := .pass
  entityType := some "door"
  guard := .and [
    .not (.or [.lacks ⟨"/b/s1"⟩ .fail, .and []]),
    .forSome (.test ⟨"Width", .unrecognised "about", "0.9", "m"⟩)]
  effect := .setStatus ⟨"/b/s1"⟩ [.applicable, .pass]

/-- A rule that matches no entity. -/
def someDoor : Rule where
  id := "/b/s1_Meta_Fail"
  clause := ⟨"/b/s1"⟩
  purpose := .metaFail
  entityType := none
  guard := .forAll (.has ⟨"/b/s1"⟩ .fail) (.not (.result ⟨"/b/s1"⟩ .fail))
  effect := .insertResult ⟨"/b/s1"⟩ .fail

theorem wideDoor_fits : wideDoor.Fits where
  id := by decide
  clause := by decide
  entityType := by rintro _ ⟨⟩; decide
  guard := by
    simp only [wideDoor, Condition.lacks, Condition.Fits, Condition.FitAll]
    exact ⟨by decide, ⟨by decide, by decide, ⟨by decide, trivial⟩, trivial⟩,
      ⟨by decide, by decide, by decide, by decide⟩, trivial⟩
  effect := ⟨by decide, by decide⟩

theorem someDoor_fits : someDoor.Fits where
  id := by decide
  clause := by decide
  entityType := nofun
  guard := by
    simp only [someDoor, Condition.has, Condition.Fits]
    exact ⟨by decide, by decide⟩
  effect := show Fits _ by decide

/-- Two rules, one of which is put in twice. -/
def repeatedDoors : RuleSet := ((∅ : RuleSet).insert wideDoor).insertAll [someDoor, wideDoor]

/-- The same rules, put in at once and the other way round. -/
def reversedDoors : RuleSet := (∅ : RuleSet).insertAll [someDoor, wideDoor]

theorem bytes_eq_iff_doors
    : Gathers [wideDoor, someDoor, wideDoor] repeatedDoors
      ∧ Gathers [someDoor, wideDoor] reversedDoors
      ∧ (∀ r ∈ [wideDoor, someDoor, wideDoor], r.Fits) ∧ (∀ r ∈ [someDoor, wideDoor], r.Fits)
      ∧ repeatedDoors.size < Bytes.limit ∧ reversedDoors.size < Bytes.limit
      ∧ RuleSet.bytes repeatedDoors = RuleSet.bytes reversedDoors := by
  have first : Gathers [wideDoor, someDoor, wideDoor] repeatedDoors :=
    (Gathers.none.insert wideDoor).extend [someDoor, wideDoor]
  have second : Gathers [someDoor, wideDoor] reversedDoors :=
    Gathers.none.extend [someDoor, wideDoor]
  have fits : ∀ r ∈ [wideDoor, someDoor, wideDoor], r.Fits := by
    simp [wideDoor_fits, someDoor_fits]
  have also : ∀ r ∈ [someDoor, wideDoor], r.Fits := by
    simp [wideDoor_fits, someDoor_fits]
  have size : repeatedDoors.size < Bytes.limit := by decide +kernel
  have size' : reversedDoors.size < Bytes.limit := by decide +kernel
  have members : ∀ r, r ∈ [wideDoor, someDoor, wideDoor] ↔ r ∈ [someDoor, wideDoor] := by
    intro r
    simp only [List.mem_cons, List.not_mem_nil, or_false]
    tauto
  exact ⟨first, second, fits, also, size, size',
    (bytes_eq_iff first second fits also size size').1.mpr members⟩

end RuleSet

end ClauseRules
