import ClauseRules.Dictionary.Basic
import ClauseRules.Proofs.Text.Lowering
import Mathlib

/-! Names are spelled in one way. Spelling brings any text into the alphabet of names and leaves a
text alone that it has spelled before: nothing in the alphabet is the address of a resource, and no
word is left that would be capitalised once more. What a dictionary finds under a name does not
depend on whether the name was spelled already.
-/

namespace ClauseRules

/-! ### Addresses -/

namespace Url

variable {isSeparator : Char → Bool} {c : Char} {cs part : List Char} {text : String}

theorem splitAt_ne_nil (isSeparator : Char → Bool) (cs : List Char)
    : splitAt isSeparator cs ≠ [] := by
  cases cs with
  | nil => exact List.cons_ne_nil _ _
  | cons c rest =>
      simp only [splitAt]
      split
      · split <;> exact List.cons_ne_nil _ _
      · exact List.cons_ne_nil _ _

/-- A separator starts a new part, anything else joins the first part of the rest. -/
theorem exists_splitAt_cons (isSeparator : Char → Bool) (c : Char) (rest : List Char)
    : ∃ part parts,
        splitAt isSeparator rest = part :: parts
        ∧ splitAt isSeparator (c :: rest)
          = if isSeparator c then [] :: part :: parts else (c :: part) :: parts := by
  obtain ⟨part, parts, same⟩ := List.exists_cons_of_ne_nil (splitAt_ne_nil isSeparator rest)
  exact ⟨part, parts, same, by simp only [splitAt, same]⟩

theorem length_splitAt (isSeparator : Char → Bool) (cs : List Char)
    : (splitAt isSeparator cs).length = cs.countP isSeparator + 1 := by
  induction cs with
  | nil => rfl
  | cons c rest ih =>
      obtain ⟨part, parts, same, step⟩ := exists_splitAt_cons isSeparator c rest
      rw [same, List.length_cons] at ih
      rw [step, List.countP_cons]
      split
      · rw [List.length_cons, List.length_cons, ih]
      · rw [List.length_cons, ih, Nat.add_zero]

theorem not_isSeparator_of_mem_splitAt (member : part ∈ splitAt isSeparator cs)
    : ∀ c ∈ part, isSeparator c = false := by
  induction cs generalizing part with
  | nil =>
      obtain rfl := List.mem_singleton.mp member
      exact List.forall_mem_nil _
  | cons c rest ih =>
      obtain ⟨first, parts, same, step⟩ := exists_splitAt_cons isSeparator c rest
      rw [same] at ih
      rw [step] at member
      split at member
      · rcases List.mem_cons.mp member with rfl | later
        · exact List.forall_mem_nil _
        · exact ih later
      case isFalse joins =>
        rcases List.mem_cons.mp member with rfl | later
        · exact List.forall_mem_cons.mpr
            ⟨Bool.eq_false_iff.mpr joins, ih List.mem_cons_self⟩
        · exact ih (List.mem_cons_of_mem _ later)

/-- A text without separators is its only part. -/
theorem splitAt_eq_singleton (none : ∀ c ∈ cs, isSeparator c = false)
    : splitAt isSeparator cs = [cs] := by
  induction cs with
  | nil => rfl
  | cons c rest ih =>
      obtain ⟨here, later⟩ := List.forall_mem_cons.mp none
      simp only [splitAt, ih later, here, Bool.false_eq_true, if_false]

theorem clean_subset (cs : List Char) : clean cs ⊆ cs := fun _ member =>
  (List.dropWhile_sublist _).subset (Text.dropLastWhile_subset _ _ (List.mem_filter.mp member).1)

theorem scheme?_eq_none (absent : ':' ∉ cs) : scheme? cs = none := by
  have behind : ':' ∉ cs.dropWhile isSchemeChar := fun member =>
    absent ((List.dropWhile_sublist _).subset member)
  simp only [scheme?, List.span_eq_takeWhile_dropWhile]
  split
  case h_1 same => exact absurd (same ▸ List.mem_cons_self) behind
  case h_2 => rfl

/-- An absolute address has a colon behind its scheme. -/
theorem pathOf?_eq_none (absent : ':' ∉ text.toList) : pathOf? text = none := by
  have noScheme := scheme?_eq_none fun member => absent (clean_subset _ member)
  rw [pathOf?, noScheme]
  rfl

end Url

namespace Name

open Text (Trimmed isBlank trimChars)

variable {c d : Char} {cs : List Char} {text : String} {afterLetter : Bool}
  {pathOf? : String → Option String}

/-! ### The alphabet -/

/-- The characters of the names of rules: ASCII letters and digits, hyphen, slash and underscore. -/
def isPathChar (c : Char) : Bool := c.isAlphanum || c == '-' || c == '/' || c == '_'

theorem isAllowed_iff : isAllowed c = true ↔ isPathChar c = true ∨ c = ' ' := by
  simp only [isAllowed, isPathChar, Bool.or_eq_true, beq_iff_eq]
  tauto

theorem isAllowed_of_isAlpha (letter : c.isAlpha = true) : isAllowed c = true := by
  simp [isAllowed, Char.isAlphanum, letter]

theorem isAllowed_toUpper (letter : c.isAlpha = true) : isAllowed c.toUpper = true :=
  isAllowed_of_isAlpha (by rwa [Char.isAlpha_toUpper_eq_isAlpha])

theorem isAllowed_toLower (allowed : isAllowed c = true) : isAllowed c.toLower = true := by
  by_cases upper : c.isUpper = true
  · have letter : c.isAlpha = true := by simp [Char.isAlpha, upper]
    exact isAllowed_of_isAlpha (by rwa [Char.isAlpha_toLower_eq_isAlpha])
  · rwa [Char.toLower_eq_of_not_isUpper upper]

theorem ascii_of_isAllowed (allowed : isAllowed c = true) : c.toNat < 0x80 := by
  simp only [isAllowed, Char.isAlphanum, Char.isAlpha, Char.isUpper, Char.isLower, Char.isDigit,
    Bool.or_eq_true, Bool.and_eq_true, decide_eq_true_eq, beq_iff_eq, UInt32.le_iff_toNat_le]
    at allowed
  rcases allowed with ((((((⟨_, last⟩ | ⟨_, last⟩) | ⟨_, last⟩) | rfl) | rfl) | rfl) | rfl)
  all_goals first | decide | exact Nat.lt_of_le_of_lt last (by decide)

/-- The only blank of the alphabet is the space. -/
theorem isBlank_of_isPathChar (inside : isPathChar c = true) : isBlank c = false := by
  have ascii := ascii_of_isAllowed (isAllowed_iff.mpr (.inl inside))
  have solid : ∀ n < 0x80, isPathChar (Char.ofNat n) = true → isBlank (Char.ofNat n) = false := by
    decide +kernel
  exact Char.ofNat_toNat c ▸ solid c.toNat ascii (by rwa [Char.ofNat_toNat])

theorem isBlank_of_isAlpha (letter : c.isAlpha = true) : isBlank c = false :=
  isBlank_of_isPathChar (by simp [isPathChar, Char.isAlphanum, letter])

/-! ### Names of rules -/

theorem toUpper_ne_space (differs : c ≠ ' ') : c.toUpper ≠ ' ' := by
  by_cases lower : c.isLower = true
  · intro same
    have letter : c.toUpper.isUpper = true := by
      rw [Char.isUpper_toUpper_eq_isAlpha]
      simp [Char.isAlpha, lower]
    rw [same] at letter
    exact absurd letter (by decide)
  · rwa [Char.toUpper_eq_of_not_isLower lower]

theorem not_mem_upperLetter (differs : c ≠ ' ') : ' ' ∉ upperLetter c := by
  have table : ∀ entry ∈ upperLetters, ' ' ∉ entry.2.toList := by decide
  rw [upperLetter]
  split
  · exact fun member => toUpper_ne_space differs (List.mem_singleton.mp member).symm
  · cases found : upperLetters.lookup c with
    | none => exact List.not_mem_nil
    | some upper =>
        obtain ⟨front, rest, listed, _⟩ := List.lookup_eq_some_iff.mp found
        exact table (c, upper) (by rw [listed]; exact List.mem_append_right _ List.mem_cons_self)

theorem not_mem_capitalise {word : List Char} (absent : ' ' ∉ word) : ' ' ∉ capitalise word := by
  cases word with
  | nil => exact absent
  | cons c rest =>
      simp only [List.mem_cons, not_or] at absent
      rw [capitalise, List.mem_append, not_or]
      exact ⟨not_mem_upperLetter (Ne.symm absent.1), absent.2⟩

theorem not_mem_joinWords (cs : List Char) : ' ' ∉ joinWords cs := by
  simp only [joinWords]
  split
  case h_1 single =>
    have none : cs.countP (· == ' ') = 0 := by
      have length := Url.length_splitAt (· == ' ') cs
      rw [single] at length
      exact (Nat.succ.inj length).symm
    exact fun member => List.countP_eq_zero.mp none ' ' member (beq_self_eq_true ' ')
  case h_2 =>
    intro member
    obtain ⟨word, listed, inside⟩ := List.mem_flatMap.mp member
    refine not_mem_capitalise (fun space => ?_) inside
    have separates :=
      Url.not_isSeparator_of_mem_splitAt listed ' ' (Text.trimChars_subset _ space)
    exact absurd separates (by decide)

/-- A text without a space is no sequence of words. -/
theorem joinWords_eq_self (absent : ' ' ∉ cs) : joinWords cs = cs := by
  have single : Url.splitAt (· == ' ') cs = [cs] :=
    Url.splitAt_eq_singleton fun c member => beq_eq_false_iff_ne.mpr fun same =>
      absent (same ▸ member)
  simp only [joinWords, single]

theorem withoutHost_eq_self (other : pathOf? text = none) : withoutHost pathOf? text = text := by
  rw [withoutHost, other, Option.getD_none, ite_self]

theorem isPathChar_of_mem_ofRuleWith
    : ∀ c ∈ (ofRuleWith pathOf? text).toList, isPathChar c = true := by
  intro c member
  rw [ofRuleWith, String.toList_ofList, List.mem_filter] at member
  obtain ⟨joined, allowed⟩ := member
  refine (isAllowed_iff.mp allowed).resolve_right ?_
  rintro rfl
  exact not_mem_joinWords _ joined

/-- The names of rules are the texts over the alphabet, and each is the name that it spells. -/
theorem ofRuleWith_eq_self_iff (colon : ∀ text, ':' ∉ text.toList → pathOf? text = none)
    : ofRuleWith pathOf? text = text ↔ ∀ c ∈ text.toList, isPathChar c = true := by
  constructor
  · intro same
    rw [← same]
    exact isPathChar_of_mem_ofRuleWith
  · intro inside
    have absent (c : Char) (outside : isPathChar c = false) : c ∉ text.toList := fun member =>
      absurd ((inside c member).symm.trans outside) nofun
    have path := withoutHost_eq_self (colon text (absent ':' (by decide)))
    have single := joinWords_eq_self (absent ' ' (by decide))
    have kept : text.toList.filter isAllowed = text.toList :=
      List.filter_eq_self.mpr fun c member => isAllowed_iff.mpr (.inl (inside c member))
    rw [ofRuleWith, path, single, kept, String.ofList_toList]

theorem isPathChar_of_mem_ofRule : ∀ c ∈ (ofRule text).toList, isPathChar c = true :=
  isPathChar_of_mem_ofRuleWith

theorem ofRule_eq_self_iff : ofRule text = text ↔ ∀ c ∈ text.toList, isPathChar c = true :=
  ofRuleWith_eq_self_iff fun _ => Url.pathOf?_eq_none

/-! ### Names of properties -/

theorem upperAfterOther_forall {P : Char → Prop} (each : ∀ c ∈ cs, P c)
    (upper : ∀ c, c.isAlpha = true → P c → P c.toUpper)
    : ∀ c ∈ upperAfterOther afterLetter cs, P c := by
  induction cs generalizing afterLetter with
  | nil => exact List.forall_mem_nil _
  | cons c rest ih =>
      obtain ⟨here, later⟩ := List.forall_mem_cons.mp each
      simp only [upperAfterOther]
      split
      case isTrue letter =>
        refine List.forall_mem_cons.mpr ⟨?_, ih later⟩
        split
        · exact here
        · exact upper c letter here
      case isFalse => exact List.forall_mem_cons.mpr ⟨here, ih later⟩

/-- What does not depend on the case of letters is the same for all characters. -/
theorem map_upperAfterOther {β : Type} (f : Char → β)
    (upper : ∀ c, c.isAlpha = true → f c.toUpper = f c)
    : (upperAfterOther afterLetter cs).map f = cs.map f := by
  induction cs generalizing afterLetter with
  | nil => rfl
  | cons c rest ih =>
      simp only [upperAfterOther]
      split
      case isTrue letter =>
        rw [List.map_cons, List.map_cons, ih]
        split
        · rfl
        · rw [upper c letter]
      case isFalse => rw [List.map_cons, List.map_cons, ih]

theorem upperAfterOther_upperAfterOther
    : upperAfterOther afterLetter (upperAfterOther afterLetter cs)
      = upperAfterOther afterLetter cs := by
  induction cs generalizing afterLetter with
  | nil => rfl
  | cons c rest ih =>
      by_cases letter : c.isAlpha = true
      · cases afterLetter with
        | true => simp only [upperAfterOther, letter, if_true, ih]
        | false =>
            simp only [upperAfterOther, letter, if_true, Bool.false_eq_true, if_false,
              Char.isAlpha_toUpper_eq_isAlpha, Char.toUpper_toUpper_eq_toUpper, ih]
      · simp only [upperAfterOther, letter, Bool.false_eq_true, if_false, ih]

/-- The characters of the name of a property, whatever their case: characters of the alphabet, with
spaces inside only.
-/
structure Plain (cs : List Char) : Prop where
  allowed : ∀ c ∈ cs, isAllowed c = true
  trimmed : Trimmed cs

namespace Plain

theorem trimChars_filter (cs : List Char) : Plain (trimChars (cs.filter isAllowed)) where
  allowed _ member := (List.mem_filter.mp (Text.trimChars_subset _ member)).2
  trimmed := Text.trimmed_trimChars _

variable (plain : Plain cs)

include plain

theorem upperAfterOther : Plain (upperAfterOther afterLetter cs) where
  allowed := upperAfterOther_forall plain.allowed fun _ letter _ => isAllowed_toUpper letter
  trimmed := plain.trimmed.of_map_isBlank (map_upperAfterOther _ fun c letter => by
    rw [isBlank_of_isAlpha letter, isBlank_of_isAlpha (by rwa [Char.isAlpha_toUpper_eq_isAlpha])])

theorem lowerFrom_eq (before : List Char) : Text.lowerFrom before cs = cs.map Char.toLower :=
  Text.lowerFrom_ascii fun c member => ascii_of_isAllowed (plain.allowed c member)

theorem toLower : Plain (cs.map Char.toLower) where
  allowed := List.forall_mem_map.mpr fun c member => isAllowed_toLower (plain.allowed c member)
  trimmed := plain.lowerFrom_eq [] ▸ plain.trimmed.lowerFrom

theorem ofProperty_ofList
    : ofProperty (String.ofList cs) = String.ofList (Name.upperAfterOther false cs) := by
  rw [ofProperty, String.toList_ofList, List.filter_eq_self.mpr plain.allowed,
    plain.trimmed.trimChars_eq]

theorem propertyKey_ofList
    : propertyKey (String.ofList cs) = String.ofList (cs.map Char.toLower) := by
  have same : (Name.upperAfterOther false cs).map Char.toLower = cs.map Char.toLower :=
    map_upperAfterOther _ fun c _ => Char.toLower_toUpper_eq_toLower c
  rw [propertyKey, plain.ofProperty_ofList, Text.lower, String.toList_ofList,
    plain.upperAfterOther.lowerFrom_eq, same]

end Plain

/-- A property is named in characters of the alphabet, without spaces at the ends. -/
theorem plain_ofProperty (text : String) : Plain (ofProperty text).toList := by
  rw [ofProperty, String.toList_ofList]
  exact (Plain.trimChars_filter _).upperAfterOther

theorem ofProperty_ofProperty (text : String) : ofProperty (ofProperty text) = ofProperty text := by
  calc
    ofProperty (ofProperty text)
      = String.ofList (upperAfterOther false (ofProperty text).toList) := by
        rw [← (plain_ofProperty text).ofProperty_ofList, String.ofList_toList]
    _ = ofProperty text := by
        rw [ofProperty, String.toList_ofList, upperAfterOther_upperAfterOther]

theorem propertyKey_ofProperty (text : String)
    : propertyKey (ofProperty text) = propertyKey text := by
  rw [propertyKey, ofProperty_ofProperty, propertyKey]

theorem propertyKey_propertyKey (text : String)
    : propertyKey (propertyKey text) = propertyKey text := by
  have plain := plain_ofProperty text
  have key : propertyKey text = String.ofList ((ofProperty text).toList.map Char.toLower) := by
    rw [← plain.propertyKey_ofList, String.ofList_toList, propertyKey_ofProperty]
  have lower (c : Char) : (Char.toLower ∘ Char.toLower) c = c.toLower :=
    Char.toLower_toLower_eq_toLower c
  rw [key, plain.toLower.propertyKey_ofList, List.map_map, funext lower]

/-- A name is spelled once, whatever parser tells addresses from other texts, as long as it takes no
text without a colon for one. What any text is brought into, an address too, is in the alphabet and
stays as it is when it is spelled again. Spaces are left inside the names of properties only, and a
dictionary finds a property under the name as it was written, under its spelling and under the key
that it is kept by.
-/
theorem spelling_settles (pathOf? : String → Option String)
    (colon : ∀ text, ':' ∉ text.toList → pathOf? text = none) (text : String)
    : (∀ c ∈ (ofRuleWith pathOf? text).toList, isPathChar c = true)
      ∧ ofRuleWith pathOf? (ofRuleWith pathOf? text) = ofRuleWith pathOf? text
      ∧ (∀ c ∈ (ofProperty text).toList, isPathChar c = true ∨ c = ' ')
      ∧ (ofProperty text).toList.head? ≠ some ' ' ∧ (ofProperty text).toList.getLast? ≠ some ' '
      ∧ ofProperty (ofProperty text) = ofProperty text
      ∧ propertyKey (ofProperty text) = propertyKey text
      ∧ propertyKey (propertyKey text) = propertyKey text
      ∧ ∀ d : Dictionary,
        d.owners (ofProperty text) = d.owners text
        ∧ ∀ object, d.property? object (ofProperty text) = d.property? object text := by
  obtain ⟨allowed, trimmed⟩ := plain_ofProperty text
  have key := propertyKey_ofProperty text
  refine ⟨isPathChar_of_mem_ofRuleWith,
    (ofRuleWith_eq_self_iff colon).mpr isPathChar_of_mem_ofRuleWith,
    fun c member => isAllowed_iff.mp (allowed c member), fun first => ?_, fun last => ?_,
    ofProperty_ofProperty text, key, propertyKey_propertyKey text, fun d => ⟨?_, fun object => ?_⟩⟩
  · exact absurd (trimmed.first ' ' first) (by decide)
  · exact absurd (trimmed.last ' ' last) (by decide)
  · rw [Dictionary.owners, key, Dictionary.owners]
  · rw [Dictionary.property?, key, Dictionary.property?]

/-- An address of which only the path counts, where spaces are left as they are. -/
def doorAddress : String := "httpx:fire doors/ﬁre (1)"

theorem spelling_settles_doorAddress
    : (∀ text : String, ':' ∉ text.toList → Url.pathOf? text = none)
      ∧ ofRuleWith Url.pathOf? doorAddress = "FireDoors/EFAC81re1"
      ∧ ofRuleWith Url.pathOf? "FireDoors/EFAC81re1" = "FireDoors/EFAC81re1"
      ∧ 'E' ∈ (ofRuleWith Url.pathOf? doorAddress).toList ∧ isPathChar 'E' = true
      ∧ ofProperty doorAddress = "Httpxfire Doors/Re 1"
      ∧ ' ' ∈ (ofProperty doorAddress).toList ∧ (isPathChar ' ' = true ∨ ' ' = ' ')
      ∧ propertyKey "Httpxfire Doors/Re 1" = propertyKey doorAddress := by
  have colon (text : String) (absent : ':' ∉ text.toList) : Url.pathOf? text = none :=
    Url.pathOf?_eq_none absent
  obtain ⟨inside, again, spaced, _, _, _, key, _⟩ := spelling_settles Url.pathOf? colon doorAddress
  have rule : ofRuleWith Url.pathOf? doorAddress = "FireDoors/EFAC81re1" := by decide +kernel
  have property : ofProperty doorAddress = "Httpxfire Doors/Re 1" := by decide +kernel
  have member : 'E' ∈ (ofRuleWith Url.pathOf? doorAddress).toList := by rw [rule]; decide
  have space : ' ' ∈ (ofProperty doorAddress).toList := by rw [property]; decide
  exact ⟨colon, rule, rule ▸ again, member, inside 'E' member, property, space, spaced ' ' space,
    property ▸ key⟩

end Name

end ClauseRules
