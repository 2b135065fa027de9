import ClauseRules.Json.Printer
import ClauseRules.Json.Text

/-! JSON text that was printed is read as the value that it was printed from. This is shown for
values of texts and truth values alone, which nest no deeper than can be read; a printed value is
read wherever it stands, whatever follows it.
-/

namespace ClauseRules.Json

/-! ### Strings -/

section

variable {acc s rest : List Char} {fuel : Nat}

/-- The escape of a control character stands for it. -/
theorem readHex_control {n : Nat} (control : n < 0x20)
    : readHex ('0' :: '0' :: Text.hexDigit (n / 16) :: Text.hexDigit (n % 16) :: rest) = .ok n := by
  have sizes : ∀ digit < 16, (Text.hexDigit digit).utf8Size = 1 := by decide
  have values
      : ∀ n < 0x20,
          hexValues? ['0', '0', Text.hexDigit (n / 16), Text.hexDigit (n % 16)] = some n := by
    decide
  have high := sizes (n / 16) (by omega)
  have low := sizes (n % 16) (by omega)
  have zero : '0'.utf8Size = 1 := rfl
  simp [readHex, high, low, zero, values n control]

/-- A printed character is read as itself. -/
theorem readString_stringChar (c : Char)
    : readString (some acc) (fuel + 1) (stringChar c ++ rest)
      = readString (some (c :: acc)) fuel rest := by
  simp only [stringChar]
  split
  case isTrue quoted =>
    simp only [Bool.or_eq_true, beq_iff_eq] at quoted
    rcases quoted with rfl | rfl <;> simp [readString, escapedChar?]
  split
  case isTrue same => rw [beq_iff_eq.mp same]; simp [readString, escapedChar?]
  split
  case isTrue same => rw [beq_iff_eq.mp same]; simp [readString, escapedChar?]
  split
  case isTrue same => rw [beq_iff_eq.mp same]; simp [readString, escapedChar?]
  split
  case isTrue same => rw [beq_iff_eq.mp same]; simp [readString, escapedChar?]
  split
  case isTrue same => rw [beq_iff_eq.mp same]; simp [readString, escapedChar?]
  split
  case isTrue control =>
    have notLow : isLowSurrogate c.toNat = false := by simp [isLowSurrogate]; omega
    have notHigh : isHighSurrogate c.toNat = false := by simp [isHighSurrogate]; omega
    simp [readString, readHex_control control, notLow, notHigh]
  case isFalse plain =>
    have quote : c ≠ '"' := by rintro rfl; contradiction
    have escape : c ≠ '\\' := by rintro rfl; contradiction
    simp [readString, escape, plain]

theorem length_le_flatMap_stringChar (s : List Char)
    : s.length ≤ (s.flatMap stringChar).length := by
  induction s with
  | nil => exact Nat.zero_le _
  | cons c more ih =>
      have some : 1 ≤ (stringChar c).length := by
        simp only [stringChar]
        repeat' split
        all_goals simp
      simp only [List.flatMap_cons, List.length_append, List.length_cons]
      omega

theorem readString_flatMap_stringChar (enough : s.length < fuel)
    : readString (some acc) fuel (s.flatMap stringChar ++ '"' :: rest)
      = .closed (some (acc.reverse ++ s)) rest := by
  induction s generalizing acc fuel with
  | nil =>
      obtain ⟨fuel, rfl⟩ := Nat.exists_eq_add_one.mpr (Nat.zero_lt_of_lt enough)
      simp [readString]
  | cons c more ih =>
      obtain ⟨fuel, rfl⟩ := Nat.exists_eq_add_one.mpr (Nat.zero_lt_of_lt enough)
      rw [List.flatMap_cons, List.append_assoc, readString_stringChar,
        ih (Nat.lt_of_succ_lt_succ enough)]
      simp

/-- A printed string is read as the string. -/
theorem stringToken_stringLiteral (s rest : List Char)
    : stringToken (s.flatMap stringChar ++ '"' :: rest) = .closed (some s) rest := by
  have enough : s.length < (s.flatMap stringChar ++ '"' :: rest).length + 1 := by
    have := length_le_flatMap_stringChar s
    simp only [List.length_append, List.length_cons]
    omega
  rw [stringToken, readString_flatMap_stringChar enough]
  rfl

end

/-! ### Space -/

section

variable {depth fuel : Nat} {space cs ds : List Char}

theorem skipSpace_append (blank : ∀ c ∈ space, isSpace c = true)
    : skipSpace (space ++ cs) = skipSpace cs :=
  List.dropWhile_append_of_pos blank

theorem skipSpace_cons {c : Char} (solid : isSpace c = false) : skipSpace (c :: cs) = c :: cs :=
  List.dropWhile_cons_of_neg (by simp [solid])

theorem skipSpace_skipSpace (cs : List Char) : skipSpace (skipSpace cs) = skipSpace cs := by
  induction cs with
  | nil => rfl
  | cons c more ih =>
      cases space : isSpace c with
      | true =>
          have skip : skipSpace (c :: more) = skipSpace more := List.dropWhile_cons_of_pos space
          rw [skip, ih]
      | false => rw [skipSpace_cons space, skipSpace_cons space]

/-- Space in front of a value makes no difference. -/
theorem readValue_congr (same : skipSpace cs = skipSpace ds)
    : readValue depth fuel cs = readValue depth fuel ds := by
  cases fuel with
  | zero => rfl
  | succ => simp only [readValue, same]

theorem readItems_congr (same : skipSpace cs = skipSpace ds)
    : readItems depth fuel cs = readItems depth fuel ds := by
  cases fuel with
  | zero => rfl
  | succ => simp only [readItems, readValue_congr same]

theorem readItems_newline : readItems depth fuel ('\n' :: cs) = readItems depth fuel cs :=
  readItems_congr rfl

theorem readFields_congr (same : skipSpace cs = skipSpace ds)
    : readFields depth fuel cs = readFields depth fuel ds := by
  cases fuel with
  | zero => rfl
  | succ => simp only [readFields, same]

theorem readFields_newline : readFields depth fuel ('\n' :: cs) = readFields depth fuel cs :=
  readFields_congr rfl

end

/-! ### Values -/

/-- A value of texts and truth values, in lists and records that nest to at most so many levels. -/
inductive Plain : Nat → Json → Prop
  | bool {levels value} : Plain levels (.bool value)
  | string {levels text} : Plain levels (.string text)
  | array {levels items} (each : ∀ v ∈ items, Plain levels v)
    : Plain (levels + 1) (.array items none)
  | object {levels fields} (each : ∀ field ∈ fields, Plain levels field.2)
    : Plain (levels + 1) (.object fields none)

variable {v : Json} {levels depth fuel : Nat} {items : List Json} {fields : List (String × Json)}
  {rest indentation closing : List Char}

theorem plain_record {fields : List (String × Json)}
    (each : ∀ field ∈ fields, Plain levels field.2)
    : Plain (levels + 1) (record fields) := .object each

theorem plain_list {items : List Json} (each : ∀ v ∈ items, Plain levels v)
    : Plain (levels + 1) (list items) := .array each

theorem Plain.mono (plain : Plain levels v) {more : Nat} (le : levels ≤ more) : Plain more v := by
  induction plain generalizing more with
  | bool => exact .bool
  | string => exact .string
  | array _ ih =>
      obtain ⟨more, rfl⟩ := Nat.exists_eq_add_one.mpr (Nat.zero_lt_of_lt le)
      exact .array fun v member => ih v member (Nat.le_of_succ_le_succ le)
  | object _ ih =>
      obtain ⟨more, rfl⟩ := Nat.exists_eq_add_one.mpr (Nat.zero_lt_of_lt le)
      exact .object fun field member => ih field member (Nat.le_of_succ_le_succ le)

theorem passingFaultList_of_forall (sound : ∀ v ∈ items, v.passingFault = none)
    : passingFaultList items = none := by
  induction items with
  | nil => rfl
  | cons v rest ih =>
      obtain ⟨here, later⟩ := List.forall_mem_cons.mp sound
      simp only [passingFaultList, here, ih later, Option.or_none]

theorem passingFaultFields_of_forall (sound : ∀ field ∈ fields, field.2.passingFault = none)
    : passingFaultFields fields = none := by
  induction fields with
  | nil => rfl
  | cons field rest ih =>
      obtain ⟨here, later⟩ := List.forall_mem_cons.mp sound
      simp only [passingFaultFields, here, ih later, Option.or_none]

theorem Plain.passingFault (plain : Plain levels v) : v.passingFault = none := by
  induction plain with
  | bool => rfl
  | string => rfl
  | array _ ih => simp only [Json.passingFault, passingFaultList_of_forall ih, Option.or_none]
  | object _ ih =>
      simp only [Json.passingFault, passingFaultFields_of_forall ih, Option.map_none,
        Option.or_none]

/-- The text is read as the value inside of any depth that leaves so many levels, whatever follows
it. Fuel for every character is enough.
-/
def Reads (v : Json) (levels : Nat) (text : List Char) : Prop :=
  ∀ depth fuel rest, depth + levels ≤ maxDepth → text.length < fuel →
    readValue depth fuel (text ++ rest) = (v, rest)

/-- Texts on lines of their own, with a comma after each but the last. -/
def lines (indentation : List Char) (texts : List (List Char)) : List Char :=
  [',', '\n'].intercalate (texts.map (indentation ++ ·))

theorem lines_cons_cons (first second : List Char) (others : List (List Char))
    : lines indentation (first :: second :: others)
      = indentation ++ (first ++ ',' :: '\n' :: lines indentation (second :: others)) := by
  simp [lines, List.intercalate_cons_cons]

theorem lines_singleton (text : List Char) : lines indentation [text] = indentation ++ text := by
  simp [lines]

theorem readItems_lines {print : Json → List Char} (plain : ∀ v ∈ items, Plain levels v)
    (each : ∀ v ∈ items, Reads v levels (print v)) (some : items ≠ [])
    (indented : ∀ c ∈ indentation, isSpace c = true) (blank : ∀ c ∈ closing, isSpace c = true)
    (shallow : depth + levels ≤ maxDepth)
    (enough : (lines indentation (items.map print)).length + 1 < fuel)
    : readItems depth fuel (lines indentation (items.map print) ++ (closing ++ ']' :: rest))
      = (items, none, rest) := by
  induction items generalizing fuel with
  | nil => exact absurd rfl some
  | cons v others ih =>
      obtain ⟨fuel, rfl⟩ := Nat.exists_eq_add_one.mpr (Nat.zero_lt_of_lt enough)
      obtain ⟨plainHere, plainLater⟩ := List.forall_mem_cons.mp plain
      obtain ⟨here, later⟩ := List.forall_mem_cons.mp each
      cases others with
      | nil =>
          simp only [List.map_cons, List.map_nil, lines_singleton, List.length_append] at enough ⊢
          have value
              : readValue depth fuel (indentation ++ print v ++ (closing ++ ']' :: rest))
                = (v, closing ++ ']' :: rest) := by
            rw [List.append_assoc, readValue_congr (skipSpace_append indented)]
            exact here depth fuel _ shallow (by omega)
          simp only [readItems, value, plainHere.passingFault, Option.isSome_none,
            skipSpace_append blank]
          rfl
      | cons second others =>
          simp only [List.map_cons, lines_cons_cons, List.append_assoc, List.cons_append,
            List.length_append, List.length_cons] at enough ih ⊢
          have value (more : List Char)
              : readValue depth fuel (indentation ++ (print v ++ more)) = (v, more) := by
            rw [readValue_congr (skipSpace_append indented)]
            exact here depth fuel _ shallow (by omega)
          have others := @ih fuel plainLater later (List.cons_ne_nil _ _) (by omega)
          simp only [readItems, value, plainHere.passingFault, Option.isSome_none,
            skipSpace_cons (show isSpace ',' = false from rfl), readItems_newline, others]
          rfl

/-- A field on its line. -/
def fieldText (print : Json → List Char) (field : String × Json) : List Char :=
  '"' :: (field.1.toList.flatMap stringChar ++ '"' :: ':' :: ' ' :: print field.2)

theorem readFields_lines {print : Json → List Char} (plain : ∀ field ∈ fields, Plain levels field.2)
    (each : ∀ field ∈ fields, Reads field.2 levels (print field.2)) (some : fields ≠ [])
    (indented : ∀ c ∈ indentation, isSpace c = true) (blank : ∀ c ∈ closing, isSpace c = true)
    (shallow : depth + levels ≤ maxDepth)
    (enough : (lines indentation (fields.map (fieldText print))).length + 1 < fuel)
    : readFields depth fuel
        (lines indentation (fields.map (fieldText print)) ++ (closing ++ '}' :: rest))
      = (fields, none, rest) := by
  induction fields generalizing fuel with
  | nil => exact absurd rfl some
  | cons field others ih =>
      obtain ⟨fuel, rfl⟩ := Nat.exists_eq_add_one.mpr (Nat.zero_lt_of_lt enough)
      obtain ⟨plainHere, plainLater⟩ := List.forall_mem_cons.mp plain
      obtain ⟨here, later⟩ := List.forall_mem_cons.mp each
      obtain ⟨name, v⟩ := field
      have quote (cs : List Char) : skipSpace (indentation ++ '"' :: cs) = '"' :: cs :=
        (skipSpace_append indented).trans (skipSpace_cons rfl)
      -- Between the name and its value stand a colon and a space.
      have space (cs : List Char) : readValue depth fuel (' ' :: cs) = readValue depth fuel cs :=
        readValue_congr rfl
      cases others with
      | nil =>
          simp only [List.map_cons, List.map_nil, lines_singleton, fieldText, List.length_append,
            List.length_cons, List.append_assoc, List.cons_append] at enough ⊢
          have value := here depth fuel (closing ++ '}' :: rest) shallow (by simp only; omega)
          simp only [readFields, quote, stringToken_stringLiteral, String.ofList_toList,
            skipSpace_cons (show isSpace ':' = false from rfl), space, value,
            plainHere.passingFault, Option.isSome_none, skipSpace_append blank]
          rfl
      | cons second others =>
          simp only [List.map_cons, lines_cons_cons, fieldText, List.append_assoc, List.cons_append,
            List.length_append, List.length_cons] at enough ih ⊢
          have value (more : List Char) : readValue depth fuel (print v ++ more) = (v, more) :=
            here depth fuel more shallow (by simp only; omega)
          have others := @ih fuel plainLater later (List.cons_ne_nil _ _) (by omega)
          simp only [readFields, quote, stringToken_stringLiteral, String.ofList_toList,
            skipSpace_cons (show isSpace ':' = false from rfl), space, value,
            plainHere.passingFault, Option.isSome_none,
            skipSpace_cons (show isSpace ',' = false from rfl), readFields_newline, others]
          rfl

theorem limited_of_lt (shallow : depth < maxDepth) (v : Json) : limited depth v = v := by
  rw [limited, if_neg (Nat.not_le_of_lt shallow)]

/-- A list is read item by item from where the first one is due. -/
theorem readValue_list (depth fuel : Nat) {c : Char} {cs more : List Char}
    (start : skipSpace cs = c :: more) (unclosed : c ≠ ']')
    : readValue depth (fuel + 1) ('[' :: cs)
      = (limited depth
          (.array (readItems (depth + 1) fuel cs).1 (readItems (depth + 1) fuel cs).2.1),
        (readItems (depth + 1) fuel cs).2.2) := by
  have same : readItems (depth + 1) fuel (c :: more) = readItems (depth + 1) fuel cs :=
    readItems_congr (start ▸ skipSpace_skipSpace cs)
  simp [readValue, skipSpace_cons (show isSpace '[' = false from rfl), start, unclosed, same]

theorem readValue_record (depth fuel : Nat) {cs more : List Char}
    (start : skipSpace cs = '"' :: more)
    : readValue depth (fuel + 1) ('{' :: cs)
      = (limited depth
          (.object (readFields (depth + 1) fuel cs).1 (readFields (depth + 1) fuel cs).2.1),
        (readFields (depth + 1) fuel cs).2.2) := by
  have same : readFields (depth + 1) fuel ('"' :: more) = readFields (depth + 1) fuel cs :=
    readFields_congr (start ▸ skipSpace_skipSpace cs)
  simp [readValue, skipSpace_cons (show isSpace '{' = false from rfl), start, same]

theorem readValue_emptyList (shallow : depth < maxDepth)
    : readValue depth (fuel + 1) ('[' :: ']' :: rest) = (.array [] none, rest) :=
  congrArg (·, rest) (limited_of_lt shallow (.array [] none))

theorem readValue_emptyRecord (shallow : depth < maxDepth)
    : readValue depth (fuel + 1) ('{' :: '}' :: rest) = (.object [] none, rest) :=
  congrArg (·, rest) (limited_of_lt shallow (.object [] none))

/-- The text starts with a character that is no space and closes no list. -/
def Opens (text : List Char) : Prop := ∃ c more, text = c :: more ∧ isSpace c = false ∧ c ≠ ']'

section

variable {print : Json → List Char} (indented : ∀ c ∈ indentation, isSpace c = true)
  (blank : ∀ c ∈ closing, isSpace c = true)

include indented

/-- Behind its indentation, the first line starts with its text. -/
theorem skipSpace_lines {c : Char} (text : List Char) {more : List Char}
    (starts : text = c :: more) (solid : isSpace c = false) (texts : List (List Char))
    (cs : List Char)
    : ∃ tail, skipSpace ('\n' :: (lines indentation (text :: texts) ++ cs)) = c :: tail := by
  subst starts
  have skip (tail : List Char) : skipSpace ('\n' :: (indentation ++ c :: tail)) = c :: tail :=
    (skipSpace_append indented).trans (skipSpace_cons solid)
  cases texts with
  | nil => exact ⟨_, by rw [lines_singleton, List.append_assoc]; exact skip _⟩
  | cons second others => exact ⟨_, by rw [lines_cons_cons, List.append_assoc]; exact skip _⟩

include blank

theorem reads_array (plain : ∀ v ∈ items, Plain levels v)
    (each : ∀ v ∈ items, Reads v levels (print v)) (opens : ∀ v ∈ items, Opens (print v))
    (some : items ≠ [])
    : Reads (.array items none) (levels + 1)
        ('[' :: '\n' :: (lines indentation (items.map print) ++ '\n' :: (closing ++ [']']))) := by
  intro depth fuel rest shallow enough
  obtain ⟨fuel, rfl⟩ := Nat.exists_eq_add_one.mpr (Nat.zero_lt_of_lt enough)
  simp only [List.length_cons, List.length_append] at enough
  have whole
      : readItems (depth + 1) fuel
          (lines indentation (items.map print) ++ ('\n' :: closing ++ ']' :: rest))
        = (items, none, rest) :=
    readItems_lines plain each some indented (List.forall_mem_cons.mpr ⟨rfl, blank⟩) (by omega)
      (by omega)
  obtain ⟨first, others, rfl⟩ := List.exists_cons_of_ne_nil some
  obtain ⟨c, more, text, solid, unclosed⟩ := opens first List.mem_cons_self
  obtain ⟨tail, start⟩ :=
    skipSpace_lines indented (print first) text solid (others.map print)
      ('\n' :: closing ++ ']' :: rest)
  have value := readValue_list depth fuel start unclosed
  rw [readItems_newline, ← List.map_cons, whole, limited_of_lt (by omega)] at value
  simpa using value

theorem reads_object (plain : ∀ field ∈ fields, Plain levels field.2)
    (each : ∀ field ∈ fields, Reads field.2 levels (print field.2)) (some : fields ≠ [])
    : Reads (.object fields none) (levels + 1)
        ('{' :: '\n' :: (lines indentation (fields.map (fieldText print))
          ++ '\n' :: (closing ++ ['}']))) := by
  intro depth fuel rest shallow enough
  obtain ⟨fuel, rfl⟩ := Nat.exists_eq_add_one.mpr (Nat.zero_lt_of_lt enough)
  simp only [List.length_cons, List.length_append] at enough
  have whole
      : readFields (depth + 1) fuel
          (lines indentation (fields.map (fieldText print)) ++ ('\n' :: closing ++ '}' :: rest))
        = (fields, none, rest) :=
    readFields_lines plain each some indented (List.forall_mem_cons.mpr ⟨rfl, blank⟩) (by omega)
      (by omega)
  obtain ⟨first, others, rfl⟩ := List.exists_cons_of_ne_nil some
  obtain ⟨tail, start⟩ :=
    skipSpace_lines indented (fieldText print first) rfl rfl (others.map (fieldText print))
      ('\n' :: closing ++ '}' :: rest)
  have value := readValue_record depth fuel start
  rw [readFields_newline, ← List.map_cons, whole, limited_of_lt (by omega)] at value
  simpa using value

end

/-! ### Printed values -/

theorem prettyItems_eq (level : Nat) (items : List Json)
    : prettyItems level items = items.map (prettyAt level) := by
  induction items with
  | nil => rfl
  | cons v rest ih => simp only [prettyItems, ih, List.map_cons]

theorem prettyFields_eq (level : Nat) (fields : List (String × Json))
    : prettyFields level fields
      = fields.map fun field => stringLiteral field.1 ++ ": " ++ prettyAt level field.2 := by
  induction fields with
  | nil => rfl
  | cons field rest ih => simp only [prettyFields, ih, List.map_cons]

theorem toList_stringLiteral (s : String)
    : (stringLiteral s).toList = '"' :: (s.toList.flatMap stringChar ++ ['"']) := by
  simp [stringLiteral]

theorem toList_block {opening closing : String} {level : Nat} {parts : List String}
    (some : parts ≠ [])
    : (block opening closing level parts).toList
      = opening.toList ++ '\n' :: (lines (indent (level + 1)).toList (parts.map String.toList)
        ++ '\n' :: ((indent level).toList ++ closing.toList)) := by
  cases parts with
  | nil => exact absurd rfl some
  | cons part others =>
      simp only [block, lines, String.toList_append, String.toList_intercalate, List.map_map,
        Function.comp_def, List.append_assoc]
      rfl

theorem isSpace_indent {level : Nat} : ∀ c ∈ (indent level).toList, isSpace c = true := by
  simp [indent, isSpace]

theorem opens_block {opening closing : String} {level : Nat} {parts : List String} {c : Char}
    (starts : opening.toList = [c]) (solid : isSpace c = false) (unclosed : c ≠ ']')
    : Opens (block opening closing level parts).toList := by
  cases parts with
  | nil =>
      exact ⟨c, closing.toList, by rw [block, String.toList_append, starts]; rfl, solid, unclosed⟩
  | cons part others =>
      exact ⟨c, _, by rw [toList_block (List.cons_ne_nil _ _), starts]; rfl, solid, unclosed⟩

theorem Plain.opens (plain : Plain levels v) (level : Nat) : Opens (v.prettyAt level).toList := by
  cases plain with
  | @bool _ value =>
      rw [prettyAt]
      cases value with
      | false => exact ⟨'f', ['a', 'l', 's', 'e'], rfl, rfl, by decide⟩
      | true => exact ⟨'t', ['r', 'u', 'e'], rfl, rfl, by decide⟩
  | string =>
      rw [prettyAt, toList_stringLiteral]
      exact ⟨'"', _, rfl, rfl, by decide⟩
  | array =>
      rw [prettyAt]
      exact opens_block (c := '[') rfl rfl (by decide)
  | object =>
      rw [prettyAt]
      exact opens_block (c := '{') rfl rfl (by decide)

/-- A printed value is read as the value. -/
theorem Plain.reads (plain : Plain levels v) (level : Nat)
    : Reads v levels (v.prettyAt level).toList := by
  induction plain generalizing level with
  | @bool _ value =>
      intro depth fuel rest shallow enough
      obtain ⟨fuel, rfl⟩ := Nat.exists_eq_add_one.mpr (Nat.zero_lt_of_lt enough)
      rw [prettyAt]
      cases value <;> rfl
  | string =>
      intro depth fuel rest shallow enough
      obtain ⟨fuel, rfl⟩ := Nat.exists_eq_add_one.mpr (Nat.zero_lt_of_lt enough)
      simp only [prettyAt, toList_stringLiteral, List.cons_append, List.append_assoc, readValue,
        skipSpace_cons (show isSpace '"' = false from rfl), List.nil_append,
        stringToken_stringLiteral, String.ofList_toList]
  | @array levels items each ih =>
      rw [prettyAt, prettyItems_eq]
      -- Only an empty list stands on one line.
      by_cases some : items = []
      · subst some
        intro depth fuel rest shallow enough
        obtain ⟨fuel, rfl⟩ := Nat.exists_eq_add_one.mpr (Nat.zero_lt_of_lt enough)
        have inner : depth < maxDepth := by omega
        rw [List.map_nil, block, String.toList_append]
        exact readValue_emptyList inner
      · rw [toList_block (by simpa using some), List.map_map]
        exact reads_array isSpace_indent isSpace_indent each
          (fun v member => ih v member (level + 1))
          (fun v member => (each v member).opens (level + 1)) some
  | @object levels fields each ih =>
      rw [prettyAt, prettyFields_eq]
      by_cases some : fields = []
      · subst some
        intro depth fuel rest shallow enough
        obtain ⟨fuel, rfl⟩ := Nat.exists_eq_add_one.mpr (Nat.zero_lt_of_lt enough)
        have inner : depth < maxDepth := by omega
        rw [List.map_nil, block, String.toList_append]
        exact readValue_emptyRecord inner
      · have texts
            : (fields.map fun field =>
                  stringLiteral field.1 ++ ": " ++ prettyAt (level + 1) field.2).map String.toList
              = fields.map (fieldText fun v => (v.prettyAt (level + 1)).toList) := by
          rw [List.map_map]
          refine List.map_congr_left fun field _ => ?_
          simp [fieldText, toList_stringLiteral]
        rw [toList_block (by simpa using some), texts]
        exact reads_object isSpace_indent isSpace_indent each
          (fun field member => ih field member (level + 1)) some

/-- The text of a value that nests no deeper than can be read is read as the value, also with blanks
after it.
-/
theorem parse_pretty_append (plain : Plain maxDepth v) {space : String}
    (blank : space.toList.all isSpace = true)
    : parse (v.pretty ++ space) = ⟨v, false⟩ := by
  have value
      : readValue 0 ((v.pretty ++ space).toList.length + 1) (v.pretty ++ space).toList
        = (v, space.toList) := by
    rw [String.toList_append]
    refine plain.reads 0 0 _ space.toList (Nat.le_of_eq (Nat.zero_add _)) ?_
    rw [pretty, List.length_append]
    exact Nat.lt_succ_of_le (Nat.le_add_right _ _)
  have rest : skipSpace space.toList = [] := by
    have skipped : skipSpace (space.toList ++ []) = [] :=
      skipSpace_append (List.all_eq_true.mp blank)
    rwa [List.append_nil] at skipped
  simp only [parse, value, rest]
  rfl

theorem parse_pretty (plain : Plain maxDepth v) : parse (v.pretty ++ "\n") = ⟨v, false⟩ :=
  parse_pretty_append plain (by decide)

end ClauseRules.Json
