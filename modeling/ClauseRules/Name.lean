import ClauseRules.Text.Blank
import ClauseRules.Url.Path

/-! The spelling of names in rules. Rules and the program that evaluates them have to agree on every
name, so all free text is brought into a small alphabet before it becomes part of a rule.
-/

namespace ClauseRules.Name

/-- The alphabet of names: ASCII letters and digits, space, hyphen, slash and underscore. -/
def isAllowed (c : Char) : Bool := c.isAlphanum || c == ' ' || c == '-' || c == '/' || c == '_'

/-- The ASCII part of the upper-case forms that hold ASCII letters, for letters beyond ASCII. -/
def upperLetters : List (Char × String) := [
  ('ß', "SS"), ('ı', "I"), ('ŉ', "N"), ('ſ', "S"), ('ǰ', "J"), ('ẖ', "H"), ('ẗ', "T"), ('ẘ', "W"),
  ('ẙ', "Y"), ('ẚ', "A"), ('ﬀ', "FF"), ('ﬁ', "FI"), ('ﬂ', "FL"), ('ﬃ', "FFI"), ('ﬄ', "FFL"),
  ('ﬅ', "ST"), ('ﬆ', "ST")]

/-- What the upper-case form of a letter contributes to a name. -/
def upperLetter (c : Char) : List Char :=
  if c.toNat < 0x80 then [c.toUpper]
  else ((upperLetters.lookup c).map String.toList).getD []

/-- A word of a name, its first letter in upper case. -/
def capitalise (word : List Char) : List Char :=
  match word with
  | [] => []
  | c :: rest => upperLetter c ++ rest

/-- Joins words that single spaces part; a text without a space is no sequence of words. -/
def joinWords (cs : List Char) : List Char :=
  match Url.splitAt (· == ' ') cs with
  | [_] => cs
  | words => words.flatMap fun word => capitalise (Text.trimChars word)

/-- The path of a text that is the address of a resource on the web, or of one whose scheme starts
like the web's; any other text itself. The parser tells the addresses from other texts. -/
def withoutHost (pathOf? : String → Option String) (text : String) : String :=
  if text.startsWith "http" || text.startsWith "Http" then (pathOf? text).getD text else text

/-- The spelling of a rule's name: addresses are reduced to their path, words are capitalised and
joined, and all else outside of the alphabet is dropped. -/
def ofRuleWith (pathOf? : String → Option String) (text : String) : String :=
  String.ofList ((joinWords (withoutHost pathOf? text).toList).filter isAllowed)

/-- The spelling of a rule's name by the parser at hand. -/
def ofRule (text : String) : String := ofRuleWith Url.pathOf? text

/-- Puts every letter into upper case that follows no letter. -/
def upperAfterOther (afterLetter : Bool) : List Char → List Char
  | [] => []
  | c :: rest =>
      if c.isAlpha then (if afterLetter then c else c.toUpper) :: upperAfterOther true rest
      else c :: upperAfterOther false rest

/-- The spelling of a property's name: everything outside of the alphabet is dropped, spaces
at both ends too, and every word starts in upper case. -/
def ofProperty (text : String) : String :=
  String.ofList (upperAfterOther false (Text.trimChars (text.toList.filter isAllowed)))

end ClauseRules.Name
