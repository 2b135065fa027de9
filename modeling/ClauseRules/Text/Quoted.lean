import ClauseRules.Text.PrintableTable
import ClauseRules.Text.Range

/-! Quoted text as it stands in messages: double quotes around the text, a backslash
before a quote or a backslash, and an escape for everything without a glyph of its own.
-/

namespace ClauseRules.Text

def isPrintable (c : Char) : Bool := !inRanges unprintableRanges c

def extendsGrapheme (c : Char) : Bool := inRanges graphemeExtendRanges c

def hexDigit (n : Nat) : Char :=
  if n < 10 then Char.ofNat (48 + n) else Char.ofNat (87 + n)

/-- The lower-case hexadecimal digits of a number, without leading zeros. -/
def hexDigits (n : Nat) : List Char := (Nat.toDigits 16 n)

/-- The escape of a character by its code point. -/
def codePointEscape (c : Char) : List Char :=
  ['\\', 'u', '{'] ++ hexDigits c.toNat ++ ['}']

/-- A character inside of quotes. -/
def quotedChar (c : Char) : List Char :=
  if c == '\x00' then ['\\', '0']
  else if c == '\t' then ['\\', 't']
  else if c == '\r' then ['\\', 'r']
  else if c == '\n' then ['\\', 'n']
  else if c == '\\' || c == '"' then ['\\', c]
  else if extendsGrapheme c || !isPrintable c then codePointEscape c
  else [c]

def quoted (s : String) : String :=
  String.ofList (['"'] ++ s.toList.flatMap quotedChar ++ ['"'])

end ClauseRules.Text
