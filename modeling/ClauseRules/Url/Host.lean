import ClauseRules.Text.Blank
import ClauseRules.Text.Case
import ClauseRules.Text.Quoted
import ClauseRules.Url.Address
import ClauseRules.Url.Punycode

/-! Which texts are hosts. A web host is a domain name, compared without regard to case and
with other scripts folded onto plain letters where they have wide forms, or an address. No more is
done about names beyond ASCII: other compatible forms are not folded, and the direction of scripts
is not looked at. The hosts of other schemes are kept as they are.
-/

namespace ClauseRules.Url

/-- The characters that no host holds outside of brackets. -/
def isForbiddenInHost (c : Char) : Bool :=
  ['\x00', '\t', '\n', '\r', ' ', '#', '/', ':', '<', '>', '?', '@', '[', '\\', ']', '^',
    '|'].contains c

def isForbiddenInDomain (c : Char) : Bool :=
  isForbiddenInHost c || c == '%' || isControl c

/-- The characters that disappear from a domain name. -/
def ignorableRanges : List (Nat × Nat) := [
  (0xad, 0xad), (0x34f, 0x34f), (0x180b, 0x180d), (0x180f, 0x180f), (0x200b, 0x200b),
  (0x2060, 0x2060), (0x2064, 0x2064), (0xfe00, 0xfe0f), (0xfeff, 0xfeff), (0x1bca0, 0x1bca3),
  (0xe0100, 0xe01ef)]

/-- The form in which a character stands in a domain name; `none` for one that cannot. -/
def domainChar? (c : Char) : Option (List Char) :=
  if c.toNat < 0x80 then some [c.toLower]
  else if Text.inRanges ignorableRanges c then some []
  else if ['。', '．', '｡'].contains c then some ['.']
  else if '！' ≤ c && c ≤ '～' then some [(Char.ofNat (c.toNat - 0xfee0)).toLower]
  else if !Text.isPrintable c then none
  else some (Text.lowerChar c)

/-- Whether a label that starts with `xn--` spells text beyond ASCII in its own form. -/
def isEncodedLabel (label : List Char) : Bool :=
  match Punycode.decode? label with
  | some cs =>
      cs.any (fun c => 0x80 ≤ c.toNat) && cs.all (fun c => domainChar? c == some [c])
        && !(cs.head?.any Text.extendsGrapheme)
  | none => false

def isLabel (label : List Char) : Bool :=
  !(label.head?.any Text.extendsGrapheme) &&
    match label with
    | 'x' :: 'n' :: '-' :: '-' :: rest => isEncodedLabel rest
    | _ => true

/-- The domain name that a text spells, if it spells one. -/
def domain? (cs : List Char) : Option (List Char) := do
  let decoded ← ofUtf8? (decodeBytes cs)
  let mapped ← decoded.mapM domainChar?
  let domain := mapped.flatten
  if domain.any isForbiddenInDomain || !(splitAt (· == '.') domain).all isLabel then none
  else some domain

/-- Whether a text in brackets is an address. -/
def isBracketed (cs : List Char) : Bool :=
  cs.getLast? == some ']' && isPieceAddress (cs.drop 1).dropLast

/-- Whether a text is the host of a web address. -/
def isWebHost (cs : List Char) : Bool :=
  if cs.head? == some '[' then isBracketed cs
  else
    match domain? cs with
    | some domain => !domain.isEmpty && (!endsInNumber domain || isFourByteAddress domain)
    | none => false

/-- Whether a text is the host of an address with another scheme. -/
def isOpaqueHost (cs : List Char) : Bool :=
  if cs.head? == some '[' then isBracketed cs else !cs.any isForbiddenInHost

end ClauseRules.Url
