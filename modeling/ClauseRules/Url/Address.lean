import ClauseRules.Decimal.Basic
import ClauseRules.Url.Percent

/-! Numeric addresses of hosts, of four bytes or of eight pieces. Only their validity matters. -/

namespace ClauseRules.Url

/-- The parts between the separators. -/
def splitAt (isSeparator : Char → Bool) : List Char → List (List Char)
  | [] => [[]]
  | c :: rest =>
      match splitAt isSeparator rest with
      | part :: parts => if isSeparator c then [] :: part :: parts else (c :: part) :: parts
      | [] => [[c]]

def natOfHexDigits? (ds : List Char) : Option Nat :=
  ds.foldlM (fun n c => (hexValue? c).map (16 * n + ·)) 0

def natOfOctalDigits? (ds : List Char) : Option Nat :=
  ds.foldlM (fun n c => if '0' ≤ c && c ≤ '7' then some (8 * n + (c.toNat - 48)) else none) 0

/-- A number of an address: hexadecimal after `0x`, octal after any other zero, or decimal. -/
def addressNumber? (cs : List Char) : Option Nat :=
  match cs with
  | [] => none
  | '0' :: 'x' :: ds | '0' :: 'X' :: ds => natOfHexDigits? ds
  | '0' :: d :: ds => natOfOctalDigits? (d :: ds)
  | ds => if ds.all Decimal.isDigit then some (Decimal.natOfDigits ds) else none

/-- The labels of a host, less an empty one at the end. -/
def addressParts (host : List Char) : List (List Char) :=
  let parts := splitAt (· == '.') host
  if parts.getLast? == some [] then parts.dropLast else parts

/-- Whether a host has to be read as an address of four bytes. -/
def endsInNumber (host : List Char) : Bool :=
  match (addressParts host).getLast? with
  | some part => (!part.isEmpty && part.all Decimal.isDigit) || (addressNumber? part).isSome
  | none => false

/-- Whether a host is an address of at most four numbers, the last of which fills up all bytes that
the others leave. -/
def isFourByteAddress (host : List Char) : Bool :=
  let parts := addressParts host
  match parts.mapM addressNumber? with
  | some numbers =>
      numbers.length ≤ 4 && numbers.dropLast.all (· ≤ 255)
        && (numbers.getLast?.any fun n => n < 1 <<< (8 * (5 - numbers.length)))
  | none => false

/-- Whether the rest of an address of pieces is four decimal bytes without leading zeros. -/
def isDottedTail (cs : List Char) : Bool :=
  let parts := splitAt (· == '.') cs
  parts.length == 4 && parts.all fun ds =>
    !ds.isEmpty && ds.all Decimal.isDigit && Decimal.natOfDigits ds ≤ 255
      && (ds.length == 1 || ds.head? != some '0')

/-- Reads pieces of up to four hexadecimal digits after `count` of them; an empty piece may stand
once for a run of zeros. `fuel` bounds the characters left. -/
def isPieceTail (count : Nat) (compressed : Bool) : (fuel : Nat) → List Char → Bool
  | 0, _ => false
  | _ + 1, [] => compressed || count == 8
  | fuel + 1, ':' :: rest =>
      count < 8 && !compressed && isPieceTail (count + 1) true fuel rest
  | fuel + 1, cs =>
      let digits := (cs.take 4).takeWhile fun c => (hexValue? c).isSome
      let rest := cs.drop digits.length
      count < 8 &&
        match rest with
        | [] => isPieceTail (count + 1) compressed fuel []
        | ':' :: rest => !rest.isEmpty && isPieceTail (count + 1) compressed fuel rest
        | '.' :: _ =>
            !digits.isEmpty && count ≤ 6 && isDottedTail cs && (compressed || count == 6)
        | _ => false

/-- Whether the text between brackets is an address of eight pieces. -/
def isPieceAddress (cs : List Char) : Bool :=
  match cs with
  | ':' :: ':' :: rest => isPieceTail 1 true (rest.length + 1) rest
  | ':' :: _ | [] | [_] => false
  | cs => isPieceTail 0 false (cs.length + 1) cs

end ClauseRules.Url
