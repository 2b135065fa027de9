import ClauseRules.Text.Quoted

/-! Percent-encoding: a byte written as a percent sign and two hexadecimal digits. -/

namespace ClauseRules.Url

/-- The bytes of a character in UTF-8. -/
def utf8 (c : Char) : List Nat :=
  let n := c.toNat
  if n < 0x80 then [n]
  else if n < 0x800 then [0xc0 + n / 64, 0x80 + n % 64]
  else if n < 0x10000 then [0xe0 + n / 4096, 0x80 + n / 64 % 64, 0x80 + n % 64]
  else [0xf0 + n / 262144, 0x80 + n / 4096 % 64, 0x80 + n / 64 % 64, 0x80 + n % 64]

def encodeByte (b : Nat) : List Char :=
  ['%', (Text.hexDigit (b / 16)).toUpper, (Text.hexDigit (b % 16)).toUpper]

/-- Encodes the characters that satisfy `p`, and everything beyond ASCII. -/
def encode (p : Char → Bool) (cs : List Char) : List Char :=
  cs.flatMap fun c =>
    if p c || 0x80 ≤ c.toNat then (utf8 c).flatMap encodeByte else [c]

def isControl (c : Char) : Bool := c.toNat < 0x20 || c.toNat == 0x7f

/-- The characters that are encoded in the segments of a path. -/
def isEncodedInPath (c : Char) : Bool :=
  isControl c || [' ', '"', '<', '>', '`', '#', '?', '{', '}'].contains c

def hexValue? (c : Char) : Option Nat :=
  if '0' ≤ c && c ≤ '9' then some (c.toNat - 48)
  else if 'a' ≤ c && c ≤ 'f' then some (c.toNat - 87)
  else if 'A' ≤ c && c ≤ 'F' then some (c.toNat - 55)
  else none

/-- The bytes that a text stands for. A percent sign that no two digits follow stands for itself. -/
def decodeBytes : List Char → List Nat
  | [] => []
  | [c] => utf8 c
  | [c, d] => utf8 c ++ utf8 d
  | c :: h :: l :: rest =>
      match c == '%', hexValue? h, hexValue? l with
      | true, some a, some b => (16 * a + b) :: decodeBytes rest
      | _, _, _ => utf8 c ++ decodeBytes (h :: l :: rest)

def isContinuation (b : Nat) : Bool := 0x80 ≤ b && b < 0xc0

/-- The characters of a run of bytes, if it is well-formed UTF-8. -/
def ofUtf8? : List Nat → Option (List Char)
  | [] => some []
  | a :: rest =>
      if a < 0x80 then (ofUtf8? rest).map (Char.ofNat a :: ·)
      else
        match rest with
        | b :: rest =>
            if !isContinuation b then none
            else if 0xc2 ≤ a && a < 0xe0 then
              (ofUtf8? rest).map (Char.ofNat ((a - 0xc0) * 64 + (b - 0x80)) :: ·)
            else
              match rest with
              | c :: rest =>
                  if !isContinuation c then none
                  else if 0xe0 ≤ a && a < 0xf0 then
                    let n := (a - 0xe0) * 4096 + (b - 0x80) * 64 + (c - 0x80)
                    if n < 0x800 || (0xd800 ≤ n && n < 0xe000) then none
                    else (ofUtf8? rest).map (Char.ofNat n :: ·)
                  else
                    match rest with
                    | d :: rest =>
                        if !isContinuation d || a < 0xf0 || 0xf5 ≤ a then none
                        else
                          let n := (a - 0xf0) * 262144 + (b - 0x80) * 4096 + (c - 0x80) * 64
                            + (d - 0x80)
                          if n < 0x10000 || 0x110000 ≤ n then none
                          else (ofUtf8? rest).map (Char.ofNat n :: ·)
                    | [] => none
              | [] => none
        | [] => none

end ClauseRules.Url
