import ClauseRules.Text.Quoted

/-! The hash function SHA-256. A message is padded to whole blocks of 64 bytes, and the blocks are
worked into a state of eight words one after the other.
-/

namespace ClauseRules.Sha256

/-- The state between two blocks. -/
structure State where
  a : UInt32
  b : UInt32
  c : UInt32
  d : UInt32
  e : UInt32
  f : UInt32
  g : UInt32
  h : UInt32
deriving DecidableEq, Repr

def start : State :=
  ⟨0x6a09e667, 0xbb67ae85, 0x3c6ef372, 0xa54ff53a, 0x510e527f, 0x9b05688c, 0x1f83d9ab, 0x5be0cd19⟩

def roundConstants : List UInt32 := [
  0x428a2f98, 0x71374491, 0xb5c0fbcf, 0xe9b5dba5, 0x3956c25b, 0x59f111f1, 0x923f82a4, 0xab1c5ed5,
  0xd807aa98, 0x12835b01, 0x243185be, 0x550c7dc3, 0x72be5d74, 0x80deb1fe, 0x9bdc06a7, 0xc19bf174,
  0xe49b69c1, 0xefbe4786, 0x0fc19dc6, 0x240ca1cc, 0x2de92c6f, 0x4a7484aa, 0x5cb0a9dc, 0x76f988da,
  0x983e5152, 0xa831c66d, 0xb00327c8, 0xbf597fc7, 0xc6e00bf3, 0xd5a79147, 0x06ca6351, 0x14292967,
  0x27b70a85, 0x2e1b2138, 0x4d2c6dfc, 0x53380d13, 0x650a7354, 0x766a0abb, 0x81c2c92e, 0x92722c85,
  0xa2bfe8a1, 0xa81a664b, 0xc24b8b70, 0xc76c51a3, 0xd192e819, 0xd6990624, 0xf40e3585, 0x106aa070,
  0x19a4c116, 0x1e376c08, 0x2748774c, 0x34b0bcb5, 0x391c0cb3, 0x4ed8aa4a, 0x5b9cca4f, 0x682e6ff3,
  0x748f82ee, 0x78a5636f, 0x84c87814, 0x8cc70208, 0x90befffa, 0xa4506ceb, 0xbef9a3f7, 0xc67178f2]

def rotate (x : UInt32) (n : UInt32) : UInt32 := (x >>> n) ||| (x <<< (32 - n))

def word (a b c d : UInt8) : UInt32 :=
  (a.toUInt32 <<< 24) ||| (b.toUInt32 <<< 16) ||| (c.toUInt32 <<< 8) ||| d.toUInt32

/-- The bytes of a message as words; a rest of fewer than four bytes is dropped. -/
def words : List UInt8 → List UInt32
  | a :: b :: c :: d :: rest => word a b c d :: words rest
  | _ => []

/-- The length of a message in bits, as eight bytes. -/
def lengthBytes (bits : Nat) : List UInt8 :=
  (List.range 8).map fun i => (bits >>> (8 * (7 - i))).toUInt8

def pad (message : List UInt8) : List UInt8 :=
  let n := message.length
  message ++ [0x80] ++ List.replicate ((119 - n % 64) % 64) 0 ++ lengthBytes (8 * n)

/-- The word that follows sixteen words of a schedule. -/
def nextWord (recent : List UInt32) : UInt32 :=
  let w (i : Nat) := recent.getD i 0
  let s0 := rotate (w 1) 7 ^^^ rotate (w 1) 18 ^^^ (w 1 >>> 3)
  let s1 := rotate (w 14) 17 ^^^ rotate (w 14) 19 ^^^ (w 14 >>> 10)
  w 0 + s0 + w 9 + s1

def step (s : State) (constant w : UInt32) : State :=
  let s1 := rotate s.e 6 ^^^ rotate s.e 11 ^^^ rotate s.e 25
  let choice := (s.e &&& s.f) ^^^ (~~~ s.e &&& s.g)
  let t1 := s.h + s1 + choice + constant + w
  let s0 := rotate s.a 2 ^^^ rotate s.a 13 ^^^ rotate s.a 22
  let majority := (s.a &&& s.b) ^^^ (s.a &&& s.c) ^^^ (s.b &&& s.c)
  ⟨t1 + (s0 + majority), s.a, s.b, s.c, s.d + t1, s.e, s.f, s.g⟩

/-- Runs the rounds of a block. `recent` holds the sixteen words from the current one on. -/
def rounds (s : State) (recent : List UInt32) : List UInt32 → State
  | [] => s
  | constant :: rest =>
      rounds (step s constant (recent.headD 0)) (recent.drop 1 ++ [nextWord recent]) rest

def compress (s : State) (block : List UInt32) : State :=
  let t := rounds s block roundConstants
  ⟨s.a + t.a, s.b + t.b, s.c + t.c, s.d + t.d, s.e + t.e, s.f + t.f, s.g + t.g, s.h + t.h⟩

/-- Works in blocks of sixteen words; `fuel` bounds their number. -/
def absorb (s : State) : (fuel : Nat) → List UInt32 → State
  | 0, _ => s
  | fuel + 1, ws =>
      match ws with
      | [] => s
      | ws => absorb (compress s (ws.take 16)) fuel (ws.drop 16)

def digest (message : List UInt8) : State :=
  let ws := words (pad message)
  absorb start (ws.length / 16) ws

/-- A word as eight hexadecimal digits. -/
def wordText (w : UInt32) : List Char :=
  (List.range 8).map fun i => Text.hexDigit ((w.toNat >>> (4 * (7 - i))) % 16)

def State.text (s : State) : String :=
  String.ofList ([s.a, s.b, s.c, s.d, s.e, s.f, s.g, s.h].flatMap wordText)

end ClauseRules.Sha256
