import ClauseRules.Url.Host

/-! The path of an absolute address. Schemes that start like the web's but differ from it follow
the general rules: no host is needed, only slashes part segments, and a path need not start with
one.
-/

namespace ClauseRules.Url

/-- How an address is read, depending on its scheme. -/
inductive SchemeKind where
  | web
  | other
deriving DecidableEq, Repr

/-- Drops controls and spaces at the end and at the start, and tabs and line ends anywhere. -/
def clean (cs : List Char) : List Char :=
  let isOuter : Char → Bool := fun c => c.toNat ≤ 0x20
  (Text.dropLastWhile isOuter (cs.dropWhile isOuter)).filter fun c =>
    c != '\t' && c != '\n' && c != '\r'

def isSchemeChar (c : Char) : Bool := c.isAlphanum || c == '+' || c == '-' || c == '.'

/-- The scheme in lower case and what follows its colon. -/
def scheme? (cs : List Char) : Option (List Char × List Char) :=
  let (name, rest) := cs.span isSchemeChar
  match rest with
  | ':' :: rest =>
      if name.head?.any Char.isAlpha then some (name.map Char.toLower, rest) else none
  | _ => none

def SchemeKind.ofName (name : List Char) : SchemeKind :=
  if name == "http".toList || name == "https".toList then .web else .other

namespace SchemeKind

/-- Whether a character parts segments. -/
def isSlash (kind : SchemeKind) (c : Char) : Bool := c == '/' || (kind == .web && c == '\\')

def endsAuthority (kind : SchemeKind) (c : Char) : Bool :=
  kind.isSlash c || c == '?' || c == '#'

end SchemeKind

def endsPath (c : Char) : Bool := c == '?' || c == '#'

/-- Whether a segment stands for the segment above. -/
def isDoubleDot (segment : List Char) : Bool :=
  ["..", ".%2e", "%2e.", "%2e%2e"].contains (String.ofList (segment.map Char.toLower))

def isSingleDot (segment : List Char) : Bool :=
  [".", "%2e"].contains (String.ofList (segment.map Char.toLower))

/-- Whether a segment names a drive; such a segment is not left by going up. -/
def isDrive : List Char → Bool
  | [c, ':'] | [c, '|'] => c.isAlpha
  | _ => false

def goUp : List (List Char) → List (List Char)
  | [] => []
  | top :: above => if isDrive top then top :: above else above

/-- Resolves dots among segments. `above` holds the segments so far, the last one first; the
result ends with the last segment of all, which is empty after dots. -/
def resolve (above : List (List Char)) : List (List Char) → List (List Char)
  | [] => above.reverse
  | [last] =>
      if isDoubleDot last then (goUp above).reverse ++ [[]]
      else if isSingleDot last then above.reverse ++ [[]]
      else above.reverse ++ [last]
  | segment :: rest =>
      if isDoubleDot segment then resolve (goUp above) rest
      else if isSingleDot segment then resolve above rest
      else resolve (segment :: above) rest

/-- The path whose first slash was passed already. -/
def rootedPath (kind : SchemeKind) (cs : List Char) : List Char :=
  let segments := splitAt kind.isSlash (cs.takeWhile (!endsPath ·))
  (resolve [] (segments.map (encode isEncodedInPath))).flatMap ('/' :: ·)

/-- What follows a host and its port: the path, if the port is fine. -/
def pathAfterHost? (kind : SchemeKind) (cs : List Char) : Option (List Char) :=
  let rest? :=
    match cs with
    | ':' :: rest =>
        let (digits, rest) := rest.span Decimal.isDigit
        let isEnd := rest.head?.all fun c => c == '/' || c == '\\' || endsPath c
        if isEnd && Decimal.natOfDigits digits < 0x10000 then some rest else none
    | rest => some rest
  rest?.map fun rest =>
    match rest with
    | [] => if kind == .web then ['/'] else []
    | c :: more =>
        if kind.isSlash c then rootedPath kind more
        else if kind == .other && endsPath c then []
        else rootedPath kind rest

/-- Splits behind the last at sign before the end of the authority. -/
def splitUserInfo (kind : SchemeKind) (cs : List Char) : Option (List Char) × List Char :=
  let authority := cs.takeWhile (!kind.endsAuthority ·)
  if authority.contains '@' then
    let host := (authority.reverse.takeWhile (· != '@')).reverse
    let size := authority.length - host.length - 1
    (some (authority.take size), cs.drop (size + 1))
  else (none, cs)

/-- The length of the host at the start of a text. A colon inside of brackets belongs to it. -/
def hostLength (kind : SchemeKind) (inBrackets : Bool) : List Char → Nat
  | [] => 0
  | c :: rest =>
      if (c == ':' && !inBrackets) || kind.endsAuthority c then 0
      else
        1 + hostLength kind (if c == '[' then true else if c == ']' then false else inBrackets) rest

/-- The path of an address from behind its two slashes. -/
def pathAfterSlashes? (kind : SchemeKind) (cs : List Char) : Option (List Char) :=
  let (userInfo, rest) := splitUserInfo kind cs
  let size := hostLength kind false rest
  let host := rest.take size
  let rest' := rest.drop size
  let hasUser := userInfo.any fun info => info != [] && info != [':']
  if userInfo == some [] && rest.head?.any kind.endsAuthority then none
  else if host.isEmpty then
    if kind == .web || hasUser || rest'.head? == some ':' then none
    else pathAfterHost? kind rest'
  else if (match kind with | .web => isWebHost host | .other => isOpaqueHost host) then
    pathAfterHost? kind rest'
  else none

/-- The path of an absolute address, if the text is one. -/
def pathOf? (text : String) : Option String := do
  let (name, rest) ← scheme? (clean text.toList)
  let kind := SchemeKind.ofName name
  let path ←
    match kind, rest with
    | .web, rest => pathAfterSlashes? kind (rest.dropWhile kind.isSlash)
    | .other, '/' :: '/' :: rest => pathAfterSlashes? kind rest
    | .other, '/' :: rest => some (rootedPath kind rest)
    | .other, rest => some (encode isControl (rest.takeWhile (!endsPath ·)))
  return String.ofList path

end ClauseRules.Url
