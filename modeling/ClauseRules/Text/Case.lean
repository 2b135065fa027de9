import ClauseRules.Text.CaseTable
import ClauseRules.Text.Range

/-! Lower-casing of whole texts by the full Unicode mapping. It differs from a map over
characters in one place: a capital sigma becomes the final form at the end of a word.
-/

namespace ClauseRules.Text

/-- The partner of a code point in a run, if the run holds it. -/
def CaseRun.lower? (run : CaseRun) (n : Nat) : Option Nat :=
  if run.first ≤ n && n ≤ run.last && (n - run.first) % run.step == 0
  then some (run.lower + (n - run.first))
  else none

/-- The lower-case form of a single character outside of any context. -/
def lowerChar (c : Char) : List Char :=
  if c.toNat < 0x80 then [c.toLower]
  else if c == 'İ' then ['i', '\u0307']
  else
    match caseRuns.findSome? (·.lower? c.toNat) with
    | some n => [Char.ofNat n]
    | none => [c]

/-- Whether the first character that is not case-ignorable is cased. -/
def startsCased (cs : List Char) : Bool :=
  match cs.dropWhile (inRanges caseIgnorableRanges) with
  | c :: _ => inRanges casedRanges c
  | [] => false

/-- The form of a sigma: final when a cased letter stands before it, read backwards in `before`,
and none after it. -/
def lowerSigma (before after : List Char) : Char :=
  if startsCased before && !startsCased after then 'ς' else 'σ'

/-- `before` holds the characters already passed, the nearest first. -/
def lowerFrom (before : List Char) : List Char → List Char
  | [] => []
  | c :: rest =>
      (if c == 'Σ' then [lowerSigma before rest] else lowerChar c) ++ lowerFrom (c :: before) rest

def lower (s : String) : String := String.ofList (lowerFrom [] s.toList)

/-- Lower-casing that leaves everything beyond ASCII alone. -/
def lowerAscii (s : String) : String := s.map Char.toLower

end ClauseRules.Text
