import ClauseRules.Text.Quoted

/-! What compilation remarks on without giving up. -/

namespace ClauseRules

inductive Warning where
  | unrecognisedComparator (tag token : String)
  | duplicateNode (container : String)
  | noSharedClass (container tag property : String)
  | unrecognisedKeyword (step keyword : String)
deriving DecidableEq, Repr

namespace Warning

def message : Warning → String
  | .unrecognisedComparator _ token => "unrecognised comparator '" ++ token ++ "'"
  | .duplicateNode _ => "skipping duplicate node"
  | .noSharedClass _ _ property =>
      "property '" ++ property ++ "' shares no object class with the rest of the section"
  | .unrecognisedKeyword _ keyword =>
      "ignoring unrecognised step keyword " ++ Text.quoted keyword

/-- The message and the parts of the input that it is about. -/
def fields (warning : Warning) : List (String × String) :=
  ("message", warning.message) ::
    match warning with
    | .unrecognisedComparator tag _ => [("tag", tag)]
    | .duplicateNode container => [("container", container)]
    | .noSharedClass container tag _ => [("container", container), ("tag", tag)]
    | .unrecognisedKeyword step _ => [("step", step)]

end Warning

end ClauseRules
