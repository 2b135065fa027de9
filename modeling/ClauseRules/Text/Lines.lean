/-! Texts made of lines. -/

namespace ClauseRules.Text

/-- The lines one below the other, each ended. -/
def unlines (lines : List String) : String := String.join (lines.map (· ++ "\n"))

end ClauseRules.Text
