import ClauseRules.Files.Tree
import ClauseRules.Proofs.Text.Trimming

/-! Writing a file in memory. Paths lead from directory to directory, so that all that lies above
the place of a new file is a directory already. Hence a file that is written makes no directory
and no path leads elsewhere than before: what is read differs at its place only.
-/

namespace ClauseRules

/-! ### Slashes at the end -/

namespace FileTree

variable {t after before : FileTree} {place other target : Place} {path : FilePath} {text : String}

/-! ### Putting a file -/

/-- All that lies above a place is a directory. -/
def Within (t : FileTree) (place : Place) : Prop :=
  ∀ above, above <+: place → above ≠ place → t.isDirectory above

theorem Within.dropLast (within : t.Within place) : t.Within place.dropLast := by
  intro above isAbove different
  apply within above (isAbove.trans (List.dropLast_prefix place))
  intro same
  have shorter := isAbove.length_le
  have nonempty : place ≠ [] := by
    intro empty
    simp_all
  have longer := List.length_pos_iff.mpr nonempty
  simp only [same, List.length_dropLast] at shorter
  omega

theorem Within.child (within : t.Within place) (found : t.isDirectory place) (step : String)
    : t.Within (place ++ [step]) := by
  intro above isAbove different
  have inPlace : above <+: place := (List.prefix_concat_iff.mp isAbove).resolve_left different
  by_cases same : above = place
  · exact same ▸ found
  · exact within above inPlace same

/-- The files after the one at a place was given a text: whatever else there is, is as before. -/
structure Overwritten (before : FileTree) (place : Place) (text : String) (after : FileTree)
    : Prop where
  content : after.bytes? place = some text.toUTF8
  others : ∀ other, other ≠ place → after.bytes? other = before.bytes? other
  directories : ∀ other, after.isDirectory other = before.isDirectory other
  directory : after.directory = before.directory

namespace Overwritten

variable (overwritten : before.Overwritten place text after)

include overwritten

end Overwritten

end FileTree

end ClauseRules
