import DumpMode.Folding.Region
import DumpMode.Words.Match

/-!
# Snapshots

All that a scan finds in one revision of a text: the tags of its words, its regions, and the
closing braces that close nothing.
-/

namespace DumpMode.Editor

/-- What a scan finds in a text. -/
structure Snapshot where
  tags : List Tag
  folds : List Folding.Region
  unbalanced : List Nat
deriving DecidableEq, Repr

def Snapshot.of (tags : List Tag) (folds : Folding.Folds) : Snapshot :=
  ⟨tags, folds.regions, folds.unbalanced⟩

end DumpMode.Editor
