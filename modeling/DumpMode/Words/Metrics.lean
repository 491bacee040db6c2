import DumpMode.Words.Match

/-!
# Counting matches

The size of a text and the number of its matches, in all and by class. Matches are counted one
after the other.
-/

namespace DumpMode.Words

/-- Counts of the matches of a text. -/
structure Metrics where
  /-- The bytes of the text. -/
  bytes : Nat
  total : Nat := 0
  warnings : Nat := 0
  keywords : Nat := 0
  datatypes : Nat := 0
  constants : Nat := 0
  properties : Nat := 0
deriving DecidableEq, Repr

namespace Metrics

/-- The counts with one more match of a class. -/
def record (m : Metrics) (c : WordClass) : Metrics :=
  let m := { m with total := m.total + 1 }
  match c with
  | .warning => { m with warnings := m.warnings + 1 }
  | .keyword => { m with keywords := m.keywords + 1 }
  | .datatype => { m with datatypes := m.datatypes + 1 }
  | .constant => { m with constants := m.constants + 1 }
  | .property => { m with properties := m.properties + 1 }

def count (m : Metrics) : WordClass → Nat
  | .warning => m.warnings
  | .keyword => m.keywords
  | .datatype => m.datatypes
  | .constant => m.constants
  | .property => m.properties

def recordAll (m : Metrics) (found : List Match) : Metrics :=
  found.foldl (fun m x ↦ m.record x.wordClass) m

end Metrics

end DumpMode.Words
