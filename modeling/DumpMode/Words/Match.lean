import DumpMode.LineMap
import DumpMode.Vocabulary.Table

/-!
# Classified words

A match is a recognised word at its place in a text, with its class. The tag of a match is what a
renderer needs of it: where the word begins and ends, and its class.
-/

namespace DumpMode

/-- The stretch of a text that a renderer styles, and the class it is styled by. -/
structure Tag where
  start : Nat
  /-- The offset behind the last character. -/
  stop : Nat
  wordClass : WordClass
deriving DecidableEq, Repr

namespace Words

/-- A recognised word in a text. -/
structure Match where
  text : Text
  start : Nat
  /-- The offset behind the last character. -/
  stop : Nat
  wordClass : WordClass
  group : Option TypeGroup
deriving DecidableEq, Repr

namespace Match

def span? (m : Match) : Except Breach Span := Span.ofOffsets? m.start m.stop

/-- The stretch of the match, resolved to lines and columns. -/
def resolve? (m : Match) (map : LineMap) : Except Breach Span := map.span? m.start m.stop

/-- The most specific name there is: that of the group, or else that of the class. -/
def detailName (m : Match) : String := (m.group.map TypeGroup.name).getD m.wordClass.name

def tag (m : Match) : Tag := ⟨m.start, m.stop, m.wordClass⟩

end Match

end Words

end DumpMode
