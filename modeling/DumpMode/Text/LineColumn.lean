import DumpMode.Breach
import DumpMode.Text.Bytes
import DumpMode.Text.Digits

/-!
# Complaints that end in a place

A complaint about a text may end in the place that it is about, as in
`unexpected end at line 3 column 14`. The place is no part of what the complaint says:
`splitEnding?` takes it off, and `LineColumn.ending` is how it is written. `withTidyEnding` does one
after the other, so leading zeros go away, and so does a place on line 0, which is no place at all.
What stands before the last place is kept, even if it ends in a place too.
-/

namespace DumpMode.Text

/-- A line and a column that a complaint names. -/
structure LineColumn where
  /-- Number of the line, from one; zero if the complaint is about no place. -/
  line : Nat
  column : Nat
deriving DecidableEq, Repr

/-- What stands before the line at the end of a complaint. -/
def lineWord : Text := " at line ".toList

def columnWord : Text := " column ".toList

def LineColumn.ending (p : LineColumn) : Text :=
  if p.line = 0 then []
  else lineWord ++ decimal p.line ++ columnWord ++ decimal p.column

/-- The text before the last occurrence of a word, and the text behind it. -/
def cutLast? (word : Text) : Text → Option (Text × Text)
  | [] => none
  | c :: rest =>
    match cutLast? word rest with
    | some (front, back) => some (c :: front, back)
    | none =>
      if word.isPrefixOf (c :: rest) then some ([], (c :: rest).drop word.length) else none

/-- The number that a text of digits alone stands for, if it is in the range of offsets. -/
def endingNumber? (digits : Text) : Option Nat :=
  if digits.isEmpty then none else decimalBelow? offsetBound 0 digits

/-- A complaint without the place at its end, and that place. -/
def splitEnding? (complaint : Text) : Option (Text × LineColumn) := do
  let (about, numbers) ← cutLast? lineWord complaint
  let (line, column) ← cutLast? columnWord numbers
  return (about, ⟨← endingNumber? line, ← endingNumber? column⟩)

/-- A complaint whose place, if it ends in one, is written without needless digits, and is left out
on line 0. -/
def withTidyEnding (complaint : Text) : Text :=
  match splitEnding? complaint with
  | some (about, place) => about ++ place.ending
  | none => complaint

end DumpMode.Text
