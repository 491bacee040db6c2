/-!
# Broken contracts

Offsets and spans can be made by hand, decoded from a document, or kept while the text they were
measured on changes. An operation that such a value makes impossible ends in a `Breach`, which
names the contract that was broken. The ranges of offsets and of line numbers belong to the
contract too: an offset is a number of 64 bits, a line or a column one of 32.
-/

namespace DumpMode

/-- The contract that an operation found broken. -/
inductive Breach where
  | reversedSpan
  | negativeDifference
  | offsetOverflow
  /-- A part of a text was asked for that is out of range or cuts through a character. -/
  | badSlice
deriving DecidableEq, Repr

/-- The words for a breach; a bad slice has none of its own. -/
def Breach.message? : Breach → Option String
  | .reversedSpan => some "Span start must not be after end"
  | .negativeDifference => some "attempt to subtract with overflow"
  | .offsetOverflow => some "attempt to add with overflow"
  | .badSlice => none

/-- Offsets and sizes are below this bound. -/
def offsetBound : Nat := Nat.pow 2 64

/-- Line and column numbers are below this bound, and counting starts over at zero behind it. -/
def lineBound : Nat := Nat.pow 2 32

def nextOffset? (offset : Nat) : Except Breach Nat :=
  if offset + 1 < offsetBound then .ok (offset + 1) else .error .offsetOverflow

end DumpMode
