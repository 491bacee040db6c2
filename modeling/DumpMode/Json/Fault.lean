import DumpMode.Document.Misfit

/-!
# Faults of JSON texts

A text is read from left to right, and the first fault ends the reading: the text ends too early,
it breaks the notation, or it holds a value that does not fit.
-/

namespace DumpMode.Json

/-- Why a text cannot be read. -/
inductive Fault where
  | ended
  | malformed
  /-- The text holds a value that is not what is expected. -/
  | misfit (m : Document.Misfit)
deriving DecidableEq, Repr

end DumpMode.Json
