import DumpMode.Document.Misfit
import DumpMode.Journal.Code
import DumpMode.Preferences.Basic

/-!
# Refused preferences

Why preferences cannot be taken from a document or a file, with the code and the words for it.

A failure of a document is told of by its kind alone. What the TOML library says of the place, and
of what it expected there, is shown behind the kind and a colon; nothing reads those words again, so
they are left out here. All other messages are whole.
-/

namespace DumpMode.Preferences

/-- Why a file cannot be read as a text. -/
inductive ReadFault where
  | missing
  | directory
  /-- The file is not valid UTF-8. -/
  | notText
  /-- The system refuses to read the file, with a reason in its own words. -/
  | refused (reason : String)
deriving DecidableEq, Repr

def ReadFault.message : ReadFault → String
  | .missing => "No such file or directory (os error 2)"
  | .directory => "Is a directory (os error 21)"
  | .notText => "stream did not contain valid UTF-8"
  | .refused reason => reason

/-- Why preferences are refused. -/
inductive Failure where
  | unreadable (file : String) (fault : ReadFault)
  /-- The text is not a TOML document. -/
  | malformed
  /-- The document holds a value that does not fit. -/
  | misfit (m : Document.Misfit)
  | outOfRange (threshold : Nat)
deriving DecidableEq, Repr

def checkedField : String := "lexical.large_buffer_threshold"

namespace Failure

def code : Failure → Journal.Code
  | .unreadable _ _ => .fileReadFailed
  | .malformed | .misfit _ => .invalidDocument
  | .outOfRange _ => .invalidValue

/-- The failure in words. Of a document only its kind is told, without the words of the TOML library
that follow. -/
def message : Failure → String
  | .unreadable file fault => s!"Failed to read preferences file '{file}': {fault.message}"
  | .malformed | .misfit _ => "Invalid preferences TOML"
  | .outOfRange threshold =>
    s!"Invalid value for '{checkedField}': {threshold} is outside 1..={maxThreshold}"

end Failure

/-- The preferences, if their threshold is in range. -/
def checked (p : Preferences) : Except Failure Preferences :=
  if p.isValid then .ok p else .error (.outOfRange p.lexical.largeBufferThreshold)

theorem checked_eq_ok_iff {p q : Preferences} : p.checked = .ok q ↔ p.isValid = true ∧ p = q := by
  unfold checked
  split <;> simp_all

end DumpMode.Preferences
