import DumpMode.Text.LineColumn
import DumpMode.Words.Classifier

/-!
# Failures between the library and a host

What can go wrong while a host is driven, with the code and the words for it. The words of a writer
may end in a place, which is shown tidily; those of a host are shown as they are.
-/

namespace DumpMode.Editor

/-- Why driving a host failed. -/
inductive Failure where
  /-- The host does not take a mode, for a reason of its own. -/
  | rejected (mode reason : String)
  | serialization (description : String)
  | classifier (error : Words.BuildError)
deriving DecidableEq, Repr

namespace Failure

def code : Failure → Journal.Code
  | .rejected _ _ => .registrationRejected
  | .serialization _ => .serializationFailed
  | .classifier error => error.code

def message : Failure → String
  | .rejected mode reason => s!"Host rejected mode '{mode}': {reason}"
  | .serialization description =>
    let shown := String.ofList (Text.withTidyEnding description.toList)
    s!"Failed to serialize scan output: {shown}"
  | .classifier error => error.message

end Failure

end DumpMode.Editor
