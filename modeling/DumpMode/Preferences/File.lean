import DumpMode.Journal.Logged
import DumpMode.Preferences.Document

/-!
# Preferences from files

A file is read as a whole and then taken as a document. Whether the document is accepted is
reported; that a file cannot be read is told to the caller only.
-/

namespace DumpMode.Preferences

/-- What is found under the name of a file. -/
inductive Stored where
  | missing
  | directory
  | file (content : ByteArray)
  /-- Something that the system refuses to read, with a reason in its own words. -/
  | unreadable (reason : String)

def Stored.text : Stored → Except ReadFault Text
  | .missing => .error .missing
  | .directory => .error .directory
  | .file content =>
    match String.fromUTF8? content with
    | some s => .ok s.toList
    | none => .error .notText
  | .unreadable reason => .error (.refused reason)

def loadedEvent (name : String) : Journal.Event :=
  (Journal.Event.success .preferencesLoaded "Preferences loaded").having "path" name

def rejectedEvent (name : String) (failure : Failure) : Journal.Event :=
  (Journal.Event.error failure.code "Preferences rejected").havingAll
    [("path", name), ("error", failure.message)]

/-- Loads the preferences stored under a name; what they leave open is as in the given ones. -/
def load (base : Preferences) (name : String) (stored : Stored) :
    Logged (Except Failure Preferences) :=
  match stored.text with
  | .error fault => return .error (.unreadable name fault)
  | .ok text =>
    match base.ofToml text with
    | .ok p => do
      Logged.report (loadedEvent name)
      return .ok p
    | .error failure => do
      Logged.report (rejectedEvent name failure)
      return .error failure

end DumpMode.Preferences
