import DumpMode.Editor.Adapter

/-!
# A host that records

A host without an editor: it remembers the calls it got, the modes it took, and the tags and
regions it was given last. It can be told to refuse a mode.
-/

namespace DumpMode.Editor

inductive Call where
  | registerMode
  | applyTags
  | applyFolds
deriving DecidableEq, Repr

/-- What the recording host remembers. -/
structure Recorder where
  calls : List Call
  modes : List String
  /-- The tags it was given last. -/
  tags : List Tag
  folds : Folding.Folds

namespace Recorder

def empty : Recorder := ⟨[], [], [], ⟨[], []⟩⟩

def called (r : Recorder) (c : Call) : Recorder := { r with calls := r.calls ++ [c] }

/-- The recording host; it refuses a mode for the given failure, or takes it if there is none. -/
def host (refusal : Option Failure) : Host Recorder where
  register registration r :=
    match refusal with
    | some f => (.error f, r.called .registerMode)
    | none =>
      (.ok (), { r.called .registerMode with modes := r.modes ++ [registration.name] })
  applyTags tags r := { r.called .applyTags with tags }
  applyFolds folds r := { r.called .applyFolds with folds }

end Recorder

end DumpMode.Editor
