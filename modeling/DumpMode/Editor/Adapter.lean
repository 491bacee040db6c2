import DumpMode.Document.Encode
import DumpMode.Editor.Failure
import DumpMode.Editor.Registration
import DumpMode.Folding.Scanner

/-!
# Driving a host

An adapter holds what is needed to serve one mode: the classifier, the choices for folding, and
the registration. A host is anything that can take a registration, tags and regions; it is given by
what these do to its state. Hosts that are reached by text get a snapshot as JSON instead.
-/

namespace DumpMode.Editor

/-- An editor that can be driven, by what each call does to its state. -/
structure Host (σ : Type) where
  /-- Takes a mode into its tables of files and media types, or refuses it. -/
  register : Registration → σ → Except Failure Unit × σ
  /-- Replaces the styling of the text. -/
  applyTags : List Tag → σ → σ
  /-- Replaces the regions of the text. -/
  applyFolds : Folding.Folds → σ → σ

/-- What serves a mode. -/
structure Adapter where
  classifier : Words.Classifier
  folding : FoldPreferences
  registration : Registration

namespace Adapter

def configuredEvent (r : Registration) (p : Preferences) : Journal.Event :=
  (Journal.Event.info "Host adapter configured").havingAll
    [("mode", r.name), ("skip_quoted_strings", toString p.folding.skipQuotedStrings),
     ("large_buffer_threshold", toString p.lexical.largeBufferThreshold)]

def build (p : Preferences) : Logged (Except Failure Adapter) := do
  match ← Words.Classifier.standard p.lexical with
  | .error e => return .error (.classifier e)
  | .ok classifier =>
    Logged.report (configuredEvent .dump p)
    return .ok ⟨classifier, p.folding, .dump⟩

def handlesPath (a : Adapter) (path : List UInt8) : Bool := a.registration.matchesPath path

def registeredEvent (r : Registration) : Journal.Event :=
  (Journal.Event.success .modeRegistered "Mode registered").having "mode" r.name

def refusedEvent (r : Registration) (f : Failure) : Journal.Event :=
  ((Journal.Event.error f.code "Mode registration failed").having "mode" r.name).having
    "error" f.message

variable {σ : Type}

def register (a : Adapter) (host : Host σ) (s : σ) : Logged (Except Failure Unit × σ) := do
  let (answer, s) := host.register a.registration s
  match answer with
  | .ok () => Logged.report (registeredEvent a.registration)
  | .error f => Logged.report (refusedEvent a.registration f)
  return (answer, s)

def scan (a : Adapter) (text : Text) : Logged Snapshot := do
  let tags ← a.classifier.tags text
  let folds ← a.folding.fold text
  return .of tags folds

def pushingEvent (tags : List Tag) (folds : Folding.Folds) : Journal.Event :=
  (Journal.Event.debug "Pushing scan results to host").havingAll
    [("tags", toString tags.length), ("folds", toString folds.regions.length)]

/-- Finds the words and regions of a text and hands them to a host: first the tags, then the
regions. -/
def refresh (a : Adapter) (host : Host σ) (text : Text) (s : σ) : Logged σ := do
  let tags ← a.classifier.tags text
  let folds ← a.folding.fold text
  Logged.report (pushingEvent tags folds)
  return host.applyFolds folds (host.applyTags tags s)

def scanJson (a : Adapter) (text : Text) : Logged Text := do
  return Json.render (← a.scan text).json

end Adapter

end DumpMode.Editor
