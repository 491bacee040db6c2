import DumpMode.Journal.Logged
import DumpMode.Preferences.Basic
import DumpMode.Words.Metrics
import DumpMode.Words.Scan

/-!
# The classifier

A classifier is a lexicon and the choices of a user. It is built from a table in which no word
occurs twice. Its results do not depend on the choices: these decide what is counted and reported.
-/

namespace DumpMode.Words

/-- Why a matcher could not be built. -/
inductive MatcherFault where
  | malformed (description : String)
  /-- The patterns need more room than the limit allows. -/
  | tooLarge (limit : Nat)
deriving DecidableEq, Repr

def MatcherFault.message : MatcherFault → String
  | .malformed description => description
  | .tooLarge limit => s!"Compiled regex exceeds size limit of {limit} bytes."

/-- Why a classifier could not be built. -/
inductive BuildError where
  | matcher (fault : MatcherFault)
  | overlap (words : List String)
deriving DecidableEq, Repr

namespace BuildError

def code : BuildError → Journal.Code
  | .matcher _ => .matcherBuildFailed
  | .overlap _ => .overlappingClasses

def message : BuildError → String
  | .matcher fault => s!"Failed to compile token matcher: {fault.message}"
  | .overlap words =>
    "Literals listed in more than one token class: " ++ String.intercalate ", " words

end BuildError

/-- A lexicon together with the choices of a user. -/
structure Classifier where
  lexicon : Lexicon
  preferences : WordPreferences

def Lexicon.standard : Lexicon := .ofRows Vocabulary.table

namespace Classifier

/-- The classifier of a table; refused if a word occurs twice. -/
def build (rows : List Vocabulary.Entry) (preferences : WordPreferences) :
    Logged (Except BuildError Classifier) :=
  match Vocabulary.duplicates rows with
  | [] => do
    Logged.report <| (Journal.Event.success .classifierReady "Token matcher built").having
      "literals" (toString rows.length)
    return .ok ⟨.ofRows rows, preferences⟩
  | words => do
    let error := BuildError.overlap (words.map String.ofList)
    Logged.report <| (Journal.Event.error error.code "Token tables overlap").having
      "error" error.message
    return .error error

def standard (preferences : WordPreferences) : Logged (Except BuildError Classifier) :=
  build Vocabulary.table preferences

def wordCount (c : Classifier) : Nat := c.lexicon.rows.length

def classOf? (c : Classifier) (word : Text) : Option WordClass :=
  (Vocabulary.find? c.lexicon.rows word).map (·.wordClass)

def scan (c : Classifier) (text : Text) : Scan := .start c.lexicon text

/-- Warns about a text that is larger than the threshold. -/
def checkSize (c : Classifier) (text : Text) : Logged Unit :=
  let bytes := text.byteLength
  let threshold := c.preferences.largeBufferThreshold
  Logged.reportIf (threshold < bytes) <|
    ((Journal.Event.warning .largeBuffer "Classifying a very large buffer").having
      "bytes" (toString bytes)).having "threshold" (toString threshold)

def classifiedEvent (m : Metrics) : Journal.Event :=
  (Journal.Event.success .classified "Buffer classified").havingAll
    [("bytes", toString m.bytes), ("matches", toString m.total),
     ("keywords", toString m.keywords), ("types", toString m.datatypes)]

/-- All matches of a text, and their counts; matches are only counted if the user wants it. -/
def classifyWithMetrics (c : Classifier) (text : Text) : Logged (List Match × Metrics) := do
  c.checkSize text
  let found := c.lexicon.matchesIn text
  let metrics : Metrics := { bytes := text.byteLength }
  if c.preferences.collectMetrics then
    let metrics := metrics.recordAll found
    Logged.report (classifiedEvent metrics)
    return (found, metrics)
  else
    return (found, metrics)

def classify (c : Classifier) (text : Text) : Logged (List Match) := do
  return (← c.classifyWithMetrics text).1

def tags (c : Classifier) (text : Text) : Logged (List Tag) := do
  c.checkSize text
  return (c.lexicon.matchesIn text).map (·.tag)

end Classifier

end DumpMode.Words
