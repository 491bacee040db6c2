import DumpMode.Breach
import DumpMode.Document.Encode
import DumpMode.Json.Decode
import DumpMode.Preferences.Overrides

/-!
# Values from JSON

Readers for the records of the library. Each type of records has a draft, which holds the fields
that have been read; a record is made of it when all fields that have to be there are set. Fields
for numbers that may be missing can be left out.
-/

namespace DumpMode.Document

open Json (Reader Record Field)

def readOffset : Reader Nat := Json.readNatural offsetBound "usize"

def readLine : Reader Nat := Json.readNatural lineBound "u32"

def require {α : Type} (name : String) : Option α → Except Misfit α
  | some a => .ok a
  | none => .error (.missingField name)

def choicesOf {α : Type} (all : List α) (name : α → String) : List (String × α) :=
  all.map fun a ↦ (name a, a)

def readClass : Reader WordClass := Json.readChoice (choicesOf WordClass.all WordClass.name)

def readGroup : Reader TypeGroup := Json.readChoice (choicesOf TypeGroup.all TypeGroup.documentName)

def readKeyword : Reader Keyword := Json.readChoice (choicesOf Keyword.all Keyword.documentName)

def levelChoices : List (String × Journal.Level) :=
  choicesOf Journal.Level.all Journal.Level.documentName

def readLevel : Reader Journal.Level := Json.readChoice levelChoices

/-! ## Positions and spans -/

structure PositionDraft where
  offset : Option Nat := none
  line : Option Nat := none
  column : Option Nat := none

def positionRecord : Record PositionDraft Position where
  name := "Position"
  fields :=
    [.of "offset" readOffset (·.offset) fun d n ↦ { d with offset := some n },
     .of "line" readLine (·.line) fun d n ↦ { d with line := some n },
     .of "column" readLine (·.column) fun d n ↦ { d with column := some n }]
  blank := {}
  finish d := do
    return ⟨← require "offset" d.offset, ← require "line" d.line, ← require "column" d.column⟩
  allowsShort := false

structure SpanDraft where
  start : Option Position := none
  stop : Option Position := none

def spanRecord : Record SpanDraft Span where
  name := "Span"
  fields :=
    [.of "start" positionRecord.read (·.start) fun d p ↦ { d with start := some p },
     .of "end" positionRecord.read (·.stop) fun d p ↦ { d with stop := some p }]
  blank := {}
  finish d := do return ⟨← require "start" d.start, ← require "end" d.stop⟩
  allowsShort := false

/-! ## Tags, regions and snapshots -/

structure TagDraft where
  start : Option Nat := none
  stop : Option Nat := none
  wordClass : Option WordClass := none

def tagRecord : Record TagDraft Tag where
  name := "ClassificationTag"
  fields :=
    [.of "start" readOffset (·.start) fun d n ↦ { d with start := some n },
     .of "end" readOffset (·.stop) fun d n ↦ { d with stop := some n },
     .of "class" readClass (·.wordClass) fun d c ↦ { d with wordClass := some c }]
  blank := {}
  finish d := do
    return ⟨← require "start" d.start, ← require "end" d.stop, ← require "class" d.wordClass⟩
  allowsShort := false

structure RegionDraft where
  opening : Option Nat := none
  closing : Option (Option Nat) := none
  depth : Option Nat := none

def regionRecord : Record RegionDraft Folding.Region where
  name := "FoldRegion"
  fields :=
    [.of "open" readOffset (·.opening) fun d n ↦ { d with opening := some n },
     .of "close" (Json.readOptional readOffset) (·.closing) fun d n ↦
       { d with closing := some n },
     .of "depth" readOffset (·.depth) fun d n ↦ { d with depth := some n }]
  blank := {}
  finish d := do
    return ⟨← require "open" d.opening, d.closing.getD none, ← require "depth" d.depth⟩
  allowsShort := false

structure FoldsDraft where
  regions : Option (List Folding.Region) := none
  unbalanced : Option (List Nat) := none

def foldsRecord : Record FoldsDraft Folding.Folds where
  name := "FoldScan"
  fields :=
    [.of "regions" (Json.readList regionRecord.read) (·.regions) fun d rs ↦
       { d with regions := some rs },
     .of "unbalanced" (Json.readList readOffset) (·.unbalanced) fun d ns ↦
       { d with unbalanced := some ns }]
  blank := {}
  finish d := do return ⟨← require "regions" d.regions, ← require "unbalanced" d.unbalanced⟩
  allowsShort := false

structure LineRangeDraft where
  startLine : Option Nat := none
  endLine : Option (Option Nat) := none

def lineRangeRecord : Record LineRangeDraft Folding.LineRange where
  name := "LineRange"
  fields :=
    [.of "start_line" readLine (·.startLine) fun d n ↦ { d with startLine := some n },
     .of "end_line" (Json.readOptional readLine) (·.endLine) fun d n ↦
       { d with endLine := some n }]
  blank := {}
  finish d := do return ⟨← require "start_line" d.startLine, d.endLine.getD none⟩
  allowsShort := false

structure SnapshotDraft where
  tags : Option (List Tag) := none
  folds : Option (List Folding.Region) := none
  unbalanced : Option (List Nat) := none

def snapshotRecord : Record SnapshotDraft Editor.Snapshot where
  name := "ScanOutput"
  fields :=
    [.of "tags" (Json.readList tagRecord.read) (·.tags) fun d ts ↦ { d with tags := some ts },
     .of "folds" (Json.readList regionRecord.read) (·.folds) fun d rs ↦
       { d with folds := some rs },
     .of "unbalanced" (Json.readList readOffset) (·.unbalanced) fun d ns ↦
       { d with unbalanced := some ns }]
  blank := {}
  finish d := do
    return ⟨← require "tags" d.tags, ← require "folds" d.folds,
      ← require "unbalanced" d.unbalanced⟩
  allowsShort := false

/-! ## Preferences

A section or a field that is not there takes its value from the given preferences. -/

def wordPreferencesRecord (base : WordPreferences) : Record WordOverrides WordPreferences where
  name := "LexicalPreferences"
  fields :=
    [.of "collect_metrics" Json.readBoolean (·.collectMetrics) fun d b ↦
       { d with collectMetrics := some b },
     .of "large_buffer_threshold" readOffset (·.largeBufferThreshold) fun d n ↦
       { d with largeBufferThreshold := some n }]
  blank := {}
  finish d := .ok (d.over base)
  allowsShort := true

def foldPreferencesRecord (base : FoldPreferences) : Record FoldOverrides FoldPreferences where
  name := "FoldPreferences"
  fields :=
    [.of "skip_quoted_strings" Json.readBoolean (·.skipQuotedStrings) fun d b ↦
       { d with skipQuotedStrings := some b },
     .of "log_unbalanced" Json.readBoolean (·.logUnbalanced) fun d b ↦
       { d with logUnbalanced := some b }]
  blank := {}
  finish d := .ok (d.over base)
  allowsShort := true

def journalPreferencesRecord (base : JournalPreferences) :
    Record JournalOverrides JournalPreferences where
  name := "LoggingPreferences"
  fields :=
    [.of "min_level" readLevel (·.minLevel) fun d l ↦ { d with minLevel := some l },
     .of "structured" Json.readBoolean (·.structured) fun d b ↦ { d with structured := some b }]
  blank := {}
  finish d := .ok (d.over base)
  allowsShort := true

def preferencesRecord (base : Preferences) : Record Overrides Preferences where
  name := "RuntimePreferences"
  fields :=
    [.of "lexical" (wordPreferencesRecord base.lexical).read (·.lexical) fun d p ↦
       { d with lexical := some p },
     .of "folding" (foldPreferencesRecord base.folding).read (·.folding) fun d p ↦
       { d with folding := some p },
     .of "logging" (journalPreferencesRecord base.logging).read (·.logging) fun d p ↦
       { d with logging := some p }]
  blank := {}
  finish d := .ok (d.over base)
  allowsShort := true

end DumpMode.Document

namespace DumpMode

/-- The snapshot that a text spells. -/
def Editor.Snapshot.ofJson? (text : Text) : Except Json.Fault Snapshot :=
  Json.decode Document.snapshotRecord.read text

/-- The preferences that a text spells; what it leaves open is as in the given ones. -/
def Preferences.ofJson? (base : Preferences) (text : Text) : Except Json.Fault Preferences :=
  Json.decode (Document.preferencesRecord base).read text

end DumpMode
