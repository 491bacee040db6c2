import DumpMode.Editor.Snapshot
import DumpMode.Json.Value
import DumpMode.Preferences.Basic

/-!
# Values as JSON

How the values of the library are written as JSON: a record is an object with its fields in order,
a number that may be missing is null then, and a choice is its name.
-/

namespace DumpMode

open Json (member)

def WordClass.json (c : WordClass) : Json.Value := .word c.name

def TypeGroup.json (g : TypeGroup) : Json.Value := .word g.documentName

def Keyword.json (k : Keyword) : Json.Value := .word k.documentName

def Journal.Level.json (l : Journal.Level) : Json.Value := .word l.documentName

def Position.json (p : Position) : Json.Value :=
  .object [member "offset" (.number p.offset), member "line" (.number p.line),
    member "column" (.number p.column)]

def Span.json (s : Span) : Json.Value :=
  .object [member "start" s.start.json, member "end" s.stop.json]

def Tag.json (t : Tag) : Json.Value :=
  .object [member "start" (.number t.start), member "end" (.number t.stop),
    member "class" t.wordClass.json]

namespace Folding

def Region.json (r : Region) : Json.Value :=
  .object [member "open" (.number r.opening),
    member "close" (.optional (r.closing.map .number)), member "depth" (.number r.depth)]

def Folds.json (f : Folds) : Json.Value :=
  .object [member "regions" (.array (f.regions.map Region.json)),
    member "unbalanced" (.array (f.unbalanced.map .number))]

def LineRange.json (r : LineRange) : Json.Value :=
  .object [member "start_line" (.number r.startLine),
    member "end_line" (.optional (r.endLine.map .number))]

end Folding

def Editor.Snapshot.json (s : Snapshot) : Json.Value :=
  .object [member "tags" (.array (s.tags.map Tag.json)),
    member "folds" (.array (s.folds.map Folding.Region.json)),
    member "unbalanced" (.array (s.unbalanced.map .number))]

def WordPreferences.json (p : WordPreferences) : Json.Value :=
  .object [member "collect_metrics" (.boolean p.collectMetrics),
    member "large_buffer_threshold" (.number p.largeBufferThreshold)]

def FoldPreferences.json (p : FoldPreferences) : Json.Value :=
  .object [member "skip_quoted_strings" (.boolean p.skipQuotedStrings),
    member "log_unbalanced" (.boolean p.logUnbalanced)]

def JournalPreferences.json (p : JournalPreferences) : Json.Value :=
  .object [member "min_level" p.minLevel.json, member "structured" (.boolean p.structured)]

def Preferences.json (p : Preferences) : Json.Value :=
  .object [member "lexical" p.lexical.json, member "folding" p.folding.json,
    member "logging" p.logging.json]

end DumpMode
