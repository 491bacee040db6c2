import DumpMode.Document.Decode
import DumpMode.Preferences.Failure
import DumpMode.Toml.Decode
import DumpMode.Toml.Document

/-!
# Preferences from TOML

A document has a section for words, one for folding and one for the journal. A section or a field
that is not there takes its value from given preferences, and what the document says beyond the
known fields is passed over. What comes out must be in range as a whole, whether a value is from
the document or from the given preferences.
-/

namespace DumpMode

open Document (Misfit levelChoices)
open Toml (Decoder Field Record Table decodeBoolean decodeOffset decodeChoice)

def WordPreferences.section : Record WordOverrides where
  name := "LexicalPreferences"
  fields :=
    [.of "collect_metrics" decodeBoolean fun d b ↦ { d with collectMetrics := some b },
     .of "large_buffer_threshold" decodeOffset fun d n ↦ { d with largeBufferThreshold := some n }]

def FoldPreferences.section : Record FoldOverrides where
  name := "FoldPreferences"
  fields :=
    [.of "skip_quoted_strings" decodeBoolean fun d b ↦ { d with skipQuotedStrings := some b },
     .of "log_unbalanced" decodeBoolean fun d b ↦ { d with logUnbalanced := some b }]

def JournalPreferences.section : Record JournalOverrides where
  name := "LoggingPreferences"
  fields :=
    [.of "min_level" (decodeChoice levelChoices) fun d l ↦ { d with minLevel := some l },
     .of "structured" decodeBoolean fun d b ↦ { d with structured := some b }]

namespace Preferences

def sections (base : Preferences) : Record Overrides where
  name := "RuntimePreferences"
  fields :=
    [.of "lexical" (WordPreferences.section.take {}) fun d o ↦
       { d with lexical := some (o.over base.lexical) },
     .of "folding" (FoldPreferences.section.take {}) fun d o ↦
       { d with folding := some (o.over base.folding) },
     .of "logging" (JournalPreferences.section.take {}) fun d o ↦
       { d with logging := some (o.over base.logging) }]

/-- The preferences that a table holds; what it leaves open is as in the given ones. -/
def ofTable (base : Preferences) (t : Table) : Except Misfit Preferences :=
  (base.sections.take {} (.table .headed t)).map fun o ↦ o.over base

/-- The preferences that a text spells; what it leaves open is as in the given ones. -/
def ofToml (base : Preferences) (text : Text) : Except Failure Preferences :=
  match Table.ofText? text with
  | none => .error .malformed
  | some t =>
    match base.ofTable t with
    | .error m => .error (.misfit m)
    | .ok p => p.checked

end Preferences

end DumpMode
