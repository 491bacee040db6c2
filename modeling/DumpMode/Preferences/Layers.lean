import DumpMode.Preferences.Document
import DumpMode.Preferences.Environment

/-!
# Layers of preferences

There are six choices, one for each variable of the environment. Each of them is made by itself, by
the first of three layers that has something to say: the document, the environment, and what is
built in. A document says it under a key of a section.
-/

namespace DumpMode

namespace Toml.Value

def boolean? : Value → Option Bool
  | .boolean b => some b
  | _ => none

def size? : Value → Option Nat
  | .integer n => if 0 ≤ n then some n.toNat else none
  | _ => none

/-- Whether a value is a table or an array with nothing in it. -/
def isEmpty : Value → Bool
  | .table _ [] | .array [] => true
  | _ => false

/-- The level that a value of a document is: its name, or a table with that name alone and nothing
behind it. -/
def level? : Value → Option Journal.Level
  | .string s => levelOf? s
  | .table _ [(name, v)] => if v.isEmpty then levelOf? name else none
  | _ => none
where
  levelOf? (name : Text) : Option Journal.Level :=
    Journal.Level.all.find? fun l ↦ l.documentName.toList == name

end Toml.Value

namespace Variable

/-- What can be chosen. -/
def Choice : Variable → Type
  | .collectMetrics | .skipQuotedStrings | .logUnbalanced | .structured => Bool
  | .largeBufferThreshold => Nat
  | .minLevel => Journal.Level

def sectionName : Variable → String
  | .collectMetrics | .largeBufferThreshold => "lexical"
  | .skipQuotedStrings | .logUnbalanced => "folding"
  | .minLevel | .structured => "logging"

def keyName : Variable → String
  | .collectMetrics => "collect_metrics"
  | .largeBufferThreshold => "large_buffer_threshold"
  | .skipQuotedStrings => "skip_quoted_strings"
  | .logUnbalanced => "log_unbalanced"
  | .minLevel => "min_level"
  | .structured => "structured"

/-- The choice that a text of the environment makes. -/
def ofText? : (v : Variable) → Text → Option v.Choice
  | .collectMetrics | .skipQuotedStrings | .logUnbalanced | .structured => Environment.boolean?
  | .largeBufferThreshold => Environment.size?
  | .minLevel => Journal.Level.parse?

/-- The choice that a value of a document makes. -/
def ofValue? : (v : Variable) → Toml.Value → Option v.Choice
  | .collectMetrics | .skipQuotedStrings | .logUnbalanced | .structured => Toml.Value.boolean?
  | .largeBufferThreshold => Toml.Value.size?
  | .minLevel => Toml.Value.level?

end Variable

namespace Toml.Table

/-- The entries of a section. There are none if it is not there or not a table. -/
def entriesOf (t : Table) (sectionName : String) : Table :=
  match t.value? sectionName.toList with
  | some (.table _ entries) => entries
  | _ => []

def entry? (t : Table) (v : Variable) : Option Value :=
  (t.entriesOf v.sectionName).value? v.keyName.toList

/-- A section is a table if it is there. -/
def SectionFits (t : Table) (name : String) : Prop :=
  ∀ s, t.value? name.toList = some s → ∃ form entries, s = .table form entries

/-- Sections that are there are tables, and each value for a choice makes one. Other names may have
any value. -/
structure WellTyped (t : Table) : Prop where
  sectionFits : ∀ v : Variable, t.SectionFits v.sectionName
  isSome_ofValue? : ∀ (v : Variable) (x : Value), t.entry? v = some x → (v.ofValue? x).isSome

def words (t : Table) : WordOverrides where
  collectMetrics := (t.entry? .collectMetrics).bind Value.boolean?
  largeBufferThreshold := (t.entry? .largeBufferThreshold).bind Value.size?

def folding (t : Table) : FoldOverrides where
  skipQuotedStrings := (t.entry? .skipQuotedStrings).bind Value.boolean?
  logUnbalanced := (t.entry? .logUnbalanced).bind Value.boolean?

def journal (t : Table) : JournalOverrides where
  minLevel := (t.entry? .minLevel).bind Value.level?
  structured := (t.entry? .structured).bind Value.boolean?

end Toml.Table

namespace Preferences

def choice (p : Preferences) : (v : Variable) → v.Choice
  | .collectMetrics => p.lexical.collectMetrics
  | .largeBufferThreshold => p.lexical.largeBufferThreshold
  | .skipQuotedStrings => p.folding.skipQuotedStrings
  | .logUnbalanced => p.folding.logUnbalanced
  | .minLevel => p.logging.minLevel
  | .structured => p.logging.structured

/-- Each choice is that of the document if it has one, or else that of the environment if it has
one, or else the one that is built in. -/
def Layered (env : Environment) (t : Toml.Table) (p : Preferences) : Prop :=
  ∀ v : Variable, p.choice v =
    (((t.entry? v).bind v.ofValue?).or ((env.text? v).bind v.ofText?)).getD (builtin.choice v)

end Preferences

end DumpMode
