import DumpMode.Breach
import DumpMode.Preferences.Overrides
import DumpMode.Text.Bytes
import DumpMode.Text.Digits

/-!
# Preferences from the environment

Six variables of the environment can change the preferences that hold where a document says
nothing. A variable counts if it is valid UTF-8 and, blanks around it aside, spells a value;
otherwise it is as if it were not set.
-/

namespace DumpMode

/-- A variable of the environment that is looked at. -/
inductive Variable where
  | collectMetrics
  | largeBufferThreshold
  | skipQuotedStrings
  | logUnbalanced
  | minLevel
  | structured
deriving DecidableEq, Repr

def Variable.name : Variable → String
  | .collectMetrics => "H5DUMP_LEXICAL_COLLECT_METRICS"
  | .largeBufferThreshold => "H5DUMP_LEXICAL_LARGE_BUFFER_THRESHOLD"
  | .skipQuotedStrings => "H5DUMP_FOLDING_SKIP_QUOTED"
  | .logUnbalanced => "H5DUMP_FOLDING_LOG_UNBALANCED"
  | .minLevel => "H5DUMP_LOGGING_MIN_LEVEL"
  | .structured => "H5DUMP_LOGGING_STRUCTURED"

/-- What an environment sets the variables to, as bytes. -/
abbrev Environment := Variable → Option ByteArray

namespace Environment

def empty : Environment := fun _ ↦ none

/-- The value of a variable, if it is a text. -/
def text? (env : Environment) (v : Variable) : Option Text :=
  (env v).bind fun bytes ↦ (String.fromUTF8? bytes).map String.toList

def boolean? (text : Text) : Option Bool :=
  match String.ofList (Text.trim text) with
  | "true" => some true
  | "false" => some false
  | _ => none

/-- The size that a text spells in decimal digits, with or without a plus sign. -/
def size? (text : Text) : Option Nat :=
  let digits := match Text.trim text with
    | '+' :: rest => rest
    | digits => digits
  if digits.isEmpty then none else Text.decimalBelow? offsetBound 0 digits

def words (env : Environment) : WordOverrides where
  collectMetrics := (env.text? .collectMetrics).bind boolean?
  largeBufferThreshold := (env.text? .largeBufferThreshold).bind size?

def folding (env : Environment) : FoldOverrides where
  skipQuotedStrings := (env.text? .skipQuotedStrings).bind boolean?
  logUnbalanced := (env.text? .logUnbalanced).bind boolean?

def journal (env : Environment) : JournalOverrides where
  minLevel := (env.text? .minLevel).bind Journal.Level.parse?
  structured := (env.text? .structured).bind boolean?

end Environment

namespace Preferences

def ofEnvironment (env : Environment) : Preferences where
  lexical := env.words.over builtin.lexical
  folding := env.folding.over builtin.folding
  logging := env.journal.over builtin.logging

/-- The choices for folding that count every brace, whatever the environment says about quoted
strings. -/
def plainBraces (env : Environment) : FoldPreferences :=
  { (ofEnvironment env).folding with skipQuotedStrings := false }

end Preferences

end DumpMode
