/-!
# Codes of events

Every event has a code. The registered codes have a category, a severity and a description, and
say whether the condition behind them can be recovered from; any other code has the defaults of
`severity`, `isRecoverable`, `description` and `category`.
-/

namespace DumpMode.Journal

/-- How severe the condition behind a code is, the most severe first. -/
inductive Severity where
  | critical
  | high
  | medium
  | low
deriving DecidableEq, Repr, Ord

def Severity.name : Severity → String
  | .critical => "Critical"
  | .high => "High"
  | .medium => "Medium"
  | .low => "Low"

structure Code where
  text : String
deriving DecidableEq, Repr

/-- What is known of a registered code. -/
structure CodeInfo where
  code : Code
  /-- The part of the library that uses it. -/
  category : String
  severity : Severity
  /-- Whether work can go on in that condition. -/
  recoverable : Bool
  description : String
deriving Repr

namespace Code

/-! ## The codes in use -/

def matcherBuildFailed : Code := ⟨"E020"⟩
def overlappingClasses : Code := ⟨"E021"⟩
def largeBuffer : Code := ⟨"W020"⟩
def unbalancedClose : Code := ⟨"W030"⟩
def unterminatedRegion : Code := ⟨"W031"⟩
def fileReadFailed : Code := ⟨"E040"⟩
def invalidDocument : Code := ⟨"E041"⟩
def invalidValue : Code := ⟨"E042"⟩
def serializationFailed : Code := ⟨"E050"⟩
def registrationRejected : Code := ⟨"E051"⟩
def journalReady : Code := ⟨"I001"⟩
def classifierReady : Code := ⟨"I020"⟩
def classified : Code := ⟨"I021"⟩
def folded : Code := ⟨"I030"⟩
def preferencesLoaded : Code := ⟨"I040"⟩
def modeRegistered : Code := ⟨"I050"⟩
def plainWarning : Code := ⟨"W000"⟩
def plainInfo : Code := ⟨"I000"⟩
def plainDebug : Code := ⟨"D000"⟩

/-! ## The register -/

def registered : List CodeInfo :=
  [⟨matcherBuildFailed, "Lexical", .critical, false,
      "Token matcher could not be built from the token tables"⟩,
   ⟨overlappingClasses, "Lexical", .high, false,
      "A literal appears in more than one token class"⟩,
   ⟨largeBuffer, "Lexical", .low, true,
      "Buffer exceeds the size expected for interactive rescans"⟩,
   ⟨unbalancedClose, "Folding", .low, true,
      "Closing brace without a matching open brace"⟩,
   ⟨unterminatedRegion, "Folding", .low, true,
      "Open brace left unterminated at end of buffer"⟩,
   ⟨fileReadFailed, "Config", .medium, true, "Preferences file could not be read"⟩,
   ⟨invalidDocument, "Config", .medium, true, "Preferences file is not valid TOML"⟩,
   ⟨invalidValue, "Config", .medium, true, "Preference value out of range"⟩,
   ⟨serializationFailed, "Host", .medium, true,
      "Scan output could not be serialized for the host"⟩,
   ⟨registrationRejected, "Host", .high, true, "Host rejected the mode registration"⟩,
   ⟨journalReady, "System", .low, true, "Logging system initialized"⟩,
   ⟨classifierReady, "Lexical", .low, true, "Token matcher built"⟩,
   ⟨classified, "Lexical", .low, true, "Buffer classified"⟩,
   ⟨folded, "Folding", .low, true, "Fold regions computed"⟩,
   ⟨preferencesLoaded, "Config", .low, true, "Preferences loaded"⟩,
   ⟨modeRegistered, "Host", .low, true, "Mode registered with host"⟩]

def info? (c : Code) : Option CodeInfo := registered.find? (·.code == c)

/-- The severity of a code; a code that is not registered is of medium severity. -/
def severity (c : Code) : Severity := (c.info?.map (·.severity)).getD .medium

/-- Whether work can go on behind a code; it can behind one that is not registered. -/
def isRecoverable (c : Code) : Bool := (c.info?.map (·.recoverable)).getD true

def description (c : Code) : String := (c.info?.map (·.description)).getD "Unknown error"

def category (c : Code) : String := (c.info?.map (·.category)).getD "Unknown"

end Code

end DumpMode.Journal
