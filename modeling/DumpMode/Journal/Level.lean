import DumpMode.Text.Blank

/-!
# Levels of events

Four levels from an error to a detail. A journal admits the events up to its own level. In the
environment a level is given by name or number, in any case and with blanks around it.
-/

namespace DumpMode.Journal

/-- How much an event matters, the gravest first. -/
inductive Level where
  | error
  | warning
  | info
  | debug
deriving DecidableEq, Repr, Ord

namespace Level

def all : List Level := [.error, .warning, .info, .debug]

def rank : Level → Nat
  | .error => 0
  | .warning => 1
  | .info => 2
  | .debug => 3

/-- How a level is shown in a line of the journal. -/
def label : Level → String
  | .error => "ERROR"
  | .warning => "WARN"
  | .info => "INFO"
  | .debug => "DEBUG"

/-- How a level is written in a document. -/
def documentName : Level → String
  | .error => "error"
  | .warning => "warning"
  | .info => "info"
  | .debug => "debug"

/-- Whether a journal of level `least` admits an event of a level. -/
def admits (least level : Level) : Bool := level.rank ≤ least.rank

/-- The level that a text names, blanks around it and the case of ASCII letters aside. -/
def parse? (text : List Char) : Option Level :=
  match String.ofList ((Text.trim text).map Char.toLower) with
  | "error" | "0" => some .error
  | "warn" | "warning" | "1" => some .warning
  | "info" | "2" => some .info
  | "debug" | "3" => some .debug
  | _ => none

theorem admits_iff {least level : Level} : admits least level = true ↔ level.rank ≤ least.rank := by
  simp [admits]

end Level

end DumpMode.Journal
