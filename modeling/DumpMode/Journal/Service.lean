import DumpMode.Journal.Memory
import DumpMode.Preferences.Basic

/-!
# Journal services

A service passes on the events of the levels it admits to one destination: to lines of words, to
lines of JSON, or to a memory. At most one service is installed; the first one that is, stays.
Before that, events are dropped.
-/

namespace DumpMode.Journal

/-- Where admitted events go. -/
inductive Destination where
  /-- Lines of words. -/
  | console
  /-- Lines of JSON. -/
  | structured
  | memory
deriving DecidableEq, Repr

/-- The line that an event is written as, with the given text for its time; a memory writes
none. -/
def Destination.line? (d : Destination) (e : Event) (time : Text) : Option Text :=
  match d with
  | .console => some (e.consoleLine time)
  | .structured => some (e.structuredLine time)
  | .memory => none

/-- A destination behind a filter. -/
structure Service where
  destination : Destination
  minLevel : Level
deriving DecidableEq, Repr

namespace Service

/-- The service that preferences ask for. -/
def ofPreferences (p : JournalPreferences) : Service :=
  ⟨if p.structured then .structured else .console, p.minLevel⟩

def admits (s : Service) (level : Level) : Bool := s.minLevel.admits level

def passed (s : Service) (events : List Event) : List Event :=
  events.filter fun e ↦ s.admits e.level

/-- Hands an event to a service whose destination is the given memory. -/
def log (s : Service) (m : Memory) (e : Event) : Memory :=
  if s.admits e.level then m.record e else m

end Service

/-! ## The installed service -/

/-- What a process has of a journal. -/
structure Installation where
  /-- The service that was installed first, if any was. -/
  service : Option Service
  /-- What that service's memory holds. -/
  memory : Memory

/-- A service cannot be installed because there is one already. -/
inductive InstallError where
  | alreadyInstalled
deriving DecidableEq, Repr

def InstallError.message : InstallError → String
  | .alreadyInstalled => "Global logger already initialized"

def readyEvent : Event := .success .journalReady "Global logging system initialized"

namespace Installation

def none : Installation := ⟨.none, .empty⟩

def isReady (i : Installation) : Bool := i.service.isSome

/-- Whether an event of a level would be passed on. -/
def admits (i : Installation) (level : Level) : Bool := i.service.any (·.admits level)

def passed (i : Installation) (events : List Event) : List Event :=
  match i.service with
  | .none => []
  | some s => s.passed events

/-- Logs some events; those that are passed on to a memory are kept in it. -/
def log (i : Installation) (events : List Event) : Installation :=
  match i.service with
  | .none => i
  | some s =>
    match s.destination with
    | .memory => { i with memory := i.memory.recordAll (s.passed events) }
    | .console | .structured => i

/-- Installs a service, unless there is one. -/
def install (i : Installation) (s : Service) : Except InstallError Installation :=
  match i.service with
  | .none => .ok { i with service := some s }
  | some _ => .error .alreadyInstalled

/-- Installs the service that preferences ask for, and logs that it is ready. The events passed on
are returned with the installation. -/
def start (i : Installation) (p : JournalPreferences) :
    Except InstallError (Installation × List Event) := do
  let i ← i.install (.ofPreferences p)
  return (i.log [readyEvent], i.passed [readyEvent])

def lines (i : Installation) (time : Text) (passed : List Event) : List Text :=
  match i.service with
  | .none => []
  | some s => passed.filterMap fun e ↦ s.destination.line? e time

end Installation

end DumpMode.Journal
