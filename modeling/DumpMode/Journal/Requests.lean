import DumpMode.Journal.Service
import Mathlib.Data.List.DropRight

/-!
# Runs of a journal

What can be asked of a service over a memory, and what a process can do with its journal, one thing
after the other. A service over a memory is asked to log and to forget. A process installs services,
in one of two ways, and logs events to whatever is installed; each of its calls is answered and
sends some events to the destination of the installed service.
-/

namespace DumpMode.Journal

/-! ## A service over a memory -/

/-- What can be asked of a service over a memory. -/
inductive Request where
  | log (e : Event)
  | error (code : Code) (message : String)
  | success (code : Code) (message : String)
  | clear

namespace Request

/-- The event that a request logs; none if it clears the memory. -/
def event? : Request → Option Event
  | .log e => some e
  | .error code message => some (.error code message)
  | .success code message => some (.success code message)
  | .clear => none

/-- The events logged by the requests behind the last one that clears the memory, in order. -/
def loggedSinceClear (rs : List Request) : List Event :=
  (rs.rtakeWhile (·.event?.isSome)).filterMap event?

/-- Whether a service of level `least` does anything when it gets the request. -/
def matters (least : Level) (r : Request) : Bool := r.event?.all fun e ↦ least.admits e.level

end Request

namespace Service

def serve (s : Service) (m : Memory) : Request → Memory
  | .log e => s.log m e
  | .error code message => s.log m (.error code message)
  | .success code message => s.log m (.success code message)
  | .clear => .empty

def serveAll (s : Service) (m : Memory) (rs : List Request) : Memory := rs.foldl s.serve m

end Service

/-! ## The journal of a process -/

/-- The event pointing at a stretch of text, if one is given, and carrying further values. -/
def Event.attached (e : Event) (span : Option Span) (values : List (String × String)) : Event :=
  let placed := match span with
    | some s => e.spanning s
    | none => e
  placed.havingAll values

/-- What a process can do with its journal. -/
inductive Call where
  /-- Start the service that preferences ask for. -/
  | start (p : JournalPreferences)
  | install (s : Service)
  /-- Log an event with a place and values attached to it. -/
  | log (e : Event) (span : Option Span) (values : List (String × String))

def Call.service? : Call → Option Service
  | .start p => some (.ofPreferences p)
  | .install s => some s
  | .log _ _ _ => none

def Call.event? : Call → Option Event
  | .start _ | .install _ => none
  | .log e span values => some (e.attached span values)

/-- What comes of a call. -/
structure Outcome where
  /-- The answer to a call that wants a service installed. -/
  answer : Option (Except InstallError Unit)
  /-- The events that are sent to the destination of the installed service. -/
  sent : List Event

namespace Installation

/-- Carries out a call. One that fails changes nothing. -/
def perform (i : Installation) : Call → Outcome × Installation
  | .start p =>
    match i.start p with
    | .ok (i', sent) => (⟨some (.ok ()), sent⟩, i')
    | .error f => (⟨some (.error f), []⟩, i)
  | .install s =>
    match i.install s with
    | .ok i' => (⟨some (.ok ()), []⟩, i')
    | .error f => (⟨some (.error f), []⟩, i)
  | .log e span values =>
    (⟨.none, i.passed [e.attached span values]⟩, i.log [e.attached span values])

def after (i : Installation) (calls : List Call) : Installation :=
  calls.foldl (fun i c ↦ (i.perform c).2) i

def sentBy (i : Installation) : List Call → List Event
  | [] => []
  | c :: calls => (i.perform c).1.sent ++ (i.perform c).2.sentBy calls

end Installation

end DumpMode.Journal
