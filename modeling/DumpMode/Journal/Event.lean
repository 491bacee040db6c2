import DumpMode.Journal.Code
import DumpMode.Journal.Context
import DumpMode.Journal.Level
import DumpMode.Journal.Timestamp
import DumpMode.Json.Value
import DumpMode.Location

/-!
# Events

What the library reports while it works. An event has a level, a code and a message, and may point
at a stretch of text and carry named values. It is written in two ways: as one line of words, and
as one JSON object on one line, whose members stand in the order of their names. An event that has
been stamped with the time is an entry of a journal.
-/

namespace DumpMode.Journal

/-- Something worth reporting. -/
structure Event where
  level : Level
  code : Code
  message : String
  span : Option Span
  /-- The values that belong to it. -/
  context : Context

namespace Event

/-! ## Making events -/

/-- An event that points nowhere and carries nothing. -/
def plain (level : Level) (code : Code) (message : String) : Event :=
  ⟨level, code, message, none, .empty⟩

def error (code : Code) (message : String) : Event := plain .error code message

def warning (code : Code) (message : String) : Event := plain .warning code message

def success (code : Code) (message : String) : Event := plain .info code message

def info (message : String) : Event := plain .info .plainInfo message

def debug (message : String) : Event := plain .debug .plainDebug message

def spanning (e : Event) (span : Span) : Event := { e with span := some span }

def having (e : Event) (name value : String) : Event :=
  { e with context := e.context.insert name value }

/-- The event carrying further values, a later one in place of an earlier one of its name. -/
def havingAll (e : Event) (values : List (String × String)) : Event :=
  values.foldl (fun e v ↦ e.having v.1 v.2) e

/-! ## Writing events -/

def severity (e : Event) : Severity := e.code.severity

def category (e : Event) : String := e.code.category

/-- The event in words: level, code and message, the place where it begins, and its values. -/
def text (e : Event) : String :=
  let place := (e.span.map fun s ↦ s!" at {s.start.label}").getD ""
  let values := String.join (e.context.entries.map fun v ↦ s!" {v.1}={v.2}")
  s!"[{e.level.label}] {e.code.text} - {e.message}{place}{values}"

/-- The offsets of a span, and the line and column of its start. -/
def spanObject (s : Span) : Json.Value :=
  .object
    [Json.member "end_offset" (.number s.stop.offset),
     Json.member "start_column" (.number s.start.column),
     Json.member "start_line" (.number s.start.line),
     Json.member "start_offset" (.number s.start.offset)]

def contextObject (c : Context) : Json.Value :=
  .object (c.entries.map fun v ↦ (v.1.toList, .word v.2))

/-- The event as an object, with the given text for its time. A place and values that the event
does not have are left out. -/
def object (e : Event) (time : Text) : Json.Value :=
  .object <|
    [Json.member "category" (.word e.category), Json.member "code" (.word e.code.text)] ++
    (if e.context.entries.isEmpty then [] else [Json.member "context" (contextObject e.context)]) ++
    [Json.member "level" (.word e.level.label), Json.member "message" (.word e.message),
     Json.member "severity" (.word e.severity.name)] ++
    (e.span.map fun s ↦ Json.member "span" (spanObject s)).toList ++
    [Json.member "timestamp" (.string time)]

def structuredLine (e : Event) (time : Text) : Text := Json.render (e.object time)

def consoleLine (e : Event) (time : Text) : Text := time ++ ' ' :: e.text.toList

end Event

structure Entry where
  time : Timestamp
  event : Event

namespace Entry

/-- The entry as a line of JSON, with its exact time. -/
def structuredLine (e : Entry) : Text := e.event.structuredLine e.time.exactText

/-- The entry as a line of words, with its time to the millisecond. -/
def consoleLine (e : Entry) : Text := e.event.consoleLine e.time.millisecondText

end Entry

end DumpMode.Journal
