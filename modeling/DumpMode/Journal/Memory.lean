import DumpMode.Journal.Event

/-!
# A journal in memory

Keeps the latest events for someone who asks for them later. When it is full, each new event takes
the place of the oldest one.
-/

namespace DumpMode.Journal

/-- The number of events that are kept. -/
def capacity : Nat := 1000

/-- The events kept, the oldest first. -/
structure Memory where
  events : List Event

namespace Memory

def empty : Memory := ⟨[]⟩

/-- Keeps one more event, making room for it if there is none. -/
def record (m : Memory) (e : Event) : Memory :=
  let excess := m.events.length + 1 - capacity
  ⟨m.events.drop excess ++ [e]⟩

def recordAll (m : Memory) (events : List Event) : Memory := events.foldl record m

def count (m : Memory) : Nat := m.events.length

def warnings (m : Memory) : List Event := m.events.filter (·.level == .warning)

def withCode (m : Memory) (c : Code) : List Event := m.events.filter (·.code == c)

end Memory

end DumpMode.Journal
