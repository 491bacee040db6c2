import DumpMode.Breach
import DumpMode.Text.Bytes

/-!
# Positions and spans

A position is a byte offset together with the line and column it falls on, both counted from one.
Positions that were not looked up in a line map have line and column zero. A span is a pair of
positions; its maker checks their order, but a decoded span may be out of order, so the operations
on spans check again what they need.
-/

namespace DumpMode

structure Position where
  /-- Bytes before the place. -/
  offset : Nat
  /-- Number of the line, from one. -/
  line : Nat
  /-- Number of the character on its line, from one. -/
  column : Nat
deriving DecidableEq, Repr, Ord

namespace Position

def start : Position := ⟨0, 1, 1⟩

/-- The place at an offset that is not resolved to a line and column. -/
def atOffset (offset : Nat) : Position := ⟨offset, 0, 0⟩

def label (p : Position) : String := s!"{p.line}:{p.column}"

end Position

/-- A stretch of a text. -/
structure Span where
  start : Position
  /-- The place behind the stretch. -/
  stop : Position
deriving DecidableEq, Repr

namespace Span

def between? (start stop : Position) : Except Breach Span :=
  if start.offset ≤ stop.offset then .ok ⟨start, stop⟩ else .error .reversedSpan

/-- The span between two offsets that are not resolved to lines. -/
def atOffsets (start stop : Nat) : Span := ⟨.atOffset start, .atOffset stop⟩

def ofOffsets? (start stop : Nat) : Except Breach Span :=
  between? (.atOffset start) (.atOffset stop)

def length? (s : Span) : Except Breach Nat :=
  if s.start.offset ≤ s.stop.offset then .ok (s.stop.offset - s.start.offset)
  else .error .negativeDifference

def isEmpty (s : Span) : Bool := s.start.offset == s.stop.offset

/-- Whether an offset lies in a span, the end excluded. -/
def containsOffset (s : Span) (offset : Nat) : Bool :=
  s.start.offset ≤ offset && offset < s.stop.offset

def slice? (s : Span) (text : Text) : Except Breach Text :=
  match Text.slice? text s.start.offset s.stop.offset with
  | some part => .ok part
  | none => .error .badSlice

/-- The span by lines and columns; on one line, the line is given once. -/
def label (s : Span) : String :=
  if s.start.line = s.stop.line then s!"{s.start.line}:{s.start.column}-{s.stop.column}"
  else s!"{s.start.label}-{s.stop.label}"

theorem containsOffset_iff {s : Span} {offset : Nat} :
    s.containsOffset offset = true ↔ s.start.offset ≤ offset ∧ offset < s.stop.offset := by
  simp [containsOffset]

end Span

end DumpMode
