import DumpMode.Location

/-!
# Lines of a text

A line map knows where each line of a text begins, and turns a byte offset into a line and a
column. A line ends at a newline; carriage returns before it, and at the end of the text, do not
belong to the line that is handed out. Columns count characters, except at an offset inside a
character, which has no character of its own: there the bytes since the start of the line count.
-/

namespace DumpMode

structure LineStart where
  offset : Nat
  /-- The text from there on, to the end of the whole text. -/
  rest : Text

/-- The beginnings of all lines of a text, and its size in bytes. -/
structure LineMap where
  lines : List LineStart
  size : Nat

namespace LineMap

/-- The beginnings of the lines behind each newline of a text that starts at `offset`; `found`
holds those passed already, the latest first. -/
def startsBehind (offset : Nat) (found : List LineStart) : Text → List LineStart
  | [] => found.reverse
  | c :: rest =>
    let next := offset + c.utf8Size
    startsBehind next (if c = '\n' then ⟨next, rest⟩ :: found else found) rest

def ofText (text : Text) : LineMap where
  lines := ⟨0, text⟩ :: startsBehind 0 [] text
  size := text.byteLength

def lineCount (map : LineMap) : Nat := map.lines.length

/-- The number of the line that an offset falls on, for any offset: the lines that begin there or
before it are counted. -/
def lineOf (map : LineMap) (offset : Nat) : Nat :=
  map.lines.countP (fun l ↦ decide (l.offset ≤ offset)) % lineBound

/-- How far an offset lies behind the start of a line: in characters, or in bytes if the offset is
inside a character. -/
def distanceFrom (l : LineStart) (offset : Nat) : Nat :=
  match Text.splitBytes? (offset - l.offset) l.rest with
  | some (passed, _) => passed.length
  | none => offset - l.offset

/-- The position of an offset; offsets past the end of the text stand for its end. -/
def position? (map : LineMap) (offset : Nat) : Except Breach Position :=
  let offset := min offset map.size
  match map.lineOf offset with
  | 0 => .error .negativeDifference
  | index + 1 =>
    match map.lines[index]? with
    | none => .error .badSlice
    | some l => .ok ⟨offset, index + 1, (distanceFrom l offset + 1) % lineBound⟩

def span? (map : LineMap) (start stop : Nat) : Except Breach Span := do
  Span.between? (← map.position? start) (← map.position? stop)

def dropReturns (text : Text) : Text := (text.reverse.dropWhile (· == '\r')).reverse

/-- The text of a line, counted from one, without its line end. -/
def line? (map : LineMap) (number : Nat) : Option Text :=
  match number with
  | 0 => none
  | index + 1 => map.lines[index]?.map fun l ↦ dropReturns (l.rest.takeWhile (· != '\n'))

end LineMap

end DumpMode
