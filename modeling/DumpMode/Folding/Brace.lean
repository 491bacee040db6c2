import DumpMode.Text.Bytes

/-!
# Braces of a text

The braces that fold a text, in order, each with its offset and the number of braces open before
it. On request the braces inside quoted strings are left out. A quoted string begins at a quote
and ends at the next one; a backslash inside a string takes the character behind it along, whatever
that is, and a backslash elsewhere means nothing. A string that is never closed reaches to the end
of the text.
-/

namespace DumpMode.Folding

/-! ## Quoted strings -/

/-- Where a place lies with respect to quoted strings. -/
inductive Quoting where
  | outside
  | inside
  /-- In a string, behind a backslash that takes the next character along. -/
  | escaped
deriving DecidableEq, Repr

namespace Quoting

def after (q : Quoting) (c : Char) : Quoting :=
  match q with
  | .outside => if c = '"' then .inside else .outside
  | .inside => if c = '\\' then .escaped else if c = '"' then .outside else .inside
  | .escaped => .inside

/-- Whether a character at a place is part of a quoted string, its quotes included. -/
def covers (q : Quoting) (c : Char) : Bool := q != .outside || c == '"'

end Quoting

/-! ## Braces -/

structure Brace where
  offset : Nat
  opens : Bool
  /-- How many braces are open before it; closing braces with no partner do not count. -/
  depth : Nat
deriving DecidableEq, Repr

/-- How far a text has been read. -/
structure Reading where
  /-- Where the place lies with respect to quoted strings; always outside if they do not matter. -/
  quoting : Quoting
  offset : Nat
  /-- The number of braces open there. -/
  depth : Nat
  /-- The braces passed, the latest first. -/
  passed : List Brace
deriving DecidableEq, Repr

namespace Reading

def start : Reading := ⟨.outside, 0, 0, []⟩

def passOpening (r : Reading) : Reading :=
  { r with depth := r.depth + 1, passed := ⟨r.offset, true, r.depth⟩ :: r.passed }

/-- Passes a closing brace; with nothing open, nothing is closed. -/
def passClosing (r : Reading) : Reading :=
  { r with depth := r.depth - 1, passed := ⟨r.offset, false, r.depth⟩ :: r.passed }

/-- Looks at a character that is not in a quoted string. -/
def look (r : Reading) (c : Char) : Reading :=
  if c = '\x7b' then r.passOpening else if c = '\x7d' then r.passClosing else r

/-- Reads a character; with `skipQuoted`, what is in quoted strings is not looked at. -/
def step (skipQuoted : Bool) (r : Reading) (c : Char) : Reading :=
  let seen := if skipQuoted && r.quoting.covers c then r else r.look c
  { seen with
    quoting := if skipQuoted then r.quoting.after c else r.quoting
    offset := r.offset + c.utf8Size }

def read (skipQuoted : Bool) (r : Reading) (text : Text) : Reading :=
  text.foldl (step skipQuoted) r

@[simp] theorem read_nil (skipQuoted : Bool) (r : Reading) : r.read skipQuoted [] = r := rfl

@[simp] theorem read_cons (skipQuoted : Bool) (r : Reading) (c : Char) (text : Text) :
    r.read skipQuoted (c :: text) = (r.step skipQuoted c).read skipQuoted text := rfl

theorem read_append (skipQuoted : Bool) (r : Reading) (front back : Text) :
    r.read skipQuoted (front ++ back) = (r.read skipQuoted front).read skipQuoted back :=
  List.foldl_append

end Reading

/-- The braces of a text, in order; with `skipQuoted`, those in quoted strings are left out. -/
def braces (skipQuoted : Bool) (text : Text) : List Brace :=
  (Reading.start.read skipQuoted text).passed.reverse

end DumpMode.Folding
