import DumpMode.Json.Value
import DumpMode.Vocabulary.WordClass

/-!
# Registration of the mode

What a host has to know to use the mode for a file: its names, the extensions and the media type
that select it, the classes it emits and the characters that fold. A path selects the mode by the
extension of its last component. Paths are sequences of bytes; their components are separated by
slashes, and empty components and single dots say nothing.
-/

namespace DumpMode.Editor

/-! ## Paths -/

def slash : UInt8 := 47

def dot : UInt8 := 46

/-- The pieces of a sequence between the places where a byte occurs, in order. -/
def splitAt (separator : UInt8) : List UInt8 → List (List UInt8)
  | [] => [[]]
  | b :: rest =>
    match splitAt separator rest with
    | [] => [[]]
    | piece :: pieces =>
      if b = separator then [] :: piece :: pieces else (b :: piece) :: pieces

/-- The components of a path, without those that say nothing. -/
def components (path : List UInt8) : List (List UInt8) :=
  (splitAt slash path).filter fun c ↦ !c.isEmpty && c != [dot]

/-- The last component of a path, if it is a name and not the step to a parent. -/
def fileName? (path : List UInt8) : Option (List UInt8) :=
  (components path).getLast?.filter (· != [dot, dot])

/-- The part of a name behind its last dot; a dot at the very front does not count. -/
def extensionOf? (name : List UInt8) : Option (List UInt8) :=
  match name.reverse.dropWhile (· != dot) with
  | [] | [_] => none
  | _ :: _ :: _ => some (name.reverse.takeWhile (· != dot)).reverse

def extension? (path : List UInt8) : Option (List UInt8) := (fileName? path).bind extensionOf?

/-- A byte with the case of an ASCII letter taken away. -/
def lowerByte (b : UInt8) : UInt8 := if 65 ≤ b ∧ b ≤ 90 then b + 32 else b

/-! ## The mode -/

/-- What a host has to know of a mode. -/
structure Registration where
  name : String
  displayName : String
  /-- The extensions of its files, without the dot. -/
  extensions : List String
  mimeType : String
  /-- The classes that its tags have, in order. -/
  classes : List String
  foldOpen : Char
  foldClose : Char

namespace Registration

def dump : Registration where
  name := "h5dump"
  displayName := "HDF5 Dump"
  extensions := ["h5dump", "ddl"]
  mimeType := "text/x-h5dump"
  classes := WordClass.all.map WordClass.name
  foldOpen := '\x7b'
  foldClose := '\x7d'

/-- Whether a path selects the mode, the case of ASCII letters in its extension aside. -/
def matchesPath (r : Registration) (path : List UInt8) : Bool :=
  (extension? path).any fun e ↦
    r.extensions.any fun known ↦ known.toUTF8.toList.map lowerByte == e.map lowerByte

def object (r : Registration) : Json.Value :=
  .object
    [Json.member "name" (.word r.name), Json.member "display_name" (.word r.displayName),
     Json.member "extensions" (.array (r.extensions.map .word)),
     Json.member "mime_type" (.word r.mimeType),
     Json.member "token_classes" (.array (r.classes.map .word)),
     Json.member "fold_open" (.string [r.foldOpen]),
     Json.member "fold_close" (.string [r.foldClose])]

end Registration

end DumpMode.Editor
