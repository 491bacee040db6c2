/-!
# Classes of words

Every word that is recognised in a dump has one class, and the names of datatypes have a group
within theirs. A class and a group have a name that is handed to renderers; documents spell a
group by a shorter name.
-/

namespace DumpMode

/-- What a recognised word is, in the order in which classes are presented. -/
inductive WordClass where
  /-- The marker on the first line of a dump. -/
  | warning
  | keyword
  | datatype
  /-- The kind of a dataspace. -/
  | constant
  /-- The name of a property in a datatype or link. -/
  | property
deriving DecidableEq, Repr, Ord

namespace WordClass

def all : List WordClass := [.warning, .keyword, .datatype, .constant, .property]

def name : WordClass → String
  | .warning => "warning"
  | .keyword => "keyword"
  | .datatype => "type"
  | .constant => "constant"
  | .property => "variable"

def ofName? (s : String) : Option WordClass := all.find? (·.name == s)

end WordClass

inductive TypeGroup where
  | integer
  | float
  | bitfield
  /-- Datatypes that are built of others. -/
  | composite
deriving DecidableEq, Repr

namespace TypeGroup

def all : List TypeGroup := [.integer, .float, .bitfield, .composite]

/-- The name of a group for renderers. -/
def name : TypeGroup → String
  | .integer => "integer-type"
  | .float => "float-type"
  | .bitfield => "bitfield-type"
  | .composite => "composite-type"

/-- The name of a group in a document. -/
def documentName : TypeGroup → String
  | .integer => "integer"
  | .float => "float"
  | .bitfield => "bitfield"
  | .composite => "composite"

end TypeGroup

end DumpMode
