import DumpMode.Text.Bytes
import DumpMode.Vocabulary.Keyword
import DumpMode.Vocabulary.WordClass

/-!
# The table of words

The recognised words, each in one row with its class and, for datatypes, its group. A word is
looked up by exact comparison. The rows stand in the order in which classes are presented, and
`duplicates` finds the words that a table lists more than once.
-/

namespace DumpMode.Vocabulary

/-- A row of a table of words. -/
structure Entry where
  word : Text
  wordClass : WordClass
  /-- The group of a datatype. -/
  group : Option TypeGroup
deriving DecidableEq, Repr

def Entry.spelling (e : Entry) : String := String.ofList e.word

/-! ## The words by role -/

/-- The format marker on the first line of every dump. -/
def warningMarkers : List String := ["HDF5"]

/-- Integer datatypes: those of fixed size and byte order, then those of the machine. -/
def integerTypes : List String :=
  ["H5T_STD_I8BE", "H5T_STD_I8LE", "H5T_STD_I16BE", "H5T_STD_I16LE",
   "H5T_STD_I32BE", "H5T_STD_I32LE", "H5T_STD_I64BE", "H5T_STD_I64LE",
   "H5T_STD_U8BE", "H5T_STD_U8LE", "H5T_STD_U16BE", "H5T_STD_U16LE",
   "H5T_STD_U32BE", "H5T_STD_U32LE", "H5T_STD_U64BE", "H5T_STD_U64LE",
   "H5T_NATIVE_CHAR", "H5T_NATIVE_UCHAR", "H5T_NATIVE_SHORT", "H5T_NATIVE_USHORT",
   "H5T_NATIVE_INT", "H5T_NATIVE_UINT", "H5T_NATIVE_LONG", "H5T_NATIVE_ULONG",
   "H5T_NATIVE_LLONG", "H5T_NATIVE_ULLONG"]

def floatTypes : List String :=
  ["H5T_IEEE_F32BE", "H5T_IEEE_F32LE", "H5T_IEEE_F64BE", "H5T_IEEE_F64LE",
   "H5T_NATIVE_FLOAT", "H5T_NATIVE_DOUBLE", "H5T_NATIVE_LDOUBLE"]

def bitfieldTypes : List String :=
  ["H5T_STD_B8BE", "H5T_STD_B8LE", "H5T_STD_B16BE", "H5T_STD_B16LE",
   "H5T_STD_B32BE", "H5T_STD_B32LE", "H5T_STD_B64BE", "H5T_STD_B64LE"]

/-- The markers of datatypes that are built of others. -/
def compositeTypes : List String :=
  ["H5T_ARRAY", "H5T_COMPOUND", "H5T_REFERENCE", "H5T_STRING", "H5T_VLEN"]

def constants : List String := ["SCALAR", "SIMPLE"]

def properties : List String := ["CSET", "CTYPE", "HARDLINK", "LINKTARGET", "STRPAD", "STRSIZE"]

def typesOf : TypeGroup → List String
  | .integer => integerTypes
  | .float => floatTypes
  | .bitfield => bitfieldTypes
  | .composite => compositeTypes

/-! ## The table -/

/-- The rows of words that have a class but no group. -/
def ungrouped (c : WordClass) (words : List String) : List Entry :=
  words.map fun w ↦ ⟨w.toList, c, none⟩

def grouped (g : TypeGroup) : List Entry := (typesOf g).map fun w ↦ ⟨w.toList, .datatype, some g⟩

/-- The recognised words, in the order in which classes are presented. -/
def table : List Entry :=
  ungrouped .warning warningMarkers ++ ungrouped .keyword (Keyword.all.map Keyword.spelling) ++
    TypeGroup.all.flatMap grouped ++ ungrouped .constant constants ++
      ungrouped .property properties

def find? (rows : List Entry) (word : Text) : Option Entry := rows.find? (·.word == word)

def entry? (word : Text) : Option Entry := find? table word

/-- The words of some rows that an earlier row lists already, once for each time they are repeated;
`seen` are the words of the rows before. -/
def duplicatesAfter (seen : List Text) : List Entry → List Text
  | [] => []
  | e :: rows =>
    if e.word ∈ seen then e.word :: duplicatesAfter seen rows
    else duplicatesAfter (e.word :: seen) rows

/-- The words that a table repeats, once for each time they are repeated. -/
def duplicates (rows : List Entry) : List Text := duplicatesAfter [] rows

end DumpMode.Vocabulary
