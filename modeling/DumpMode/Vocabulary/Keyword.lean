/-!
# Keywords

The words that give a dump its structure. A keyword is written in capitals in a dump and with one
capital in a document.
-/

namespace DumpMode

/-- A word of the structure of a dump. -/
inductive Keyword where
  | attribute
  | comment
  | data
  | dataset
  | dataspace
  | datatype
  | group
  | softlink
deriving DecidableEq, Repr

namespace Keyword

def all : List Keyword :=
  [.attribute, .comment, .data, .dataset, .dataspace, .datatype, .group, .softlink]

/-- How a keyword is written in a dump. -/
def spelling : Keyword → String
  | .attribute => "ATTRIBUTE"
  | .comment => "COMMENT"
  | .data => "DATA"
  | .dataset => "DATASET"
  | .dataspace => "DATASPACE"
  | .datatype => "DATATYPE"
  | .group => "GROUP"
  | .softlink => "SOFTLINK"

/-- How a keyword is written in a document. -/
def documentName : Keyword → String
  | .attribute => "Attribute"
  | .comment => "Comment"
  | .data => "Data"
  | .dataset => "Dataset"
  | .dataspace => "Dataspace"
  | .datatype => "Datatype"
  | .group => "Group"
  | .softlink => "Softlink"

/-- The keyword that is written so in a dump; capitals matter. -/
def ofSpelling? : String → Option Keyword
  | "ATTRIBUTE" => some .attribute
  | "COMMENT" => some .comment
  | "DATA" => some .data
  | "DATASET" => some .dataset
  | "DATASPACE" => some .dataspace
  | "DATATYPE" => some .datatype
  | "GROUP" => some .group
  | "SOFTLINK" => some .softlink
  | _ => none

theorem mem_all (k : Keyword) : k ∈ all := by cases k <;> simp [all]

theorem ofSpelling?_spelling (k : Keyword) : ofSpelling? k.spelling = some k := by cases k <;> rfl

theorem spelling_of_ofSpelling? {s : String} {k : Keyword} (h : ofSpelling? s = some k) :
    k.spelling = s := by
  unfold ofSpelling? at h
  split at h <;> simp_all <;> subst h <;> rfl

end Keyword

end DumpMode
