import DumpMode.Text.Quoted

/-!
# Values that do not fit

A document can be well formed and still hold a value where another is expected. A `Misfit` says
what was found and what was expected, and its message says it in words.
-/

namespace DumpMode.Document

/-- A value that was found in a document. -/
inductive Found where
  | null
  | boolean (b : Bool)
  | integer (n : Int)
  /-- A number that is not an integer, as it is written. -/
  | real (written : Text)
  | string (s : Text)
  | sequence
  | map
deriving DecidableEq, Repr

def Found.describe : Found → String
  | .null => "null"
  | .boolean b => s!"boolean `{b}`"
  | .integer n => s!"integer `{n}`"
  | .real written => s!"floating point `{String.ofList written}`"
  | .string s => s!"string {String.ofList (Text.quoted s)}"
  | .sequence => "sequence"
  | .map => "map"

/-- Why a value does not fit. -/
inductive Misfit where
  | missingField (name : String)
  | duplicateField (name : String)
  | unknownVariant (name : Text) (choices : List String)
  | wrongType (found : Found) (expected : String)
  | wrongValue (found : Found) (expected : String)
  | wrongLength (length : Nat) (record : String) (fields : Nat)
  | notAChoice
  | noEntry
  | severalEntries
  /-- The value behind the name of a choice is not a table. -/
  | notATable (kind : String)
  /-- The table or array behind the name of a choice is not empty. -/
  | nonemptyTable
  /-- There are tables with headers of their own behind the name of a choice. -/
  | nonemptyArray
deriving DecidableEq, Repr

def Misfit.message : Misfit → String
  | .missingField name => s!"missing field `{name}`"
  | .duplicateField name => s!"duplicate field `{name}`"
  | .unknownVariant name choices =>
    let known := String.intercalate ", " (choices.map fun c ↦ s!"`{c}`")
    s!"unknown variant `{String.ofList name}`, expected one of {known}"
  | .wrongType found expected => s!"invalid type: {found.describe}, expected {expected}"
  | .wrongValue found expected => s!"invalid value: {found.describe}, expected {expected}"
  | .wrongLength length record fields =>
    let unit := if fields = 1 then "element" else "elements"
    s!"invalid length {length}, expected struct {record} with {fields} {unit}"
  | .notAChoice => "wanted string or table"
  | .noEntry => "wanted exactly 1 element, found 0 elements"
  | .severalEntries => "wanted exactly 1 element, more than 1 element"
  | .notATable kind => s!"expected table, found {kind}"
  | .nonemptyTable => "expected empty table"
  | .nonemptyArray => "expected empty array"

def choose {α : Type} (choices : List (String × α)) (name : Text) : Except Misfit α :=
  match choices.find? (·.1.toList == name) with
  | some (_, a) => .ok a
  | none => .error (.unknownVariant name (choices.map Prod.fst))

end DumpMode.Document
