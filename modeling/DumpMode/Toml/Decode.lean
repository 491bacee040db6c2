import DumpMode.Decimal.Real
import DumpMode.Document.Misfit
import DumpMode.Toml.Value

/-!
# Values of known types from TOML

A value of a document is taken as a value of one type, or it does not fit. A record is a table with
entries for its fields, among which entries of other names are passed over; an array stands for the
values of the fields in order, and what it has too many is passed over as well. The entries are
taken in the order in which they were written, so the first that does not fit is the one reported.
-/

namespace DumpMode.Toml

open Document (Found Misfit)

/-- Every finite real number is written around a point. Ties go away from zero. -/
def realStyle : Decimal.Style := ⟨-400, 400, .away⟩

/-- The value as it is told of in a message. A date or a time counts as a map. -/
def Value.found : Value → Found
  | .string s => .string s
  | .integer n => .integer n
  | .real x => .real (Decimal.write realStyle x)
  | .boolean b => .boolean b
  | .array _ | .tables _ _ => .sequence
  | .moment | .table _ _ => .map

def Value.mismatch (v : Value) (expected : String) : Misfit := .wrongType v.found expected

/-- Takes a value as a value of one type. -/
abbrev Decoder (α : Type) := Value → Except Misfit α

/-! ## Simple values -/

def decodeBoolean : Decoder Bool
  | .boolean b => .ok b
  | v => .error (v.mismatch "a boolean")

/-- An offset, a size or a depth. Integers of a document are below the bound of these. -/
def decodeOffset : Decoder Nat
  | .integer n => if 0 ≤ n then .ok n.toNat else .error (.wrongValue (.integer n) "usize")
  | v => .error (v.mismatch "usize")

/-- What stands behind the name of a choice, which has to be an empty table or array. Tables under
headers of their own are never an empty array. -/
def Value.checkEmpty : Value → Except Misfit Unit
  | .table _ [] | .array [] => .ok ()
  | .table _ _ | .array _ => .error .nonemptyTable
  | .tables _ _ => .error .nonemptyArray
  | v => .error (.notATable v.kind)

/-- A choice: its name, or a table whose only entry has that name and an empty value. -/
def decodeChoice {α : Type} (choices : List (String × α)) : Decoder α
  | .string s => Document.choose choices s
  | .table _ [] => .error .noEntry
  | .table _ [(name, v)] => do
    let a ← Document.choose choices name
    v.checkEmpty
    return a
  | .table _ (_ :: _ :: _) => .error .severalEntries
  | _ => .error .notAChoice

/-! ## Records -/

/-- A field of a record; `σ` is the type of what has been taken of a record so far. -/
structure Field (σ : Type) where
  name : String
  take : σ → Decoder σ

/-- The field of a given name and type, whose value `set` puts in its place. -/
def Field.of {σ α : Type} (name : String) (value : Decoder α) (set : σ → α → σ) : Field σ where
  name := name
  take draft v := (value v).map (set draft)

structure Record (σ : Type) where
  name : String
  fields : List (Field σ)

namespace Record

variable {σ : Type}

def takeEntry (r : Record σ) (draft : σ) (entry : Text × Value) : Except Misfit σ :=
  match r.fields.find? (·.name.toList == entry.1) with
  | some f => f.take draft entry.2
  | none => .ok draft

/-- Takes the items of an array as the values of fields, in order. -/
def takeItems : List (Field σ) → σ → List Value → Except Misfit σ
  | f :: fields, draft, v :: items => do takeItems fields (← f.take draft v) items
  | _, draft, _ => .ok draft

def take (r : Record σ) (draft : σ) : Decoder σ
  | .table _ entries => entries.foldlM r.takeEntry draft
  | .array items => takeItems r.fields draft items
  | .tables earlier latest =>
    takeItems r.fields draft ((earlier ++ [latest]).map (.table .headed))
  | .moment => .ok draft
  | v => .error (v.mismatch s!"struct {r.name}")

end Record

end DumpMode.Toml
