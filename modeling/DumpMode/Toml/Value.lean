import DumpMode.Text.Bytes

/-!
# Values and tables of TOML

A document is a table: named values in the order in which they were written. Whether more can be
added to a table later depends on how it came about, so every table keeps that as its form. Adding
follows a path of names through the tables inside a table, and makes those that are not there. One
rule covers all ways of adding: `Table.alter` changes the table at the end of a path, and the form
of each table on the way decides whether the path may lead through it.
-/

namespace DumpMode.Toml

/-- How a table came about. -/
inductive Form where
  /-- It is the document itself, or has a header of its own. -/
  | headed
  /-- It is named on the way to a table in a header, and may still get a header. -/
  | implied
  /-- It is named on the way to a value in a dotted key. -/
  | dotted
  /-- It is written in braces. -/
  | braces
  /-- It is named on the way to a value in a dotted key inside braces. -/
  | dottedInBraces
deriving DecidableEq, Repr

def Form.isInBraces : Form → Bool
  | .braces | .dottedInBraces => true
  | .headed | .implied | .dotted => false

inductive Value where
  | string (s : Text)
  | integer (n : Int)
  | real (x : Float)
  | boolean (b : Bool)
  | moment
  | array (items : List Value)
  | table (form : Form) (entries : List (Text × Value))
  /-- Tables that have the same header, one after the other. -/
  | tables (earlier : List (List (Text × Value))) (latest : List (Text × Value))

/-- Named values, in the order in which they were written. -/
abbrev Table := List (Text × Value)

def Value.kind : Value → String
  | .string _ => "string"
  | .integer _ => "integer"
  | .real _ => "float"
  | .boolean _ => "boolean"
  | .moment => "datetime"
  | .array _ => "array"
  | .table form _ => if form.isInBraces then "inline table" else "table"
  | .tables _ _ => "array of tables"

/-- A name with the names of the tables it is in, the outermost first. -/
structure Key where
  parents : List Text
  name : Text
deriving DecidableEq, Repr

def Key.path (k : Key) : List Text := k.parents ++ [k.name]

namespace Table

def value? (t : Table) (name : Text) : Option Value := t.lookup name

def replace (t : Table) (name : Text) (v : Value) : Table :=
  t.map fun e ↦ if e.1 = name then (name, v) else e

def add? (t : Table) (name : Text) (v : Value) : Option Table :=
  match t.value? name with
  | none => some (t ++ [(name, v)])
  | some _ => none

theorem add?_eq_some_iff {t u : Table} {name : Text} {v : Value} :
    t.add? name v = some u ↔ t.value? name = none ∧ u = t ++ [(name, v)] := by
  unfold add?
  cases t.value? name with
  | none => simp [eq_comm]
  | some _ => simp

/-! ## Paths -/

/-- Which tables a path may lead through. -/
structure Walk where
  /-- The form of tables that are made on the way. -/
  made : Form
  enters : Form → Bool

/-- The path of a header leads through every table that is not in braces. -/
def Walk.ofHeader : Walk := ⟨.implied, fun f ↦ !f.isInBraces⟩

/-- The path of a dotted key leads through tables that have neither a header nor braces. -/
def Walk.ofDots (made : Form) : Walk :=
  ⟨made, fun f ↦ f = .implied ∨ f = .dotted ∨ f = .dottedInBraces⟩

/-- Changes the table at the end of a path; `form` is the form of the table that the path starts
from. Of tables with the same header the latest is meant. -/
def alter (w : Walk) (change : Form → Table → Option Table) :
    List Text → Form → Table → Option Table
  | [], form, t => change form t
  | name :: path, _, t =>
    match t.value? name with
    | none => (alter w change path w.made []).map fun inner ↦ t ++ [(name, .table w.made inner)]
    | some (.table form inner) =>
      if w.enters form then
        (alter w change path form inner).map fun inner ↦ t.replace name (.table form inner)
      else none
    | some (.tables earlier latest) =>
      (alter w change path .headed latest).map fun inner ↦ t.replace name (.tables earlier inner)
    | some _ => none

/-- Adds a value under a key. A dotted key ends in a table that dotted keys have made. -/
def insert? (made : Form) (key : Key) (v : Value) : Table → Option Table :=
  alter (.ofDots made)
    (fun form t ↦
      if key.parents.isEmpty ∨ form = .dotted ∨ form = .dottedInBraces then t.add? key.name v
      else none)
    key.parents .headed

/-! ## Documents -/

/-- Opens the table of a header. A table that has only been implied so far keeps its values and
moves to the end of the table it is in. -/
def openTable? (key : Key) : Table → Option Table :=
  alter .ofHeader
    (fun _ t ↦
      match t.value? key.name with
      | none => some (t ++ [(key.name, .table .headed [])])
      | some (.table .implied inner) =>
        some (t.filter (·.1 ≠ key.name) ++ [(key.name, .table .headed inner)])
      | some _ => none)
    key.parents .headed

def openNext? (key : Key) : Table → Option Table :=
  alter .ofHeader
    (fun _ t ↦
      match t.value? key.name with
      | none => some (t ++ [(key.name, .tables [] [])])
      | some (.tables earlier latest) =>
        some (t.replace key.name (.tables (earlier ++ [latest]) []))
      | some _ => none)
    key.parents .headed

/-- Adds a value under a key to the table that a path of headers leads to. -/
def insertAt? (place : List Text) (key : Key) (v : Value) : Table → Option Table :=
  alter .ofHeader (fun _ t ↦ t.insert? .dotted key v) place .headed

end Table

end DumpMode.Toml
