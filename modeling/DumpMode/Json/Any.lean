import DumpMode.Json.Decode
import DumpMode.Json.Value

/-!
# Reading any value

A value whose type is not known in advance is told by its first character. Brackets may be nested up
to a limit, so that a text cannot make the reader go as deep as it likes. Since the numbers of a
`Value` are natural, other numbers are refused.

An object is read with all its members in the order of the text. If a name occurs more than once,
it stands for the last value that the object gives it.
-/

namespace DumpMode.Json

/-! ## Objects -/

/-- A member of an object behind the quote that opens its name. -/
def readPair {α : Type} (value : Reader α) : Reader (Text × α) := fun text ↦ do
  let (name, rest) ← readString text
  let (a, rest) ← value (← readColon rest)
  return ((name, a), rest)

/-- The members of an object behind its opening brace; `found` holds those read, the latest first.
Each member takes up some of the text, so `fuel` lasts if it is more than the length of the text. -/
def readPairs {α : Type} (value : Reader α) : Nat → List (Text × α) → Reader (List (Text × α))
  | 0, _, _ => .error .malformed
  | fuel + 1, found, text => do
    match skipBlank text with
    | [] => .error .ended
    | '\x7d' :: rest => return (found.reverse, rest)
    | c :: rest =>
      if found.isEmpty then
        if c = '"' then
          let (m, rest) ← readPair value rest
          readPairs value fuel [m] rest
        else .error .malformed
      else if c = ',' then
        match skipBlank rest with
        | [] => .error .ended
        | '"' :: rest =>
          let (m, rest) ← readPair value rest
          readPairs value fuel (m :: found) rest
        | _ => .error .malformed
      else .error .malformed

def readMap {α : Type} (value : Reader α) : Reader (List (Text × α)) := fun text ↦
  match skipBlank text with
  | '\x7b' :: rest => readPairs value (rest.length + 1) [] rest
  | rest => .error (mismatch "a map" rest)

/-! ## Values -/

def readScalar : Reader Value := fun text ↦
  match skipBlank text with
  | 'n' :: _ => (readNull text).map fun r ↦ (.null, r)
  | 't' :: _ | 'f' :: _ => (readBoolean text).map fun (b, r) ↦ (.boolean b, r)
  | '"' :: rest => (readString rest).map fun (s, r) ↦ (.string s, r)
  | _ => (readNatural integerBound "u64" text).map fun (n, r) ↦ (.number n, r)

/-- A value with brackets that are nested up to a depth. -/
def readNested : Nat → Reader Value
  | 0, text => readScalar text
  | depth + 1, text =>
    match skipBlank text with
    | '[' :: _ => (readList (readNested depth) text).map fun (items, r) ↦ (.array items, r)
    | '\x7b' :: _ => (readMap (readNested depth) text).map fun (members, r) ↦ (.object members, r)
    | _ => readScalar text

def nestingLimit : Nat := 127

def readAny : Reader Value := readNested nestingLimit

/-! ## Members -/

namespace Value

def names : Value → List Text
  | object members => members.map Prod.fst
  | _ => []

/-- The value of a name in an object; the last one if the object gives it several. -/
def member? (v : Value) (name : Text) : Option Value :=
  match v with
  | object members => members.reverse.lookup name
  | _ => none

end Value

end DumpMode.Json
