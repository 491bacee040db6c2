import DumpMode.Json.Skip

/-!
# Reading values of known types

A reader takes a value of one type from the start of a text. Numbers, truth values, names of
choices, lists and records have readers here, and readers of richer types are put together from
them. A record is given by its fields: an object may list them in any order and may hold further
members, which are passed; an array must list them all in order. What has been read of a record so
far is kept in a draft, and once the end of the record is reached the draft is finished.
-/

namespace DumpMode.Json

open Document (Found Misfit)

/-- Takes a value from the start of a text. -/
abbrev Reader (α : Type) := Text → Except Fault (α × Text)

/-- The fault of a value that is of another kind than expected. The value itself is read as far as
that is needed to tell its kind. -/
def mismatch (expected : String) (text : Text) : Fault :=
  let wrong := fun (found : Found) ↦ Fault.misfit (.wrongType found expected)
  let after := fun {α : Type} (x : Except Fault α) (found : α → Found) ↦
    match x with
    | .error f => f
    | .ok a => wrong (found a)
  match text with
  | 'n' :: rest => after (expect ['u', 'l', 'l'] rest) fun _ ↦ .null
  | 't' :: rest => after (expect ['r', 'u', 'e'] rest) fun _ ↦ .boolean true
  | 'f' :: rest => after (expect ['a', 'l', 's', 'e'] rest) fun _ ↦ .boolean false
  | '"' :: rest => after (readString rest) fun s ↦ .string s.1
  | '[' :: _ => wrong .sequence
  | '\x7b' :: _ => wrong .map
  | c :: _ =>
    if c = '-' ∨ c.isDigit then after (readNumber text) fun n ↦ n.1.found else .malformed
  | [] => .ended

/-! ## Simple values -/

/-- A natural number below a bound; `expected` names the numbers below it. -/
def readNatural (bound : Nat) (expected : String) : Reader Nat := fun text ↦
  let text := skipBlank text
  if text.head?.any fun c ↦ c == '-' || c.isDigit then
    match readNumber text with
    | .error f => .error f
    | .ok (.natural n, rest) =>
      if n < bound then .ok (n, rest)
      else .error (.misfit (.wrongValue (.integer n) expected))
    | .ok (.negative n, _) => .error (.misfit (.wrongValue (.integer (-n)) expected))
    | .ok (.real x, _) => .error (.misfit (.wrongType (Number.real x).found expected))
  else .error (mismatch expected text)

def readBoolean : Reader Bool := fun text ↦
  match skipBlank text with
  | 't' :: rest => (expect ['r', 'u', 'e'] rest).map fun r ↦ (true, r)
  | 'f' :: rest => (expect ['a', 'l', 's', 'e'] rest).map fun r ↦ (false, r)
  | rest => .error (mismatch "a boolean" rest)

/-- A value, or null for none. -/
def readOptional {α : Type} (value : Reader α) : Reader (Option α) := fun text ↦
  match skipBlank text with
  | 'n' :: rest => (expect ['u', 'l', 'l'] rest).map fun r ↦ (none, r)
  | rest => (value rest).map fun (a, r) ↦ (some a, r)

/-! ## Choices -/

def choose {α : Type} (choices : List (String × α)) (name : Text) : Except Fault α :=
  (Document.choose choices name).mapError .misfit

def readColon (text : Text) : Except Fault Text :=
  match skipBlank text with
  | [] => .error .ended
  | ':' :: rest => .ok rest
  | _ => .error .malformed

def readNull (text : Text) : Except Fault Text :=
  match skipBlank text with
  | 'n' :: rest => expect ['u', 'l', 'l'] rest
  | rest => .error (mismatch "unit" rest)

def readObjectEnd (text : Text) : Except Fault Text :=
  match skipBlank text with
  | [] => .error .ended
  | '\x7d' :: rest => .ok rest
  | _ => .error .malformed

/-- A choice: its name, or an object whose only member has that name and the value null. -/
def readChoice {α : Type} (choices : List (String × α)) : Reader α := fun text ↦ do
  match skipBlank text with
  | [] => .error .ended
  | '"' :: rest =>
    let (name, rest) ← readString rest
    return (← choose choices name, rest)
  | '\x7b' :: rest =>
    match skipBlank rest with
    | '"' :: rest =>
      let (name, rest) ← readString rest
      let a ← choose choices name
      return (a, ← readObjectEnd (← readNull (← readColon rest)))
    | [] => .error .ended
    | _ => .error .malformed
  | _ => .error .malformed

/-! ## Lists -/

/-- The items of a list behind its opening bracket; `found` holds those read, the latest first. Each
item takes up some of the text, so `fuel` lasts if it is more than the length of the text. -/
def readItems {α : Type} (item : Reader α) : Nat → List α → Reader (List α)
  | 0, _, _ => .error .malformed
  | fuel + 1, found, text => do
    match skipBlank text with
    | [] => .error .ended
    | ']' :: rest => return (found.reverse, rest)
    | c :: rest =>
      if found.isEmpty then
        let (a, rest) ← item (c :: rest)
        readItems item fuel [a] rest
      else if c = ',' then
        match skipBlank rest with
        | [] => .error .ended
        | ']' :: _ => .error .malformed
        | rest =>
          let (a, rest) ← item rest
          readItems item fuel (a :: found) rest
      else .error .malformed

def readList {α : Type} (item : Reader α) : Reader (List α) := fun text ↦
  match skipBlank text with
  | '[' :: rest => readItems item (rest.length + 1) [] rest
  | rest => .error (mismatch "a sequence" rest)

/-! ## Records -/

/-- A field of a record; `σ` is the type of drafts. -/
structure Field (σ : Type) where
  name : String
  /-- Whether a draft has the field already. -/
  isSet : σ → Bool
  /-- Reads the value of the field into a draft. -/
  read : σ → Reader σ

/-- The field of a given name and type, which `get` finds in a draft and `set` puts there. -/
def Field.of {σ α : Type} (name : String) (value : Reader α) (get : σ → Option α)
    (set : σ → α → σ) : Field σ where
  name := name
  isSet draft := (get draft).isSome
  read draft text := (value text).map fun (a, rest) ↦ (set draft a, rest)

structure Record (σ α : Type) where
  name : String
  fields : List (Field σ)
  /-- The draft in which nothing is set. -/
  blank : σ
  finish : σ → Except Misfit α
  /-- Whether an array may end before all fields are read. -/
  allowsShort : Bool

namespace Record

variable {σ α : Type}

def conclude (r : Record σ α) (draft : σ) : Except Fault α :=
  (r.finish draft).mapError .misfit

/-- Passes the end of an array all of whose items have been read. -/
def readArrayEnd (text : Text) : Except Fault Text :=
  match skipBlank text with
  | [] => .error .ended
  | ']' :: rest => .ok rest
  | _ => .error .malformed

/-- The items of an array as fields, in order; `index` many have been read. -/
def readElements (r : Record σ α) (index : Nat) (draft : σ) : List (Field σ) → Reader α
  | [], text => do
    let a ← r.conclude draft
    return (a, ← readArrayEnd text)
  | f :: fields, text => do
    match skipBlank text with
    | [] => .error .ended
    | ']' :: rest =>
      if r.allowsShort then return (← r.conclude draft, rest)
      else .error (.misfit (.wrongLength index r.name r.fields.length))
    | c :: rest =>
      if index = 0 then
        let (draft, rest) ← f.read draft (c :: rest)
        readElements r (index + 1) draft fields rest
      else if c = ',' then
        match skipBlank rest with
        | [] => .error .ended
        | ']' :: _ => .error .malformed
        | rest =>
          let (draft, rest) ← f.read draft rest
          readElements r (index + 1) draft fields rest
      else .error .malformed

/-- A member of an object behind the quote that opens its name: a field is read into the draft, and
anything else is passed. -/
def readMember (r : Record σ α) (draft : σ) : Reader σ := fun text ↦ do
  let (name, rest) ← readString text
  match r.fields.find? (·.name.toList == name) with
  | none => return (draft, ← skipValue (← readColon rest))
  | some f =>
    if f.isSet draft then .error (.misfit (.duplicateField f.name))
    else f.read draft (← readColon rest)

/-- The members of an object, up to and with its closing brace; `first` says whether none has been
read. Each member takes up some of the text, so `fuel` lasts if it is more than the length of the
text. -/
def readMembers (r : Record σ α) : Nat → Bool → σ → Reader α
  | 0, _, _, _ => .error .malformed
  | fuel + 1, first, draft, text => do
    match skipBlank text with
    | [] => .error .ended
    | '\x7d' :: rest => return (← r.conclude draft, rest)
    | c :: rest =>
      if first then
        if c = '"' then
          let (draft, rest) ← r.readMember draft rest
          readMembers r fuel false draft rest
        else .error .malformed
      else if c = ',' then
        match skipBlank rest with
        | [] => .error .ended
        | '"' :: rest =>
          let (draft, rest) ← r.readMember draft rest
          readMembers r fuel false draft rest
        | _ => .error .malformed
      else .error .malformed

/-- A record: an object with its fields, or an array of them. -/
def read (r : Record σ α) : Reader α := fun text ↦
  match skipBlank text with
  | '[' :: rest => r.readElements 0 r.blank r.fields rest
  | '\x7b' :: rest => r.readMembers (rest.length + 1) true r.blank rest
  | rest => .error (mismatch s!"struct {r.name}" rest)

end Record

/-! ## Whole texts -/

/-- The value that a text consists of, blanks around it aside. -/
def decode {α : Type} (value : Reader α) (text : Text) : Except Fault α := do
  let (a, rest) ← value text
  if (skipBlank rest).isEmpty then return a else .error .malformed

end DumpMode.Json
