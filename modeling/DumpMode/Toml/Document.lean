import DumpMode.Toml.Scalar

/-!
# TOML documents

A document consists of headers and entries, one to a line. An entry belongs to the table of the
last header before it. A document is refused as a whole if any part of it is not in the notation,
or if it says two things about one name; `Table.ofText?` is then `none`.
-/

namespace DumpMode.Toml

/-! ## Values -/

def expect : Text → Text → Option Text
  | [], text => some text
  | _ :: _, [] => none
  | w :: ws, c :: rest => if c = w then expect ws rest else none

/-- The items of an array behind its opening bracket; `found` holds those read, the latest first.
Each item takes up some of the text, so `fuel` lasts if it is more than the length of the text. -/
def readItems (item : Reader Value) : Nat → List Value → Reader (List Value)
  | 0, _, _ => none
  | fuel + 1, found, text =>
    match skipGaps text with
    | ']' :: rest => some (found.reverse, rest)
    | text => do
      let (v, rest) ← item text
      match skipGaps rest with
      | ']' :: rest => some ((v :: found).reverse, rest)
      | ',' :: rest => readItems item fuel (v :: found) rest
      | _ => none

def readEntry (value : Reader Value) : Reader (Key × Value) := fun text ↦ do
  let (key, rest) ← readKey text
  let (v, rest) ← value (skipBlank (← behind? '=' rest))
  return ((key, v), rest)

/-- The entries of a table in braces, at least one of which follows; `found` holds those read. Each
entry takes up some of the text, so `fuel` lasts if it is more than the length of the text. -/
def readEntries (value : Reader Value) : Nat → Table → Reader Table
  | 0, _, _ => none
  | fuel + 1, found, text => do
    let ((key, v), rest) ← readEntry value text
    let found ← found.insert? .dottedInBraces key v
    match skipBlank rest with
    | '\x7d' :: rest => return (found, rest)
    | ',' :: rest => readEntries value fuel found rest
    | _ => none

/-- A value, in which brackets and braces nest at most as deep as is said. -/
def readValue : Nat → Reader Value
  | _, [] => none
  | _, '"' :: rest => (readString .basic rest).map fun (s, r) ↦ (.string s, r)
  | _, '\'' :: rest => (readString .literal rest).map fun (s, r) ↦ (.string s, r)
  | _, 't' :: rest => (expect ['r', 'u', 'e'] rest).map fun r ↦ (.boolean true, r)
  | _, 'f' :: rest => (expect ['a', 'l', 's', 'e'] rest).map fun r ↦ (.boolean false, r)
  | 0, '[' :: _ | 0, '\x7b' :: _ => none
  | depth + 1, '[' :: rest =>
    (readItems (readValue depth) (rest.length + 1) [] rest).map fun (vs, r) ↦ (.array vs, r)
  | depth + 1, '\x7b' :: rest =>
    match skipBlank rest with
    | '\x7d' :: rest => some (.table .braces [], rest)
    | _ =>
      (readEntries (readValue depth) (rest.length + 1) [] rest).map fun (t, r) ↦
        (.table .braces t, r)
  | _, text =>
    match moment? text with
    | some rest => some (.moment, rest)
    | none => readNumber text

/-! ## Lines -/

structure Draft where
  root : Table
  /-- The path of the last header. -/
  place : List Text

/-- Reads a line that is not empty: a header or an entry. -/
def readLine (draft : Draft) : Reader Draft
  | '[' :: '[' :: rest => do
    let (key, rest) ← readKey rest
    let rest ← lineEnd? (← expect [']', ']'] rest)
    return (⟨← draft.root.openNext? key, key.path⟩, rest)
  | '[' :: rest => do
    let (key, rest) ← readKey rest
    let rest ← lineEnd? (← behind? ']' rest)
    return (⟨← draft.root.openTable? key, key.path⟩, rest)
  | text => do
    let ((key, v), rest) ← readEntry (readValue maxDepth) text
    return ({ draft with root := ← draft.root.insertAt? draft.place key v }, ← lineEnd? rest)

/-- Reads the lines of a document. Each line takes up some of the text, so `fuel` lasts if it is
more than the length of the text. -/
def readLines : Nat → Draft → Text → Option Table
  | 0, _, _ => none
  | fuel + 1, draft, text =>
    match skipGaps text with
    | [] => some draft.root
    | text => do
      let (draft, rest) ← readLine draft text
      readLines fuel draft rest

/-- The table that a document spells. It may begin with a byte order mark. -/
def Table.ofText? (text : Text) : Option Table :=
  let text := match text with
    | '\ufeff' :: rest => rest
    | text => text
  readLines (text.length + 1) ⟨[], []⟩ text

end DumpMode.Toml
