import DumpMode.Text.Bytes
import DumpMode.Text.Digits

/-!
# JSON values and their compact text

The values that are written here: numbers are natural, and an object keeps its members in the
order in which they are given. The text has no blanks. Inside a string the quote, the backslash
and the control characters are escaped, by a letter where the notation has one, and everything
else stands for itself.
-/

namespace DumpMode.Json

/-- A JSON value. -/
inductive Value where
  | null
  | boolean (b : Bool)
  | number (n : Nat)
  | string (s : Text)
  | array (items : List Value)
  /-- Members by name, in the order in which they are written. -/
  | object (members : List (Text × Value))

def Value.word (s : String) : Value := .string s.toList

def member (name : String) (v : Value) : Text × Value := (name.toList, v)

/-- A value that may be missing; null stands for it then. -/
def Value.optional (v : Option Value) : Value := v.getD .null

/-! ## Text -/

/-- A character as it stands inside a string. -/
def escape (c : Char) : Text :=
  if c = '"' then ['\\', '"']
  else if c = '\\' then ['\\', '\\']
  else if c = '\x08' then ['\\', 'b']
  else if c = '\t' then ['\\', 't']
  else if c = '\n' then ['\\', 'n']
  else if c = '\x0c' then ['\\', 'f']
  else if c = '\r' then ['\\', 'r']
  else if c.toNat < 32 then
    ['\\', 'u', '0', '0', Text.digit (c.toNat / 16), Text.digit (c.toNat % 16)]
  else [c]

def quote (s : Text) : Text := '"' :: (s.flatMap escape ++ ['"'])

mutual

/-- The compact text of a value. -/
def render : Value → Text
  | .null => ['n', 'u', 'l', 'l']
  | .boolean true => ['t', 'r', 'u', 'e']
  | .boolean false => ['f', 'a', 'l', 's', 'e']
  | .number n => Text.decimal n
  | .string s => quote s
  | .array [] => ['[', ']']
  | .array (v :: items) => '[' :: (render v ++ renderItems items)
  | .object [] => ['{', '}']
  | .object ((name, v) :: members) =>
    '{' :: (quote name ++ ':' :: (render v ++ renderMembers members))

/-- The items of an array behind the first, and the closing bracket. -/
def renderItems : List Value → Text
  | [] => [']']
  | v :: items => ',' :: (render v ++ renderItems items)

/-- The members of an object behind the first, and the closing brace. -/
def renderMembers : List (Text × Value) → Text
  | [] => ['}']
  | (name, v) :: members => ',' :: (quote name ++ ':' :: (render v ++ renderMembers members))

end

end DumpMode.Json
