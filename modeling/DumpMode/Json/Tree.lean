import Mathlib.Data.List.Forall2
import DumpMode.Json.Lexical

/-!
# JSON texts as they are written

A `Tree` is a JSON value with everything that its text shows: the blanks between its parts, the form
of its numbers, the escapes in its strings, and the members of its objects in their order, however
often a name occurs. Every tree has a text, and the texts of trees are those of the notation; so a
statement about all trees is one about all well-formed texts. What a tree spells forgets what does
not matter: `Letter.spelled?` is the text that a string stands for, and `valuesOf` are the values of
the members of one name, wherever they stand.
-/

namespace DumpMode.Json

/-! ## Blanks -/

/-- A character that may stand between the parts of a text. -/
inductive Blank where
  | space
  | tab
  | newline
  | carriageReturn
deriving DecidableEq, Repr

def Blank.char : Blank → Char
  | .space => ' '
  | .tab => '\t'
  | .newline => '\n'
  | .carriageReturn => '\r'

/-- What stands between two parts of a text. -/
abbrev Gap := List Blank

def Gap.text (g : Gap) : Text := g.map Blank.char

/-- Something with the blanks around it. -/
structure Padded (α : Type) where
  before : Gap
  value : α
  after : Gap

/-! ## Numbers -/

/-- One digit or more. -/
structure Digits where
  first : Fin 10
  others : List (Fin 10)

def Digits.text (d : Digits) : Text := (d.first :: d.others).map fun v : Fin 10 ↦ Text.digit v

structure Power where
  /-- Whether its letter is a capital one. -/
  capital : Bool
  /-- Its sign, if it has one; it may be negative. -/
  sign : Option Bool
  digits : Digits

namespace Power

def signText (p : Power) : Text :=
  match p.sign with
  | none => []
  | some false => ['+']
  | some true => ['-']

def text (p : Power) : Text :=
  (if p.capital then 'E' else 'e') :: (p.signText ++ p.digits.text)

end Power

/-- A number as it is written. There is one way to write its digits before a point. -/
structure Numeral where
  negative : Bool
  whole : Nat
  /-- The digits behind the point, if there is one. -/
  fraction : Option Digits
  power : Option Power

namespace Numeral

/-- What stands behind the digits before any point. -/
def tail (n : Numeral) : Text :=
  (n.fraction.elim [] fun d ↦ '.' :: d.text) ++ n.power.elim [] Power.text

def text (n : Numeral) : Text :=
  (if n.negative then ['-'] else []) ++ (Text.decimal n.whole ++ n.tail)

/-- A natural number in its one plain form. -/
def natural (n : Nat) : Numeral := ⟨false, n, none, none⟩

end Numeral

/-! ## Strings -/

/-- An escape by a letter. -/
inductive Escape where
  | quote
  | backslash
  | slash
  | backspace
  | formFeed
  | newline
  | carriageReturn
  | tab
deriving DecidableEq, Repr

def Escape.letter : Escape → Char
  | .quote => '"'
  | .backslash => '\\'
  | .slash => '/'
  | .backspace => 'b'
  | .formFeed => 'f'
  | .newline => 'n'
  | .carriageReturn => 'r'
  | .tab => 't'

def Escape.char : Escape → Char
  | .quote => '"'
  | .backslash => '\\'
  | .slash => '/'
  | .backspace => '\x08'
  | .formFeed => '\x0c'
  | .newline => '\n'
  | .carriageReturn => '\r'
  | .tab => '\t'

/-- A hexadecimal digit of either case. -/
structure HexDigit where
  char : Char
  value : Nat
  value_eq : Text.hexDigit? char = some value

/-- What a string is written with. -/
inductive Letter where
  | plain (c : Char) (hquote : c ≠ '"') (hslash : c ≠ '\\') (hcontrol : ¬c.toNat < 32)
  | short (e : Escape)
  /-- An escape by four digits. -/
  | code (a b c d : HexDigit)

namespace Letter

def text : Letter → Text
  | .plain c _ _ _ => [c]
  | .short e => ['\\', e.letter]
  | .code a b c d => ['\\', 'u', a.char, b.char, c.char, d.char]

/-- The number of an escape by digits. -/
def number (a b c d : HexDigit) : Nat := ((a.value * 16 + b.value) * 16 + c.value) * 16 + d.value

/-- The text that some letters stand for; none if an escape is one half of a pair without the
other. -/
def spelled? : List Letter → Option Text
  | [] => some []
  | .plain c _ _ _ :: ls => (spelled? ls).map (c :: ·)
  | .short e :: ls => (spelled? ls).map (e.char :: ·)
  | .code a b c d :: ls =>
    let n := number a b c d
    if isTrailing n then none
    else if isLeading n then
      match ls with
      | .code a b c d :: ls =>
        let m := number a b c d
        if isTrailing m then
          (spelled? ls).map (Char.ofNat (0x10000 + (n - 0xD800) * 0x400 + (m - 0xDC00)) :: ·)
        else none
      | _ => none
    else (spelled? ls).map (Char.ofNat n :: ·)

end Letter

/-! ## Trees -/

structure Member (α : Type) where
  name : Padded (List Letter)
  value : Padded α

/-- A JSON value as it is written. -/
inductive Tree where
  | null
  | boolean (b : Bool)
  | number (n : Numeral)
  | string (letters : List Letter)
  /-- An array; the gap stands behind the opening bracket. -/
  | array (gap : Gap) (items : List (Padded Tree))
  /-- An object; the gap stands behind the opening brace. -/
  | object (gap : Gap) (members : List (Member Tree))

def quoted (letters : List Letter) : Text := '"' :: (letters.flatMap Letter.text ++ ['"'])

mutual

def Tree.text : Tree → Text
  | .null => ['n', 'u', 'l', 'l']
  | .boolean true => ['t', 'r', 'u', 'e']
  | .boolean false => ['f', 'a', 'l', 's', 'e']
  | .number n => n.text
  | .string letters => quoted letters
  | .array gap [] => '[' :: (gap.text ++ [']'])
  | .array gap (⟨before, v, after⟩ :: items) =>
    '[' :: (gap.text ++ (before.text ++ (v.text ++ (after.text ++ itemsText items))))
  | .object gap [] => '\x7b' :: (gap.text ++ ['\x7d'])
  | .object gap (⟨name, ⟨before, v, after⟩⟩ :: members) =>
    '\x7b' :: (gap.text ++ (name.before.text ++ (quoted name.value ++ (name.after.text ++
      ':' :: (before.text ++ (v.text ++ (after.text ++ membersText members)))))))

/-- The items of an array behind the first, and the closing bracket. -/
def itemsText : List (Padded Tree) → Text
  | [] => [']']
  | ⟨before, v, after⟩ :: items =>
    ',' :: (before.text ++ (v.text ++ (after.text ++ itemsText items)))

/-- The members of an object behind the first, and the closing brace. -/
def membersText : List (Member Tree) → Text
  | [] => ['\x7d']
  | ⟨name, ⟨before, v, after⟩⟩ :: members =>
    ',' :: (name.before.text ++ (quoted name.value ++ (name.after.text ++
      ':' :: (before.text ++ (v.text ++ (after.text ++ membersText members))))))

end

/-- A whole text: a tree with the blanks around it. -/
def Padded.text (document : Padded Tree) : Text :=
  document.before.text ++ (document.value.text ++ document.after.text)

/-! ## What trees spell -/

/-- The tree spells a number below a bound: it is the number in its plain form. -/
def SpellsNatural (bound : Nat) (t : Tree) (n : Nat) : Prop :=
  t = .number (.natural n) ∧ n < bound

/-- The tree spells a value, or is null for none. -/
def SpellsOptional {α : Type} (spells : Tree → α → Prop) (t : Tree) : Option α → Prop
  | none => t = .null
  | some a => spells t a

/-- The tree spells a list: it is an array whose items spell those of the list. -/
def SpellsList {α : Type} (spells : Tree → α → Prop) (t : Tree) (as : List α) : Prop :=
  ∃ gap items, t = .array gap items ∧ List.Forall₂ (fun item a ↦ spells item.value a) items as

/-- The name of a member, if its letters stand for a text. -/
def Member.name? (m : Member Tree) : Option Text := Letter.spelled? m.name.value

/-- The tree spells the name of a choice: as a string, or as an object whose only member has that
name and the value null. -/
def SpellsName (t : Tree) (name : Text) : Prop :=
  match t with
  | .string letters => Letter.spelled? letters = some name
  | .object _ [m] => m.name? = some name ∧ m.value.value = .null
  | _ => False

def Named (members : List (Member Tree)) : Prop := ∀ m ∈ members, m.name? ≠ none

instance (members : List (Member Tree)) : Decidable (Named members) :=
  inferInstanceAs (Decidable (∀ m ∈ members, m.name? ≠ none))

def valuesOf (members : List (Member Tree)) (name : String) : List Tree :=
  (members.filter fun m ↦ m.name? == some name.toList).map (·.value.value)

/-- There is one member of a name, and its value spells `a`. -/
def Has {α : Type} (members : List (Member Tree)) (name : String) (spells : Tree → α → Prop)
    (a : α) : Prop :=
  ∃ t, valuesOf members name = [t] ∧ spells t a

end DumpMode.Json
