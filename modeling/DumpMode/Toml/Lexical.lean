import DumpMode.Text.Bytes
import DumpMode.Text.Digits
import DumpMode.Toml.Value

/-!
# Blanks, strings and keys of TOML

The small parts of a document. A reader takes one of them from the start of a text, and is `none`
if the text does not start with one.
-/

namespace DumpMode.Toml

abbrev Reader (α : Type) := Text → Option (α × Text)

/-- Brackets and braces nest at most this deep, and keys have at most as many names. -/
def maxDepth : Nat := 79

/-! ## Blanks and comments -/

def isBlank (c : Char) : Bool := c == ' ' || c == '\t'

/-- Whether a character may stand in a comment or a string: every one but control characters, of
which only the tab may. -/
def isPlain (c : Char) : Bool := c == '\t' || (32 ≤ c.toNat && c.toNat != 127)

def skipBlank (text : Text) : Text := text.dropWhile isBlank

def lineBreak? : Text → Option Text
  | '\n' :: rest | '\r' :: '\n' :: rest => some rest
  | _ => none

def skipComment : Text → Text
  | '#' :: rest => rest.dropWhile isPlain
  | text => text

/-- The text behind the end of a line, on which blanks and a comment may still stand. -/
def lineEnd? (text : Text) : Option Text :=
  match skipComment (skipBlank text) with
  | [] => some []
  | rest => lineBreak? rest

def skipGaps (text : Text) : Text :=
  match text with
  | [] => []
  | '\n' :: rest | '\r' :: '\n' :: rest => skipGaps rest
  | '#' :: rest => skipGaps (rest.dropWhile isPlain)
  | c :: rest => if isBlank c then skipGaps rest else c :: rest
termination_by text.length
decreasing_by
  · simp
  · simp only [List.length_cons]
    omega
  · have := (List.dropWhile_sublist (l := rest) isPlain).length_le
    simp only [List.length_cons]
    omega
  · simp

/-! ## Strings -/

inductive Quote where
  /-- A backslash begins an escape. -/
  | basic
  /-- Every character stands for itself. -/
  | literal
deriving DecidableEq, Repr

def Quote.mark : Quote → Char
  | .basic => '"'
  | .literal => '\''

def escapeLetter? : Char → Option Char
  | '"' => some '"'
  | '\\' => some '\\'
  | 'b' => some '\x08'
  | 'f' => some '\x0c'
  | 'n' => some '\n'
  | 'r' => some '\r'
  | 't' => some '\t'
  | _ => none

/-- The number that digits of a base make, the first standing highest. -/
def valueOfDigits (base : Nat) (digits : Text) : Nat :=
  digits.foldl (fun n c ↦ base * n + (Text.hexDigit? c).getD 0) 0

def isHexDigit (c : Char) : Bool := (Text.hexDigit? c).isSome

/-- The character whose code stands in a number of hexadecimal digits. -/
def readCode (width : Nat) : Reader Char := fun text ↦
  let digits := text.take width
  let code := valueOfDigits 16 digits
  if digits.length = width ∧ digits.all isHexDigit ∧ code.isValidChar then
    some (Char.ofNat code, text.drop width)
  else none

def readEscape : Reader Char
  | [] => none
  | 'u' :: rest => readCode 4 rest
  | 'U' :: rest => readCode 8 rest
  | c :: rest => (escapeLetter? c).map fun e ↦ (e, rest)

private theorem length_of_readEscape {text rest : Text} {c : Char}
    (h : readEscape text = some (c, rest)) : rest.length < text.length := by
  unfold readEscape at h
  split at h
  · simp at h
  iterate 2
    simp only [readCode, Option.ite_none_right_eq_some, Option.some.injEq, Prod.mk.injEq] at h
    rw [← h.2.2, List.length_drop, List.length_cons]
    omega
  · obtain ⟨_, _, h⟩ := Option.map_eq_some_iff.mp h
    simp only [Prod.mk.injEq] at h
    simp [← h.2]

/-- The rest of a string on one line; `before` holds the characters read, the latest first. -/
def readShortFrom (q : Quote) (before : Text) (text : Text) : Option (Text × Text) :=
  match text with
  | [] => none
  | c :: rest =>
    if c = q.mark then some (before.reverse, rest)
    else if c = '\\' ∧ q = .basic then
      match _h : readEscape rest with
      | none => none
      | some (e, rest) => readShortFrom q (e :: before) rest
    else if isPlain c then readShortFrom q (c :: before) rest
    else none
termination_by text.length
decreasing_by
  · have := length_of_readEscape _h
    simp only [List.length_cons]
    omega
  · simp

def readShort (q : Quote) : Reader Text := readShortFrom q []

/-- The end of a long string, three marks, with the one or two marks before them that still belong
to the string. -/
def readClosing (q : Quote) : Reader Text := fun text ↦
  let marks := text.takeWhile (· == q.mark)
  if marks.length < 3 then none
  else some (marks.take (min marks.length 5 - 3), text.drop (min marks.length 5))

/-- The text behind the end of a line and all blanks and line breaks that follow; the text begins
behind a backslash that joins its line to the next words. -/
def joined? (text : Text) : Option Text :=
  (lineBreak? (skipBlank text)).map skipBreaks
where
  skipBreaks : Text → Text
    | '\n' :: rest | '\r' :: '\n' :: rest => skipBreaks rest
    | c :: rest => if isBlank c then skipBreaks rest else c :: rest
    | [] => []

/-- The rest of a long string; `before` holds the characters read, the latest first. Each step takes
up some of the text, so `fuel` lasts if it is more than the length of the text. -/
def readLongFrom (q : Quote) : Nat → Text → Reader Text
  | 0, _, _ => none
  | fuel + 1, before, text =>
    match readClosing q text with
    | some (marks, rest) => some (before.reverse ++ marks, rest)
    | none =>
      match text with
      | [] => none
      | '\n' :: rest | '\r' :: '\n' :: rest => readLongFrom q fuel ('\n' :: before) rest
      | c :: rest =>
        if c = '\\' ∧ q = .basic then
          match joined? rest with
          | some rest => readLongFrom q fuel before rest
          | none =>
            match readEscape rest with
            | some (e, rest) => readLongFrom q fuel (e :: before) rest
            | none => none
        else if isPlain c then readLongFrom q fuel (c :: before) rest
        else none

/-- A string over several lines; the text begins behind its three opening marks. A line break right
behind them is not part of the string. -/
def readLong (q : Quote) : Reader Text := fun text ↦
  readLongFrom q (text.length + 1) [] ((lineBreak? text).getD text)

def readString (q : Quote) : Reader Text
  | a :: b :: rest =>
    if a = q.mark ∧ b = q.mark then readLong q rest else readShort q (a :: b :: rest)
  | text => readShort q text

/-! ## Keys -/

/-- Whether a character may stand in a name without quotes. -/
def isBare (c : Char) : Bool := c.isAlphanum || c == '-' || c == '_'

def readName : Reader Text
  | '"' :: rest => readShort .basic rest
  | '\'' :: rest => readShort .literal rest
  | text =>
    if (text.takeWhile isBare).isEmpty then none
    else some (text.takeWhile isBare, text.dropWhile isBare)

/-- A key of at most `limit` names, with points between them and blanks around them. -/
def readKeyUpTo : Nat → Reader Key
  | 0, _ => none
  | limit + 1, text => do
    let (name, rest) ← readName (skipBlank text)
    match skipBlank rest with
    | '.' :: rest =>
      let (key, rest) ← readKeyUpTo limit rest
      return (⟨name :: key.parents, key.name⟩, rest)
    | rest => return (⟨[], name⟩, rest)

def readKey : Reader Key := readKeyUpTo maxDepth

end DumpMode.Toml
