import DumpMode.Toml.Lexical

/-!
# Numbers, dates and times of TOML

Integers are numbers of 64 bits. They can be written to the bases ten, sixteen, eight and two; a
real number is written with a point or a power of ten, or is an infinity or not a number. Of dates
and times only the notation is checked, together with the ranges of their parts.
-/

namespace DumpMode.Toml

/-! ## Numbers -/

/-- The digits behind others, each alone or with an underscore before it; `before` holds the digits
read, the latest first. -/
def readDigitsFrom (isDigit : Char → Bool) (before : Text) : Reader Text
  | [] => some (before.reverse, [])
  | ['_'] => none
  | '_' :: c :: rest => if isDigit c then readDigitsFrom isDigit (c :: before) rest else none
  | c :: rest =>
    if isDigit c then readDigitsFrom isDigit (c :: before) rest
    else some (before.reverse, c :: rest)

def readDigits (isDigit : Char → Bool) : Reader Text
  | [] => none
  | c :: rest => if isDigit c then readDigitsFrom isDigit [c] rest else none

/-- The digits of a whole number, which has no needless zeros. -/
def readWhole : Reader Text
  | '0' :: rest => some (['0'], rest)
  | text => readDigits Char.isDigit text

/-- The number that digits of a base make, if it is at most `2 ^ 63`. -/
def magnitude? (base : Nat) (digits : Text) : Option Nat :=
  digits.foldlM (fun n c ↦
    let next := base * n + (Text.hexDigit? c).getD 0
    if next ≤ Nat.pow 2 63 then some next else none) 0

/-- The integer that digits of a base stand for, if it is in range. There is one more below zero
than above. -/
def integer? (negative : Bool) (base : Nat) (digits : Text) : Option Value :=
  (magnitude? base digits).bind fun n ↦
    if negative then some (.integer (-n))
    else if n < Nat.pow 2 63 then some (.integer n)
    else none

/-- An integer whose base is announced; the text begins behind the letter for it. -/
def readInBase (base : Nat) (isDigit : Char → Bool) : Reader Value := fun text ↦ do
  let (digits, rest) ← readDigits isDigit text
  return (← integer? false base digits, rest)

/-- Every number halfway between two of double precision has fewer digits than this. -/
def enoughDigits : Nat := 800

/-- A number of few digits with the same rounding as `digits · 10 ^ exponent`, whose first digit is
not zero. Digits behind enough others tell only whether the number is greater than those make it. -/
def condense (digits : Text) (exponent : Int) : Nat × Int :=
  let kept := valueOfDigits 10 (digits.take enoughDigits)
  let rest := digits.drop enoughDigits
  if rest.all (· == '0') then (kept, exponent + rest.length)
  else (10 * kept + 1, exponent + rest.length - 1)

/-- The real number `± digits · 10 ^ exponent`. Only above zero is a number refused for its size. -/
def real? (negative : Bool) (digits : Text) (exponent : Int) : Option Value :=
  let digits := digits.dropWhile (· == '0')
  let magnitude := exponent + digits.length
  let x :=
    if digits.isEmpty ∨ magnitude < -400 then 0.0
    else if 400 < magnitude then 1.0 / 0.0
    else
      let (significand, exponent) := condense digits exponent
      Float.ofScientific significand (exponent < 0) exponent.natAbs
  if negative then some (.real (-x)) else if x.isInf then none else some (.real x)

/-- Powers of ten that have reached this bound take no further digits. -/
def powerBound : Nat := Nat.pow 2 16

/-- The power of ten that digits stand for. Once it has reached the bound, what is left of the
digits does not count. -/
def powerOfDigits (digits : Text) : Nat :=
  digits.foldl (fun n c ↦ if n < powerBound then 10 * n + (c.toNat - 48) else n) 0

def readPower : Reader Int
  | '-' :: rest => (readDigits Char.isDigit rest).map fun (d, r) ↦ (-powerOfDigits d, r)
  | '+' :: rest => (readDigits Char.isDigit rest).map fun (d, r) ↦ (powerOfDigits d, r)
  | text => (readDigits Char.isDigit text).map fun (d, r) ↦ (powerOfDigits d, r)

def readDecimal (negative : Bool) : Reader Value := fun text ↦ do
  let (whole, rest) ← readWhole text
  match rest with
  | '.' :: rest =>
    let (fraction, rest) ← readDigits Char.isDigit rest
    let digits := whole ++ fraction
    match rest with
    | 'e' :: rest | 'E' :: rest =>
      let (power, rest) ← readPower rest
      return (← real? negative digits (power - fraction.length), rest)
    | rest => return (← real? negative digits (-fraction.length), rest)
  | 'e' :: rest | 'E' :: rest =>
    let (power, rest) ← readPower rest
    return (← real? negative whole power, rest)
  | rest => return (← integer? negative 10 whole, rest)

/-- A number whose sign is read; infinities and what is not a number have signs too. -/
def readSigned (negative : Bool) : Reader Value
  | 'i' :: 'n' :: 'f' :: rest => some (.real (if negative then -1.0 / 0.0 else 1.0 / 0.0), rest)
  | 'n' :: 'a' :: 'n' :: rest => some (.real (0.0 / 0.0), rest)
  | text => readDecimal negative text

/-- A number. A base can be announced only where there is no sign. -/
def readNumber : Reader Value
  | '+' :: rest => readSigned false rest
  | '-' :: rest => readSigned true rest
  | '0' :: 'x' :: rest => readInBase 16 isHexDigit rest
  | '0' :: 'o' :: rest => readInBase 8 (fun c ↦ '0' ≤ c && c ≤ '7') rest
  | '0' :: 'b' :: rest => readInBase 2 (fun c ↦ c == '0' || c == '1') rest
  | text => readSigned false text

/-! ## Dates and times -/

/-- A number of exactly `width` digits. -/
def readFixed (width : Nat) : Reader Nat := fun text ↦
  let digits := text.take width
  if digits.length = width ∧ digits.all Char.isDigit then
    some (valueOfDigits 10 digits, text.drop width)
  else none

/-- The text behind the character it has to begin with. -/
def behind? (c : Char) : Text → Option Text
  | d :: rest => if d = c then some rest else none
  | [] => none

def daysOfMonth (year month : Nat) : Nat :=
  if month = 2 then
    if year % 4 = 0 ∧ (year % 100 ≠ 0 ∨ year % 400 = 0) then 29 else 28
  else if month = 4 ∨ month = 6 ∨ month = 9 ∨ month = 11 then 30
  else 31

def date? (text : Text) : Option Text := do
  let (year, rest) ← readFixed 4 text
  let (month, rest) ← readFixed 2 (← behind? '-' rest)
  let (day, rest) ← readFixed 2 (← behind? '-' rest)
  if 1 ≤ month ∧ month ≤ 12 ∧ 1 ≤ day ∧ day ≤ daysOfMonth year month then some rest else none

def hourMinute? (text : Text) : Option Text := do
  let (hour, rest) ← readFixed 2 text
  let (minute, rest) ← readFixed 2 (← behind? ':' rest)
  if hour ≤ 23 ∧ minute ≤ 59 then some rest else none

/-- The text behind a time of day. There is room for a leap second. -/
def time? (text : Text) : Option Text := do
  let (second, rest) ← readFixed 2 (← behind? ':' (← hourMinute? text))
  if second ≤ 60 then
    match rest with
    | '.' :: c :: more => some (if c.isDigit then more.dropWhile Char.isDigit else rest)
    | rest => some rest
  else none

/-- The text behind the difference to universal time it may begin with. -/
def skipShift (text : Text) : Text :=
  match text with
  | 'Z' :: rest | 'z' :: rest => rest
  | '+' :: rest | '-' :: rest => (hourMinute? rest).getD text
  | _ => text

def skipTime (text : Text) : Text :=
  match text with
  | 'T' :: rest | 't' :: rest | ' ' :: rest => ((time? rest).map skipShift).getD text
  | _ => text

/-- The text behind a date, a time of day, or both. -/
def moment? (text : Text) : Option Text :=
  match date? text with
  | some rest => some (skipTime rest)
  | none => time? text

end DumpMode.Toml
