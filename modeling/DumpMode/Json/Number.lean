import DumpMode.Decimal.Real
import DumpMode.Json.Lexical

/-!
# Numbers of JSON

A number without a point and a power of ten is an integer if it fits into 64 bits; every other
number is a real one. The digits of a number are taken as long as they fit into 64 bits, further
ones count only by their number, and a power of ten is multiplied or divided in at the end. A real
number beyond the range of double precision is a fault, and so are needless zeros at the front.
-/

namespace DumpMode.Json

/-- A number as it is read. -/
inductive Number where
  /-- An integer without a sign. -/
  | natural (n : Nat)
  /-- The negative of a positive integer. -/
  | negative (n : Nat)
  | real (x : Float)

/-- Real numbers are written around a point if that takes at most sixteen digits before it and
four zeros behind it. Ties go to the even digit. -/
def realStyle : Decimal.Style := ⟨-5, 15, .toEven⟩

def integerBound : Nat := Nat.pow 2 64

/-! ## Reading -/

/-- Takes digits onto a number as long as it stays below `bound`. The result is the number, how many
digits were taken, and how many were left. -/
def takeDigits (bound value taken : Nat) : Text → Nat × Nat × Nat
  | [] => (value, taken, 0)
  | c :: rest =>
    let next := 10 * value + (c.toNat - 48)
    if next < bound then takeDigits bound next (taken + 1) rest
    else (value, taken, (c :: rest).length)

def spanDigits (text : Text) : Text × Text :=
  (text.takeWhile Char.isDigit, text.dropWhile Char.isDigit)

/-- The real number `significand · 10 ^ exponent`. Far below the range of double precision the
power is divided out in steps. -/
def scale (x : Float) (exponent : Int) : Nat → Except Fault Float
  | 0 => .ok x
  | fuel + 1 =>
    if exponent < -308 then
      if x == 0 then .ok x else scale (x / Float.ofScientific 1 false 308) (exponent + 308) fuel
    else if exponent < 0 then .ok (x / Float.ofScientific 1 false exponent.natAbs)
    else if exponent ≤ 308 then
      let y := x * Float.ofScientific 1 false exponent.natAbs
      if y.isInf then .error .malformed else .ok y
    else if x == 0 then .ok x
    else .error .malformed

/-- The real number `± significand · 10 ^ exponent`. -/
def real (negative : Bool) (significand : Nat) (exponent : Int) : Except Fault Number :=
  match scale significand.toUInt64.toFloat exponent 8 with
  | .error f => .error f
  | .ok x => .ok (.real (if negative then -x else x))

/-- The power of ten behind its letter. A power of more than 31 bits makes a number zero or too
large, whatever the rest of it is. -/
def readPower (negative : Bool) (significand : Nat) (exponent : Int) (text : Text) :
    Except Fault (Number × Text) :=
  let (down, text) : Bool × Text := match text with
    | '+' :: rest => (false, rest)
    | '-' :: rest => (true, rest)
    | text => (false, text)
  let (digits, rest) := spanDigits text
  match digits with
  | [] => if rest.isEmpty then .error .ended else .error .malformed
  | digits =>
    let (power, _, left) := takeDigits (Nat.pow 2 31) 0 0 digits
    if 0 < left then
      if significand ≠ 0 ∧ ¬ down then .error .malformed
      else .ok (.real (if negative then -0.0 else 0.0), rest)
    else
      (real negative significand (if down then exponent - power else exponent + power)).map
        fun x ↦ (x, rest)

/-- The digits behind a point, and a power of ten if there is one. -/
def readFraction (negative : Bool) (significand : Nat) (exponent : Int) (text : Text) :
    Except Fault (Number × Text) :=
  let (digits, rest) := spanDigits text
  match digits with
  | [] => if rest.isEmpty then .error .ended else .error .malformed
  | digits =>
    let (significand, taken, _) := takeDigits integerBound significand 0 digits
    let exponent := exponent - taken
    match rest with
    | 'e' :: rest | 'E' :: rest => readPower negative significand exponent rest
    | rest => (real negative significand exponent).map fun x ↦ (x, rest)

/-- The number whose digits before any point are read; `left` of them did not fit. -/
def readBehind (negative : Bool) (significand left : Nat) (text : Text) :
    Except Fault (Number × Text) :=
  match text with
  | '.' :: rest => readFraction negative significand left rest
  | 'e' :: rest | 'E' :: rest => readPower negative significand left rest
  | rest =>
    if 0 < left then (real negative significand left).map fun x ↦ (x, rest)
    else if ¬ negative then .ok (.natural significand, rest)
    else if significand = 0 ∨ Nat.pow 2 63 < significand then
      .ok (.real (-significand.toUInt64.toFloat), rest)
    else .ok (.negative significand, rest)

def readUnsigned (negative : Bool) (text : Text) : Except Fault (Number × Text) :=
  match text with
  | [] => .error .ended
  | '0' :: rest =>
    if rest.head?.any Char.isDigit then .error .malformed else readBehind negative 0 0 rest
  | c :: _ =>
    if c.isDigit then
      let (digits, rest) := spanDigits text
      let (significand, _, left) := takeDigits integerBound 0 0 digits
      readBehind negative significand left rest
    else .error .malformed

def readNumber (text : Text) : Except Fault (Number × Text) :=
  match text with
  | '-' :: rest => readUnsigned true rest
  | text => readUnsigned false text

def Number.found : Number → Document.Found
  | .natural n => .integer n
  | .negative n => .integer (-n)
  | .real x => .real (Decimal.write realStyle x)

/-! ## Passing -/

def skipSign : Text → Text
  | '+' :: rest | '-' :: rest => rest
  | text => text

def skipPower (text : Text) : Except Fault Text :=
  let digits := skipSign text
  if digits.head?.any Char.isDigit then .ok (digits.dropWhile Char.isDigit) else .error .malformed

/-- Passes what stands behind the digits before any point. -/
def skipBehind (text : Text) : Except Fault Text :=
  match text with
  | '.' :: rest =>
    if rest.head?.any Char.isDigit then
      match rest.dropWhile Char.isDigit with
      | 'e' :: rest | 'E' :: rest => skipPower rest
      | rest => .ok rest
    else .error .malformed
  | 'e' :: rest | 'E' :: rest => skipPower rest
  | rest => .ok rest

/-- Passes a number whose sign is passed. Only the notation matters; a number that ends too early
is malformed. -/
def skipUnsigned (text : Text) : Except Fault Text :=
  match text with
  | '0' :: rest => if rest.head?.any Char.isDigit then .error .malformed else skipBehind rest
  | c :: rest => if c.isDigit then skipBehind (rest.dropWhile Char.isDigit) else .error .malformed
  | [] => .error .malformed

def skipNumber (text : Text) : Except Fault Text :=
  match text with
  | '-' :: rest => skipUnsigned rest
  | text => skipUnsigned text

private theorem length_dropWhile_le (text : Text) :
    (text.dropWhile Char.isDigit).length ≤ text.length := (List.dropWhile_sublist _).length_le

private theorem length_skipSign_le (text : Text) : (skipSign text).length ≤ text.length := by
  unfold skipSign
  split <;> simp

private theorem length_of_skipPower {text rest : Text} (h : skipPower text = .ok rest) :
    rest.length ≤ text.length := by
  unfold skipPower at h
  simp only at h
  split at h
  · simp only [Except.ok.injEq] at h
    rw [← h]
    exact Nat.le_trans (length_dropWhile_le _) (length_skipSign_le text)
  · simp at h

private theorem length_of_skipBehind {text rest : Text} (h : skipBehind text = .ok rest) :
    rest.length ≤ text.length := by
  unfold skipBehind at h
  split at h
  · rename_i tail
    have hle := length_dropWhile_le tail
    split at h
    · split at h
      · rename_i heq
        have := length_of_skipPower h
        simp only [heq, List.length_cons] at hle ⊢
        omega
      · rename_i heq
        have := length_of_skipPower h
        simp only [heq, List.length_cons] at hle ⊢
        omega
      · simp only [Except.ok.injEq] at h
        rw [← h]
        simp only [List.length_cons]
        omega
    · simp at h
  · have := length_of_skipPower h
    simp only [List.length_cons]
    omega
  · have := length_of_skipPower h
    simp only [List.length_cons]
    omega
  · simp only [Except.ok.injEq] at h
    simp [h]

private theorem length_of_skipUnsigned {text rest : Text} (h : skipUnsigned text = .ok rest) :
    rest.length < text.length := by
  unfold skipUnsigned at h
  split at h
  · split at h
    · simp at h
    · have := length_of_skipBehind h
      simp only [List.length_cons]
      omega
  · rename_i c tail _
    split at h
    · have h₁ := length_of_skipBehind h
      have h₂ := length_dropWhile_le tail
      simp only [List.length_cons]
      omega
    · simp at h
  · simp at h

theorem length_of_skipNumber {text rest : Text} (h : skipNumber text = .ok rest) :
    rest.length < text.length := by
  unfold skipNumber at h
  split at h
  · have := length_of_skipUnsigned h
    simp only [List.length_cons]
    omega
  · exact length_of_skipUnsigned h

end DumpMode.Json
