/-!
# The shortest decimal of a floating-point number

A finite number of double precision is `m · 2 ^ q` for natural `m` and integer `q`, and the reals
that round to it form an interval around it. Among the decimals in that interval the one with the
fewest digits stands for the number, and of several with as few digits the nearest. Two decimals can
be as near: a number that lies halfway between them is a tie, and who writes numbers chooses how
ties are broken. All of it is decided in natural numbers: the number, the ends of the interval and
the decimals are put over one denominator.
-/

namespace DumpMode.Decimal

/-- A positive binary number with the ends of the interval of reals that round to it. -/
structure Binary where
  /-- The number, in quarters of a unit in the last place. -/
  centre : Nat
  lower : Nat
  upper : Nat
  closed : Bool
  /-- The power of two that a quarter stands for. -/
  exponent : Int
deriving DecidableEq, Repr

/-- The number of a significand and a field of exponents of double precision. A significand that
is a power of two has a nearer neighbour below, unless the exponent is the least one. -/
def Binary.ofFields (fraction exponent : Nat) : Binary :=
  let significand := if exponent = 0 then fraction else fraction + Nat.pow 2 52
  let below := if fraction = 0 ∧ 1 < exponent then 1 else 2
  { centre := 4 * significand
    lower := 4 * significand - below
    upper := 4 * significand + 2
    closed := significand % 2 = 0
    exponent := (max exponent 1 : Nat) - 1077 }

/-- A decimal number `digits · 10 ^ exponent`. -/
structure Numeral where
  digits : Nat
  /-- The power of ten of the last digit. -/
  exponent : Int
deriving DecidableEq, Repr

/-- `a · 2 ^ x` compared with `d · 10 ^ e`, both multiplied by powers that make them natural. -/
def compareToDecimal (a : Nat) (x : Int) (d : Nat) (e : Int) : Ordering :=
  compare (a * Nat.pow 2 x.toNat * Nat.pow 10 (-e).toNat)
    (d * Nat.pow 10 e.toNat * Nat.pow 2 (-x).toNat)

def Binary.accepts (b : Binary) (d : Numeral) : Bool :=
  let low := compareToDecimal b.lower b.exponent d.digits d.exponent
  let high := compareToDecimal b.upper b.exponent d.digits d.exponent
  (low == .lt || (b.closed && low == .eq)) && (high == .gt || (b.closed && high == .eq))

/-- The number of units of `10 ^ e` in a binary number, rounded down. -/
def Binary.floor (b : Binary) (e : Int) : Nat :=
  b.centre * Nat.pow 2 b.exponent.toNat * Nat.pow 10 (-e).toNat /
    (Nat.pow 10 e.toNat * Nat.pow 2 (-b.exponent).toNat)

/-- Which of two decimals that are as near stands for a number. -/
inductive Tie where
  | toEven
  | away
deriving DecidableEq, Repr

def Tie.takesBelow (tie : Tie) (below : Nat) : Bool :=
  match tie with
  | .toEven => below % 2 = 0
  | .away => false

/-- Whether the decimal below a binary number is taken rather than the one above it: the nearer one
is, and a tie is broken as told. -/
def Binary.takesBelow (b : Binary) (tie : Tie) (below : Nat) (e : Int) : Bool :=
  match compareToDecimal (2 * b.centre) b.exponent (2 * below + 1) e with
  | .lt => true
  | .eq => tie.takesBelow below
  | .gt => false

/-- The power of ten of the first digit of a binary number, the first that fits from `e` down. -/
def Binary.leading (b : Binary) (e : Int) : Nat → Int
  | 0 => e
  | fuel + 1 => if 0 < b.floor e then e else b.leading (e - 1) fuel

/-- The decimal for a binary number that has its last digit at `10 ^ e`, if one is in the
interval. -/
def Binary.decimalAt? (b : Binary) (tie : Tie) (e : Int) : Option Numeral :=
  let below : Numeral := ⟨b.floor e, e⟩
  let above : Numeral := ⟨b.floor e + 1, e⟩
  match b.accepts below, b.accepts above with
  | true, true => some (if b.takesBelow tie below.digits e then below else above)
  | true, false => some below
  | false, true => some above
  | false, false => none

/-- The decimal with the fewest digits, its last digit at `10 ^ e` or further right. -/
def Binary.search (b : Binary) (tie : Tie) (e : Int) : Nat → Numeral
  | 0 => ⟨b.floor e, e⟩
  | fuel + 1 => (b.decimalAt? tie e).getD (b.search tie (e - 1) fuel)

def Numeral.strip (d : Numeral) : Nat → Numeral
  | 0 => d
  | fuel + 1 =>
    if d.digits ≠ 0 ∧ d.digits % 10 = 0 then Numeral.strip ⟨d.digits / 10, d.exponent + 1⟩ fuel
    else d

/-- The decimal that stands for a binary number. Seventeen digits are always enough. -/
def Binary.shortest (b : Binary) (tie : Tie) : Numeral :=
  (b.search tie (b.leading 309 640) 17).strip 20

end DumpMode.Decimal
