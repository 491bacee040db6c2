import DumpMode.Decimal.Shortest
import DumpMode.Text.Bytes
import DumpMode.Text.Digits

/-!
# Writing floating-point numbers

A floating-point number is written by its shortest decimal. A style says between which powers of
ten the digits are written around a point, outside of which a power of ten is split off, and how
ties are broken. A point is always written where no power of ten is, and at least one digit stands
on either side of it.
-/

namespace DumpMode.Decimal

/-- The range of numbers that are written around a point, and the choice of digits. -/
structure Style where
  /-- The least power of ten that the first digit may stand for. -/
  least : Int
  /-- The greatest power of ten that the first digit may stand for. -/
  greatest : Int
  tie : Tie
deriving DecidableEq, Repr

/-- Digits around a point; `point` is the number of digits before it. -/
def positional (digits : Text) (point : Int) : Text :=
  if point ≤ 0 then '0' :: '.' :: (List.replicate (-point).toNat '0' ++ digits)
  else
    let whole := digits.take point.toNat
    let fraction := digits.drop point.toNat
    whole ++ List.replicate (point.toNat - whole.length) '0' ++
      '.' :: (if fraction.isEmpty then ['0'] else fraction)

/-- Digits with a power of ten split off, so that one digit stands before the point. The power has
a sign, also where it is positive. -/
def scientific (digits : Text) (power : Int) : Text :=
  let rest := digits.drop 1
  digits.take 1 ++ (if rest.isEmpty then [] else '.' :: rest) ++
    'e' :: (if power < 0 then '-' else '+') :: Text.decimal power.natAbs

def Binary.write (b : Binary) (style : Style) : Text :=
  let d := b.shortest style.tie
  let digits := Text.decimal d.digits
  let power := d.exponent + digits.length - 1
  if style.least ≤ power ∧ power ≤ style.greatest then positional digits (power + 1)
  else scientific digits power

def write (style : Style) (x : Float) : Text :=
  let bits := x.toBits.toNat
  let fraction := bits % Nat.pow 2 52
  let exponent := bits / Nat.pow 2 52 % Nat.pow 2 11
  let sign : Text := if Nat.pow 2 63 ≤ bits then ['-'] else []
  if exponent = 2047 then
    if fraction = 0 then sign ++ ['i', 'n', 'f'] else ['N', 'a', 'N']
  else if fraction = 0 ∧ exponent = 0 then sign ++ ['0', '.', '0']
  else sign ++ (Binary.ofFields fraction exponent).write style

end DumpMode.Decimal
