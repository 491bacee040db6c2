/-!
# Digits

Numbers written as digits, most significant first, and the values of digits that are read. Where a
number has to be below a bound, `decimalBelow?` reads no further than to the bound, and
`decimalBelow?_eq_filter` says that nothing is missed by that.
-/

namespace DumpMode.Text

/-- The digit of a value below sixteen, in lower case. -/
def digit (value : Nat) : Char :=
  if value < 10 then Char.ofNat (48 + value) else Char.ofNat (87 + value)

def decimal (n : Nat) : List Char :=
  if n < 10 then [digit n] else decimal (n / 10) ++ [digit (n % 10)]

def hexadecimal (n : Nat) : List Char :=
  if n < 16 then [digit n] else hexadecimal (n / 16) ++ [digit (n % 16)]

/-- A natural number in decimal notation, filled up with zeros on the left to `width` digits. -/
def decimalPadded (width n : Nat) : List Char := (decimal n).leftpad width '0'

def decimalDigit? (c : Char) : Option Nat :=
  if '0' ≤ c ∧ c ≤ '9' then some (c.toNat - 48) else none

def hexDigit? (c : Char) : Option Nat :=
  if '0' ≤ c ∧ c ≤ '9' then some (c.toNat - 48)
  else if 'a' ≤ c ∧ c ≤ 'f' then some (c.toNat - 87)
  else if 'A' ≤ c ∧ c ≤ 'F' then some (c.toNat - 55)
  else none

/-- The value of a text of decimal digits, read from the left onto `value`; none if a character is
no digit. -/
def decimalValue? (value : Nat) : List Char → Option Nat
  | [] => some value
  | c :: rest => (decimalDigit? c).bind fun d ↦ decimalValue? (10 * value + d) rest

/-- The value of a text of decimal digits, read from the left onto `value`; none if a character is
no digit or the bound is reached. -/
def decimalBelow? (bound value : Nat) : List Char → Option Nat
  | [] => some value
  | c :: rest => (decimalDigit? c).bind fun d ↦
    if 10 * value + d < bound then decimalBelow? bound (10 * value + d) rest else none

theorem decimalDigit?_digit {d : Nat} (h : d < 10) : decimalDigit? (digit d) = some d := by
  have : ∀ d : Fin 10, decimalDigit? (digit d.val) = some d.val := by decide
  exact this ⟨d, h⟩

theorem hexDigit?_digit {d : Nat} (h : d < 16) : hexDigit? (digit d) = some d := by
  have : ∀ d : Fin 16, hexDigit? (digit d.val) = some d.val := by decide
  exact this ⟨d, h⟩

theorem decimal_ne_nil (n : Nat) : decimal n ≠ [] := by
  rw [decimal]
  split <;> simp

private theorem decimalValue?_append {s t : List Char} {v w : Nat}
    (h : decimalValue? v s = some w) : decimalValue? v (s ++ t) = decimalValue? w t := by
  induction s generalizing v with
  | nil => simp_all [decimalValue?]
  | cons c s ih =>
    simp only [decimalValue?, Option.bind_eq_some_iff] at h
    obtain ⟨d, hd, h⟩ := h
    simp [decimalValue?, hd, ih h]

private theorem le_of_decimalValue? {s : List Char} {v w : Nat}
    (h : decimalValue? v s = some w) : v ≤ w := by
  induction s generalizing v with
  | nil => simp_all [decimalValue?]
  | cons c s ih =>
    simp only [decimalValue?, Option.bind_eq_some_iff] at h
    obtain ⟨d, _, h⟩ := h
    have := ih h
    omega

theorem decimalBelow?_eq_filter {bound value : Nat} (h : value < bound) (s : List Char) :
    decimalBelow? bound value s = (decimalValue? value s).filter (· < bound) := by
  induction s generalizing value with
  | nil => simp [decimalBelow?, decimalValue?, Option.filter, h]
  | cons c s ih =>
    rw [decimalBelow?, decimalValue?]
    cases decimalDigit? c with
    | none => rfl
    | some d =>
      simp only [Option.bind_some]
      split
      · next below => exact ih below
      · next reached =>
        cases hv : decimalValue? (10 * value + d) s with
        | none => rfl
        | some w =>
          have hw : ¬ w < bound := by
            have := le_of_decimalValue? hv
            omega
          simp [Option.filter, hw]

theorem decimalValue?_decimal (n : Nat) : decimalValue? 0 (decimal n) = some n := by
  induction n using Nat.strongRecOn with
  | ind n ih =>
    rw [decimal]
    split
    · rename_i h
      simp [decimalValue?, decimalDigit?_digit h]
    · rw [decimalValue?_append (ih (n / 10) (by omega))]
      simp only [decimalValue?, decimalDigit?_digit (Nat.mod_lt n (by omega : 0 < 10)),
        Option.bind_some, Option.some.injEq]
      omega

end DumpMode.Text
