import DumpMode.Json.Number
import DumpMode.Json.Value

/-!
# Reading back digits and quotes

The small parts of a JSON text are read back as they are written, whatever stands behind them. A
number needs one condition for that: the text behind it must not go on with more digits, a point or
a power of ten (`EndsNumber`). A quoted text needs none, since its last quote is the first one that
is not escaped.
-/

namespace DumpMode

/-! ## Digits -/

namespace Text

theorem isDigit_of_decimalDigit? {c : Char} {d : Nat} (h : decimalDigit? c = some d) :
    c.isDigit = true ∧ c.toNat - 48 = d := by
  rw [decimalDigit?] at h
  split at h
  · rename_i hc
    refine ⟨?_, Option.some.inj h⟩
    simpa [Char.isDigit, Char.le_def] using hc
  · cases h

private theorem isDigit_of_mem_of_decimalValue? {s : Text} {v w : Nat}
    (h : decimalValue? v s = some w) {c : Char} (hc : c ∈ s) : c.isDigit = true := by
  induction s generalizing v with
  | nil => cases hc
  | cons b s ih =>
    obtain ⟨d, hd, h⟩ := Option.bind_eq_some_iff.mp h
    rcases List.mem_cons.mp hc with rfl | hc
    · exact (isDigit_of_decimalDigit? hd).1
    · exact ih h hc

theorem isDigit_of_mem_decimal {n : Nat} {c : Char} (h : c ∈ decimal n) : c.isDigit = true :=
  isDigit_of_mem_of_decimalValue? (decimalValue?_decimal n) h

theorem exists_decimal_eq_cons (n : Nat) :
    ∃ c digits, decimal n = c :: digits ∧ c.isDigit = true := by
  obtain ⟨c, digits, h⟩ := List.exists_cons_of_ne_nil (decimal_ne_nil n)
  exact ⟨c, digits, h, isDigit_of_mem_decimal (h ▸ List.mem_cons_self)⟩

theorem decimal_zero : decimal 0 = ['0'] := by
  rw [decimal]
  rfl

private theorem digit_eq_zero_iff {d : Nat} (h : d < 10) : digit d = '0' ↔ d = 0 := by
  have : ∀ d : Fin 10, digit d.val = '0' ↔ d.val = 0 := by decide
  exact this ⟨d, h⟩

theorem head?_decimal_eq_zero_iff {n : Nat} : (decimal n).head? = some '0' ↔ n = 0 := by
  induction n using Nat.strongRecOn with
  | ind n ih =>
    rw [decimal]
    split
    · rename_i h
      simp [digit_eq_zero_iff h]
    · rename_i h
      rw [List.head?_append, Option.or_of_isSome, ih (n / 10) (by omega)]
      · omega
      · exact List.isSome_head?.mpr (decimal_ne_nil _)

end Text

namespace Json

/-! ## Numbers -/

/-- Whether a text does not go on with a number that stands before it. -/
def EndsNumber (rest : Text) : Prop :=
  ∀ c ∈ rest.head?, c.isDigit = false ∧ c ≠ '.' ∧ c ≠ 'e' ∧ c ≠ 'E'

theorem endsNumber_nil : EndsNumber [] := fun _ h ↦ nomatch h

theorem endsNumber_cons {c : Char} (h : c = ',' ∨ c = ']' ∨ c = '\x7d') (rest : Text) :
    EndsNumber (c :: rest) := by
  rintro _ ⟨⟩
  rcases h with rfl | rfl | rfl <;> decide

theorem EndsNumber.any_isDigit {rest : Text} (h : EndsNumber rest) :
    rest.head?.any Char.isDigit = false := by
  cases rest with
  | nil => rfl
  | cons c rest => exact (h c rfl).1

theorem dropWhile_isDigit_append {digits rest : Text} (hdigits : ∀ c ∈ digits, c.isDigit = true)
    (hrest : rest.head?.any Char.isDigit = false) :
    (digits ++ rest).dropWhile Char.isDigit = rest := by
  rw [List.dropWhile_append_of_pos hdigits]
  cases rest with
  | nil => rfl
  | cons c rest => exact List.dropWhile_cons_of_neg (by simpa using hrest)

private theorem spanDigits_append {digits rest : Text} (hdigits : ∀ c ∈ digits, c.isDigit = true)
    (hrest : rest.head?.any Char.isDigit = false) :
    spanDigits (digits ++ rest) = (digits, rest) := by
  rw [spanDigits, dropWhile_isDigit_append hdigits hrest, List.takeWhile_append_of_pos hdigits]
  cases rest with
  | nil => simp
  | cons c rest =>
    have hc : c.isDigit = false := by simpa using hrest
    simp [hc]

private theorem takeDigits_of_decimalBelow? {bound v w : Nat} {s : Text}
    (h : Text.decimalBelow? bound v s = some w) (taken : Nat) :
    takeDigits bound v taken s = (w, taken + s.length, 0) := by
  induction s generalizing v taken with
  | nil =>
    cases h
    rfl
  | cons c s ih =>
    obtain ⟨d, hd, h⟩ := Option.bind_eq_some_iff.mp h
    obtain ⟨-, rfl⟩ := Text.isDigit_of_decimalDigit? hd
    split at h
    · rename_i hlt
      rw [takeDigits]
      simp only [if_pos hlt, ih h, List.length_cons]
      rw [Nat.add_right_comm, Nat.add_assoc]
    · cases h

theorem takeDigits_decimal {bound n : Nat} (h : n < bound) :
    takeDigits bound 0 0 (Text.decimal n) = (n, (Text.decimal n).length, 0) := by
  have hbelow : Text.decimalBelow? bound 0 (Text.decimal n) = some n := by
    rw [Text.decimalBelow?_eq_filter (by omega), Text.decimalValue?_decimal]
    simp [Option.filter, h]
  rw [takeDigits_of_decimalBelow? hbelow, Nat.zero_add]

private theorem readBehind_of_endsNumber {n : Nat} {rest : Text} (hrest : EndsNumber rest) :
    readBehind false n 0 rest = .ok (.natural n, rest) := by
  unfold readBehind
  split
  · exact absurd rfl (hrest _ rfl).2.1
  · exact absurd rfl (hrest _ rfl).2.2.1
  · exact absurd rfl (hrest _ rfl).2.2.2
  · simp

/-- The digits before any point are taken as far as they fit into 64 bits, and then what stands
behind them is read. -/
theorem readUnsigned_decimal_append (negative : Bool) (n : Nat) {rest : Text}
    (hrest : rest.head?.any Char.isDigit = false) :
    readUnsigned negative (Text.decimal n ++ rest) =
      readBehind negative (takeDigits integerBound 0 0 (Text.decimal n)).1
        (takeDigits integerBound 0 0 (Text.decimal n)).2.2 rest := by
  obtain ⟨c, digits, hn, hc⟩ := Text.exists_decimal_eq_cons n
  have hzero := Text.head?_decimal_eq_zero_iff (n := n)
  rw [hn, List.head?_cons, Option.some.injEq] at hzero
  have hspan := spanDigits_append (fun c ↦ Text.isDigit_of_mem_decimal (n := n)) hrest
  rw [hn] at hspan ⊢
  rw [List.cons_append] at hspan ⊢
  unfold readUnsigned
  split
  · rename_i heq
    cases heq
  · -- a zero in front is all there is
    rename_i heq
    obtain ⟨rfl, rfl⟩ := List.cons.inj heq
    obtain rfl := hzero.mp rfl
    obtain rfl : digits = [] := (List.cons.inj (hn.symm.trans Text.decimal_zero)).2
    rw [List.nil_append, hrest]
    rfl
  · rename_i heq
    obtain ⟨rfl, -⟩ := List.cons.inj heq
    rw [if_pos hc, hspan]

private theorem readUnsigned_decimal {n : Nat} (h : n < integerBound) {rest : Text}
    (hrest : EndsNumber rest) :
    readUnsigned false (Text.decimal n ++ rest) = .ok (.natural n, rest) := by
  rw [readUnsigned_decimal_append false n hrest.any_isDigit, takeDigits_decimal h]
  exact readBehind_of_endsNumber hrest

/-- **A natural number is read back from its digits** if it fits into 64 bits; it never becomes a
real one on the way. -/
theorem readNumber_decimal {n : Nat} (h : n < integerBound) {rest : Text}
    (hrest : EndsNumber rest) :
    readNumber (Text.decimal n ++ rest) = .ok (.natural n, rest) := by
  have hread := readUnsigned_decimal h hrest
  obtain ⟨c, digits, hn, hc⟩ := Text.exists_decimal_eq_cons n
  rw [hn, List.cons_append] at hread ⊢
  unfold readNumber
  split
  · rename_i heq
    obtain ⟨rfl, -⟩ := List.cons.inj heq
    cases hc
  · exact hread

/-! ## Blanks -/

theorem skipBlank_cons {c : Char} (h : isBlank c = false) (rest : Text) :
    skipBlank (c :: rest) = c :: rest := List.dropWhile_cons_of_neg (by simp [h])

theorem isBlank_of_isDigit {c : Char} (h : c.isDigit = true) : isBlank c = false := by
  cases hblank : isBlank c with
  | false => rfl
  | true =>
    rw [isBlank] at hblank
    simp only [Bool.or_eq_true, beq_iff_eq] at hblank
    rcases hblank with ((rfl | rfl) | rfl) | rfl <;> cases h

/-! ## Strings -/

theorem readStringFrom_backslash {text rest : Text} {c : Char} (h : readEscape text = .ok (c, rest))
    (before : Text) :
    readStringFrom before ('\\' :: text) = readStringFrom (c :: before) rest := by
  rw [readStringFrom]
  split
  · rename_i heq
    cases h.symm.trans heq
  · rename_i heq
    obtain ⟨rfl, rfl⟩ := Prod.mk.inj (Except.ok.inj (h.symm.trans heq))
    rfl

theorem readStringFrom_plain {c : Char} (hquote : c ≠ '"') (hslash : c ≠ '\\')
    (hcontrol : ¬c.toNat < 32) (before rest : Text) :
    readStringFrom before (c :: rest) = readStringFrom (c :: before) rest := by
  rw [readStringFrom]
  · rw [if_neg hcontrol]
  · exact hquote
  · exact hslash

private theorem readEscape_code {c : Char} (h : c.toNat < 32) (rest : Text) :
    readEscape
        ('u' :: '0' :: '0' :: Text.digit (c.toNat / 16) :: Text.digit (c.toNat % 16) :: rest)
      = .ok (c, rest) := by
  have hcode : readHex4
        ('0' :: '0' :: Text.digit (c.toNat / 16) :: Text.digit (c.toNat % 16) :: rest)
      = .ok (c.toNat, rest) := by
    have hzero : Text.hexDigit? '0' = some 0 := by decide
    have hhigh := Text.hexDigit?_digit (d := c.toNat / 16) (by omega)
    have hlow := Text.hexDigit?_digit (d := c.toNat % 16) (by omega)
    have hvalue : ((0 * 16 + 0) * 16 + c.toNat / 16) * 16 + c.toNat % 16 = c.toNat := by omega
    simp only [readHex4, hzero, hhigh, hlow, hvalue]
  -- such a code is no half of a pair
  have htrailing : isTrailing c.toNat = false := by
    simp only [isTrailing, Bool.and_eq_false_iff, decide_eq_false_iff_not]
    omega
  have hleading : isLeading c.toNat = false := by
    simp only [isLeading, Bool.and_eq_false_iff, decide_eq_false_iff_not]
    omega
  simp only [readEscape, hcode, htrailing, hleading, Bool.false_eq_true, if_false, Char.ofNat_toNat]

/-- **A character is read back as it is written**, by its letter, by its code or as it is. -/
private theorem readStringFrom_escape (before : Text) (c : Char) (rest : Text) :
    readStringFrom before (escape c ++ rest) = readStringFrom (c :: before) rest := by
  unfold escape
  -- the seven characters that have a letter
  iterate 7
    split
    · subst_vars
      exact readStringFrom_backslash rfl before
  split
  · rename_i hcontrol
    exact readStringFrom_backslash (readEscape_code hcontrol rest) before
  · rename_i hquote hslash _ _ _ _ _ hcontrol
    exact readStringFrom_plain hquote hslash hcontrol before rest

private theorem readStringFrom_flatMap_escape (before s rest : Text) :
    readStringFrom before (s.flatMap escape ++ '"' :: rest) = .ok (before.reverse ++ s, rest) := by
  induction s generalizing before with
  | nil => rw [List.flatMap_nil, List.nil_append, readStringFrom, List.append_nil]
  | cons c s ih =>
    rw [List.flatMap_cons, List.append_assoc, readStringFrom_escape, ih, List.reverse_cons,
      List.append_assoc]
    rfl

/-- **A text is read back from its quotes**, whatever characters it has. -/
theorem readString_flatMap_escape (s rest : Text) :
    readString (s.flatMap escape ++ '"' :: rest) = .ok (s, rest) :=
  readStringFrom_flatMap_escape [] s rest

theorem quote_append (s rest : Text) :
    quote s ++ rest = '"' :: (s.flatMap escape ++ '"' :: rest) := by
  rw [quote, List.cons_append, List.append_assoc]
  rfl

end Json

end DumpMode
