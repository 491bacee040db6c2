import DumpMode.Proofs.Json.Passing
import DumpMode.Proofs.Results

/-!
# Strings and numbers as they are written

A string is read as the text that its letters stand for, whichever way they are written
(`readString_letters`). A number is read as a natural one in its plain form alone, and only if it
fits into 64 bits (`readNumber_natural`): with a sign, a point, a power of ten or digits too many it
becomes a number of another kind or a fault, so no natural number is ever made of it.
-/

namespace DumpMode.Json

open Letter (spelled? number)

/-! ## Strings -/

private theorem readStringFrom_fault {text : Text} {f : Fault} (h : readEscape text = .error f)
    (before : Text) : readStringFrom before ('\\' :: text) = .error f := by
  rw [readStringFrom]
  split
  · rename_i heq
    rw [Except.error.inj (h.symm.trans heq)]
  · rename_i heq
    cases h.symm.trans heq

private theorem Letter.text_code_append (a b c d : HexDigit) (rest : Text) :
    (Letter.code a b c d).text ++ rest
      = '\\' :: 'u' :: a.char :: b.char :: c.char :: d.char :: rest := rfl

section Escapes

variable (a b c d : HexDigit) (rest : Text)

private theorem readEscape_trailing (h : isTrailing (number a b c d) = true) :
    readEscape ('u' :: a.char :: b.char :: c.char :: d.char :: rest) = .error .malformed := by
  simp only [readEscape, readHex4_digits, h, if_true]

private theorem readEscape_single (htrailing : ¬isTrailing (number a b c d) = true)
    (hleading : ¬isLeading (number a b c d) = true) :
    readEscape ('u' :: a.char :: b.char :: c.char :: d.char :: rest)
      = .ok (Char.ofNat (number a b c d), rest) := by
  simp only [readEscape, readHex4_digits, htrailing, hleading, Bool.false_eq_true, if_false]

private theorem readEscape_leading (htrailing : ¬isTrailing (number a b c d) = true)
    (hleading : isLeading (number a b c d) = true) :
    readEscape ('u' :: a.char :: b.char :: c.char :: d.char :: rest)
      = (readTrailing rest).map fun (m, rest) ↦
          (Char.ofNat (0x10000 + (number a b c d - 0xD800) * 0x400 + (m - 0xDC00)), rest) := by
  simp only [readEscape, readHex4_digits, htrailing, hleading, Bool.false_eq_true, if_false,
    if_true]
  cases readTrailing rest <;> rfl

private theorem readTrailing_code :
    readTrailing ((Letter.code a b c d).text ++ rest) =
      if isTrailing (number a b c d) then .ok (number a b c d, rest) else .error .malformed := by
  simp only [Letter.text_code_append, readTrailing, readHex4_digits]

end Escapes

private theorem readTrailing_letters {letters : List Letter}
    (h : ∀ a b c d ls, letters ≠ .code a b c d :: ls) (rest : Text) :
    ∃ f, readTrailing (letters.flatMap Letter.text ++ '"' :: rest) = .error f := by
  match letters with
  | [] => exact ⟨_, rfl⟩
  | .plain c hquote hslash hcontrol :: ls =>
    simp only [List.flatMap_cons, Letter.text, List.cons_append, List.nil_append]
    refine ⟨.malformed, ?_⟩
    unfold readTrailing
    split <;> simp_all
  | .short e :: ls => cases e <;> exact ⟨_, rfl⟩
  | .code a b c d :: ls => exact absurd rfl (h a b c d ls)

/-- **A string is read as the text that its letters stand for**, and not at all if they stand for
none; by induction along the letters, where a pair of escapes is one step. -/
theorem readStringFrom_letters (letters : List Letter) (before rest : Text) :
    (readStringFrom before (letters.flatMap Letter.text ++ '"' :: rest)).toOption
      = (spelled? letters).map fun s ↦ (before.reverse ++ s, rest) := by
  -- a character that is read is put in front of what is still to come
  have hcons : ∀ (c : Char) (before : Text) (s : Option Text),
      (s.map fun s ↦ ((c :: before).reverse ++ s, rest))
        = (s.map (c :: ·)).map fun s ↦ (before.reverse ++ s, rest) := by
    intro c before s
    simp [Function.comp_def]
  fun_induction spelled? letters generalizing before with
  | case1 =>
    rw [List.flatMap_nil, List.nil_append, readStringFrom]
    simp [Except.toOption]
  | case2 c hquote hslash hcontrol ls ih =>
    rw [List.flatMap_cons, List.append_assoc, Letter.text, List.cons_append, List.nil_append,
      readStringFrom_plain hquote hslash hcontrol, ih, hcons]
  | case3 e ls ih =>
    have hescape : ∀ rest, readEscape (e.letter :: rest) = .ok (e.char, rest) := by
      cases e <;> exact fun _ ↦ rfl
    rw [List.flatMap_cons, List.append_assoc, Letter.text, List.cons_append, List.cons_append,
      List.nil_append, readStringFrom_backslash (hescape _), ih, hcons]
  | case4 a b c d ls n htrailing =>
    rw [List.flatMap_cons, List.append_assoc, Letter.text_code_append,
      readStringFrom_fault (readEscape_trailing a b c d _ htrailing)]
    rfl
  | case5 a b c d n htrailing hleading a' b' c' d' ls m hm ih =>
    have hescape := readEscape_leading a b c d
      ((Letter.code a' b' c' d').text ++ (ls.flatMap Letter.text ++ '"' :: rest)) htrailing hleading
    rw [readTrailing_code, if_pos hm] at hescape
    rw [List.flatMap_cons, List.append_assoc, Letter.text_code_append, List.flatMap_cons,
      List.append_assoc, readStringFrom_backslash hescape, ih, hcons]
  | case6 a b c d n htrailing hleading a' b' c' d' ls m hm =>
    have hescape := readEscape_leading a b c d
      ((Letter.code a' b' c' d').text ++ (ls.flatMap Letter.text ++ '"' :: rest)) htrailing hleading
    rw [readTrailing_code, if_neg hm] at hescape
    rw [List.flatMap_cons, List.append_assoc, Letter.text_code_append, List.flatMap_cons,
      List.append_assoc, readStringFrom_fault hescape]
    rfl
  | case7 a b c d ls n htrailing hleading hls =>
    obtain ⟨f, hf⟩ := readTrailing_letters hls rest
    have hescape := readEscape_leading a b c d (ls.flatMap Letter.text ++ '"' :: rest) htrailing
      hleading
    rw [hf] at hescape
    rw [List.flatMap_cons, List.append_assoc, Letter.text_code_append,
      readStringFrom_fault hescape]
    rfl
  | case8 a b c d ls n htrailing hleading ih =>
    have hescape := readEscape_single a b c d (ls.flatMap Letter.text ++ '"' :: rest) htrailing
      hleading
    rw [List.flatMap_cons, List.append_assoc, Letter.text_code_append,
      readStringFrom_backslash hescape, ih, hcons]

theorem readString_letters (letters : List Letter) (rest s r : Text) :
    readString (letters.flatMap Letter.text ++ '"' :: rest) = .ok (s, r)
      ↔ spelled? letters = some s ∧ r = rest := by
  rw [← toOption_eq_some_iff, readString, readStringFrom_letters]
  simp only [List.reverse_nil, List.nil_append, Option.map_eq_some_iff, Prod.mk.injEq]
  constructor
  · rintro ⟨s, hs, rfl, rfl⟩
    exact ⟨hs, rfl⟩
  · rintro ⟨hs, rfl⟩
    exact ⟨s, hs, rfl, rfl⟩

/-! ## Numbers -/

section Natural

variable {negative : Bool} {significand left n : Nat} {exponent : Int} {text rest r : Text}

private theorem real_map_ne_natural :
    (real negative significand exponent).map (fun x ↦ (x, rest)) ≠ .ok (.natural n, r) := by
  unfold real
  split <;> simp [Except.map]

private theorem readPower_ne_natural :
    readPower negative significand exponent text ≠ .ok (.natural n, r) := by
  fun_cases readPower negative significand exponent text
  -- it ends, its digits are missing, it is too large, or it makes the number zero
  iterate 4 simp
  exact real_map_ne_natural

private theorem readFraction_ne_natural :
    readFraction negative significand exponent text ≠ .ok (.natural n, r) := by
  fun_cases readFraction negative significand exponent text
  · simp
  · simp
  · exact readPower_ne_natural
  · exact readPower_ne_natural
  · exact real_map_ne_natural

private theorem readBehind_natural (hrest : EndsNumber rest)
    (h : readBehind negative significand left rest = .ok (.natural n, r)) :
    negative = false ∧ left = 0 ∧ n = significand ∧ r = rest := by
  unfold readBehind at h
  split at h
  · exact absurd rfl (hrest _ rfl).2.1
  · exact absurd rfl (hrest _ rfl).2.2.1
  · exact absurd rfl (hrest _ rfl).2.2.2
  · by_cases hleft : 0 < left
    · rw [if_pos hleft] at h
      exact absurd h real_map_ne_natural
    · rw [if_neg hleft] at h
      by_cases hsign : negative = true
      · rw [if_neg (fun h ↦ h hsign)] at h
        split at h <;> cases h
      · rw [if_pos hsign] at h
        cases h
        exact ⟨by simpa using hsign, by omega, rfl, rfl⟩

private theorem readBehind_tail {m : Numeral} (hrest : EndsNumber rest)
    (h : readBehind negative significand left (m.tail ++ rest) = .ok (.natural n, r)) :
    m.fraction = none ∧ m.power = none ∧ negative = false ∧ left = 0 ∧ n = significand ∧
      r = rest := by
  obtain ⟨sign, whole, _ | d, _ | ⟨_ | _, p, e⟩⟩ := m
  · exact ⟨rfl, rfl, readBehind_natural hrest h⟩
  · exact absurd h readPower_ne_natural
  · exact absurd h readPower_ne_natural
  all_goals exact absurd h readFraction_ne_natural

end Natural

private theorem decimalBelow?_of_takeDigits {bound v taken : Nat} {s : Text}
    (hs : ∀ c ∈ s, c.isDigit = true) (h : (takeDigits bound v taken s).2.2 = 0) :
    Text.decimalBelow? bound v s = some (takeDigits bound v taken s).1 := by
  induction s generalizing v taken with
  | nil => rfl
  | cons c s ih =>
    have hc : Text.decimalDigit? c = some (c.toNat - 48) := by
      have := hs c List.mem_cons_self
      rw [Text.decimalDigit?, if_pos]
      simpa [Char.isDigit, Char.le_def] using this
    rw [Text.decimalBelow?, hc, Option.bind_some]
    rw [takeDigits] at h ⊢
    by_cases hlt : 10 * v + (c.toNat - 48) < bound
    · simp only [if_pos hlt] at h ⊢
      exact ih (fun c hc ↦ hs c (List.mem_cons_of_mem _ hc)) h
    · simp only [if_neg hlt, List.length_cons] at h
      omega

private theorem lt_of_takeDigits_decimal {bound n : Nat} (hbound : 0 < bound)
    (h : (takeDigits bound 0 0 (Text.decimal n)).2.2 = 0) : n < bound := by
  have hbelow := decimalBelow?_of_takeDigits (fun c ↦ Text.isDigit_of_mem_decimal (n := n)) h
  rw [Text.decimalBelow?_eq_filter hbound, Text.decimalValue?_decimal,
    Option.filter_eq_some_iff] at hbelow
  obtain ⟨hn, hlt⟩ := hbelow
  rw [← Option.some.inj hn] at hlt
  simpa using hlt

private theorem readNumber_text (m : Numeral) (rest : Text) :
    readNumber (m.text ++ rest)
      = readUnsigned m.negative (Text.decimal m.whole ++ (m.tail ++ rest)) := by
  obtain ⟨c, digits, hn, hc⟩ := Text.exists_decimal_eq_cons m.whole
  rw [Numeral.text, List.append_assoc, List.append_assoc]
  by_cases hsign : m.negative = true
  · rw [hsign, if_pos rfl]
    rfl
  · rw [if_neg hsign, List.nil_append, hn, List.cons_append, eq_false_of_ne_true hsign]
    unfold readNumber
    split
    · rename_i heq
      obtain ⟨rfl, -⟩ := List.cons.inj heq
      cases hc
    · rfl

/-- **A number is natural** only in its plain form and within 64 bits; it is never cut off or
rounded. -/
theorem readNumber_natural {m : Numeral} {n : Nat} {rest r : Text} (hrest : EndsNumber rest) :
    readNumber (m.text ++ rest) = .ok (.natural n, r)
      ↔ (m = .natural n ∧ n < integerBound) ∧ r = rest := by
  constructor
  · intro h
    rw [readNumber_text, readUnsigned_decimal_append _ _ (m.any_isDigit_head?_tail hrest)] at h
    obtain ⟨hfraction, hpower, hsign, hleft, hn, hr⟩ := readBehind_tail hrest h
    have hlt := lt_of_takeDigits_decimal (by decide) hleft
    rw [takeDigits_decimal hlt] at hn
    subst hn
    obtain ⟨sign, whole, fraction, power⟩ := m
    simp only at hfraction hpower hsign
    subst hfraction hpower hsign
    exact ⟨⟨rfl, hlt⟩, hr⟩
  · rintro ⟨⟨rfl, hn⟩, rfl⟩
    have htext : (Numeral.natural n).text = Text.decimal n := by
      simp [Numeral.text, Numeral.natural, Numeral.tail]
    rw [htext, readNumber_decimal hn hrest]

end DumpMode.Json
