import DumpMode.Json.Skip
import DumpMode.Json.Tree
import DumpMode.Proofs.Json.Lexical

/-!
# Every tree is passed

A value that nobody asked for is passed as a whole, whatever it holds: behind it, passing stands
where it would stand without it (`skipInside_tree`). The proof follows the tree. Items and members
have a lemma each, since behind a value a list goes on with a comma or ends; both are commas and
brackets to what is passed before them, so a number in front of them ends there.
-/

namespace DumpMode.Json

/-! ## Blanks -/

private theorem Blank.isBlank_char (b : Blank) : isBlank b.char = true := by cases b <;> rfl

@[simp] theorem skipBlank_gap (g : Gap) (text : Text) :
    skipBlank (g.text ++ text) = skipBlank text := by
  refine List.dropWhile_append_of_pos fun c hc ↦ ?_
  obtain ⟨b, -, rfl⟩ := List.mem_map.mp hc
  exact b.isBlank_char

theorem endsNumber_gap (g : Gap) {rest : Text} (h : EndsNumber rest) :
    EndsNumber (g.text ++ rest) := by
  cases g with
  | nil => exact h
  | cons b g =>
    rintro _ ⟨⟩
    cases b <;> decide

theorem endsNumber_itemsText (items : List (Padded Tree)) (rest : Text) :
    EndsNumber (itemsText items ++ rest) := by
  rcases items with _ | ⟨⟨before, v, after⟩, items⟩
  · exact endsNumber_cons (Or.inr (Or.inl rfl)) _
  · exact endsNumber_cons (Or.inl rfl) _

theorem endsNumber_membersText (members : List (Member Tree)) (rest : Text) :
    EndsNumber (membersText members ++ rest) := by
  rcases members with _ | ⟨⟨name, ⟨before, v, after⟩⟩, members⟩
  · exact endsNumber_cons (Or.inr (Or.inr rfl)) _
  · exact endsNumber_cons (Or.inl rfl) _

/-! ## Numbers -/

namespace Digits

variable (d : Digits)

private theorem isDigit_of_mem {c : Char} (h : c ∈ d.text) : c.isDigit = true := by
  obtain ⟨v, -, rfl⟩ := List.mem_map.mp h
  exact (Text.isDigit_of_decimalDigit? (Text.decimalDigit?_digit v.isLt)).1

private theorem any_isDigit_head? (rest : Text) : (d.text ++ rest).head?.any Char.isDigit = true :=
  d.isDigit_of_mem List.mem_cons_self

end Digits

private theorem skipSign_signText (p : Power) (rest : Text) :
    skipSign (p.signText ++ (p.digits.text ++ rest)) = p.digits.text ++ rest := by
  obtain ⟨capital, _ | _ | _, d⟩ := p
  · have hhead := d.any_isDigit_head? rest
    simp only [Power.signText, List.nil_append]
    unfold skipSign
    split
    · simp_all
    · simp_all
    · rfl
  · rfl
  · rfl

private theorem skipPower_text (p : Power) {rest : Text} (h : EndsNumber rest) :
    skipPower (p.signText ++ (p.digits.text ++ rest)) = .ok rest := by
  simp only [skipPower, skipSign_signText, p.digits.any_isDigit_head?, if_true,
    dropWhile_isDigit_append (fun _ ↦ p.digits.isDigit_of_mem) h.any_isDigit]

private theorem Power.any_isDigit_head?_text (p : Power) (rest : Text) :
    (p.text ++ rest).head?.any Char.isDigit = false := by
  rcases p with ⟨_ | _, sign, d⟩ <;> rfl

private theorem skipBehind_power (p : Power) {rest : Text} (h : EndsNumber rest) :
    skipBehind (p.text ++ rest) = .ok rest := by
  have hpower := skipPower_text p h
  rw [Power.text, List.cons_append, List.append_assoc]
  by_cases hc : p.capital = true
  · rw [if_pos hc]
    exact hpower
  · rw [if_neg hc]
    exact hpower

private theorem skipBehind_of_endsNumber {rest : Text} (h : EndsNumber rest) :
    skipBehind rest = .ok rest := by
  unfold skipBehind
  split
  · exact absurd rfl (h _ rfl).2.1
  · exact absurd rfl (h _ rfl).2.2.1
  · exact absurd rfl (h _ rfl).2.2.2
  · rfl

/-- Behind a point and its digits, a number goes on as it does without them, but for a second
point. -/
private theorem skipBehind_point (d : Digits) {rest : Text}
    (hdigit : rest.head?.any Char.isDigit = false) (hpoint : rest.head? ≠ some '.') :
    skipBehind ('.' :: (d.text ++ rest)) = skipBehind rest := by
  rw [skipBehind, if_pos (d.any_isDigit_head? rest),
    dropWhile_isDigit_append (fun _ ↦ d.isDigit_of_mem) hdigit]
  split
  · rfl
  · rfl
  · rename_i hsmall hcapital
    unfold skipBehind
    split
    · exact absurd rfl hpoint
    · exact absurd rfl (hsmall _)
    · exact absurd rfl (hcapital _)
    · rfl

namespace Numeral

private theorem skipBehind_tail (n : Numeral) {rest : Text} (h : EndsNumber rest) :
    skipBehind (n.tail ++ rest) = .ok rest := by
  obtain ⟨negative, whole, _ | d, _ | p⟩ := n
  · exact skipBehind_of_endsNumber h
  · exact skipBehind_power p h
  · simp only [tail, Option.elim, List.append_nil, List.cons_append]
    rw [skipBehind_point d h.any_isDigit fun hc ↦ (h _ hc).2.1 rfl]
    exact skipBehind_of_endsNumber h
  · simp only [tail, Option.elim, List.cons_append, List.append_assoc]
    rw [skipBehind_point d (p.any_isDigit_head?_text rest) ?_]
    · exact skipBehind_power p h
    · rcases p with ⟨_ | _, sign, d⟩ <;> exact fun h ↦ nomatch h

theorem any_isDigit_head?_tail (n : Numeral) {rest : Text} (h : EndsNumber rest) :
    (n.tail ++ rest).head?.any Char.isDigit = false := by
  obtain ⟨negative, whole, _ | d, _ | p⟩ := n
  · exact h.any_isDigit
  · exact p.any_isDigit_head?_text rest
  · rfl
  · rfl

private theorem skipUnsigned_text (n : Numeral) {rest : Text} (h : EndsNumber rest) :
    skipUnsigned (Text.decimal n.whole ++ (n.tail ++ rest)) = .ok rest := by
  obtain ⟨c, digits, hn, hc⟩ := Text.exists_decimal_eq_cons n.whole
  have hzero := Text.head?_decimal_eq_zero_iff (n := n.whole)
  rw [hn, List.head?_cons, Option.some.injEq] at hzero
  have hdigits : ∀ c ∈ digits, c.isDigit = true := fun c hc ↦
    Text.isDigit_of_mem_decimal (n := n.whole) (hn ▸ List.mem_cons_of_mem _ hc)
  have htail := n.any_isDigit_head?_tail h
  rw [hn, List.cons_append]
  unfold skipUnsigned
  split
  · -- a zero in front is the only digit
    rename_i heq
    obtain ⟨rfl, rfl⟩ := List.cons.inj heq
    rw [hzero.mp rfl, Text.decimal_zero] at hn
    obtain rfl := (List.cons.inj hn).2
    rw [List.nil_append, htail]
    exact n.skipBehind_tail h
  · rename_i heq
    obtain ⟨rfl, rfl⟩ := List.cons.inj heq
    rw [if_pos hc, dropWhile_isDigit_append hdigits htail]
    exact n.skipBehind_tail h
  · rename_i heq
    cases heq

/-- **A number is passed** in whatever form it is written. -/
theorem skipNumber_text (n : Numeral) {rest : Text} (h : EndsNumber rest) :
    skipNumber (n.text ++ rest) = .ok rest := by
  have hunsigned := n.skipUnsigned_text h
  obtain ⟨c, digits, hn, hc⟩ := Text.exists_decimal_eq_cons n.whole
  rw [text, List.append_assoc, List.append_assoc]
  by_cases hneg : n.negative = true
  · rw [if_pos hneg]
    exact hunsigned
  · rw [if_neg hneg, List.nil_append]
    rw [hn, List.cons_append] at hunsigned ⊢
    unfold skipNumber
    split
    · rename_i heq
      obtain ⟨rfl, -⟩ := List.cons.inj heq
      cases hc
    · exact hunsigned

theorem exists_text_eq_cons (n : Numeral) :
    ∃ c tail, n.text = c :: tail ∧ (c = '-' ∨ c.isDigit = true) := by
  obtain ⟨c, digits, hn, hc⟩ := Text.exists_decimal_eq_cons n.whole
  rw [text, hn]
  by_cases hneg : n.negative = true
  · rw [if_pos hneg]
    exact ⟨_, _, rfl, Or.inl rfl⟩
  · rw [if_neg hneg]
    exact ⟨_, _, rfl, Or.inr hc⟩

theorem text_append_ne_cons (n : Numeral) {c : Char} (h : ¬(c = '-' ∨ c.isDigit = true))
    (rest tail : Text) : n.text ++ rest ≠ c :: tail := by
  obtain ⟨b, digits, hn, hb⟩ := n.exists_text_eq_cons
  intro heq
  rw [hn] at heq
  exact h ((List.cons.inj heq).1 ▸ hb)

end Numeral

/-! ## Strings -/

theorem readHex4_digits (a b c d : HexDigit) (rest : Text) :
    readHex4 (a.char :: b.char :: c.char :: d.char :: rest)
      = .ok (Letter.number a b c d, rest) := by
  simp only [readHex4, a.value_eq, b.value_eq, c.value_eq, d.value_eq, Letter.number]

private theorem skipString_backslash {text rest : Text} (h : skipEscape text = .ok rest) :
    skipString ('\\' :: text) = skipString rest := by
  rw [skipString]
  split
  · rename_i heq
    cases h.symm.trans heq
  · rename_i heq
    rw [Except.ok.inj (h.symm.trans heq)]

/-- **One step**: a letter is passed. -/
private theorem skipString_letter (l : Letter) (rest : Text) :
    skipString (l.text ++ rest) = skipString rest := by
  cases l with
  | plain c hquote hslash hcontrol =>
    rw [Letter.text, List.cons_append, List.nil_append, skipString]
    · rw [if_neg hcontrol]
    · exact hquote
    · exact hslash
  | short e => cases e <;> exact skipString_backslash rfl
  | code a b c d =>
    have hescape : skipEscape ('u' :: a.char :: b.char :: c.char :: d.char :: rest) = .ok rest := by
      rw [skipEscape, readHex4_digits]
      rfl
    exact skipString_backslash hescape

private theorem skipString_letters (letters : List Letter) (rest : Text) :
    skipString (letters.flatMap Letter.text ++ '"' :: rest) = .ok rest := by
  induction letters with
  | nil => rw [List.flatMap_nil, List.nil_append, skipString]
  | cons l letters ih => rw [List.flatMap_cons, List.append_assoc, skipString_letter, ih]

theorem quoted_append (letters : List Letter) (rest : Text) :
    quoted letters ++ rest = '"' :: (letters.flatMap Letter.text ++ '"' :: rest) := by
  rw [quoted, List.cons_append, List.append_assoc]
  rfl

/-! ## Trees -/

section Texts

variable (gap before after : Gap) (v : Tree) (name : Padded (List Letter)) (rest : Text)

theorem text_array_nil_append :
    (Tree.array gap []).text ++ rest = '[' :: (gap.text ++ ']' :: rest) := by
  rw [Tree.text, List.cons_append, List.append_assoc]
  rfl

theorem text_array_cons_append (items : List (Padded Tree)) :
    (Tree.array gap (⟨before, v, after⟩ :: items)).text ++ rest = '[' :: (gap.text ++
      (before.text ++ (v.text ++ (after.text ++ (itemsText items ++ rest))))) := by
  simp only [Tree.text, List.cons_append, List.append_assoc]

theorem text_object_nil_append :
    (Tree.object gap []).text ++ rest = '\x7b' :: (gap.text ++ '\x7d' :: rest) := by
  rw [Tree.text, List.cons_append, List.append_assoc]
  rfl

theorem text_object_cons_append (members : List (Member Tree)) :
    (Tree.object gap (⟨name, ⟨before, v, after⟩⟩ :: members)).text ++ rest =
      '\x7b' :: (gap.text ++ (name.before.text ++ (quoted name.value ++ (name.after.text ++
        ':' :: (before.text ++ (v.text ++ (after.text ++ (membersText members ++ rest)))))))) := by
  simp only [Tree.text, List.cons_append, List.append_assoc]

theorem itemsText_cons_append (items : List (Padded Tree)) :
    itemsText (⟨before, v, after⟩ :: items) ++ rest =
      ',' :: (before.text ++ (v.text ++ (after.text ++ (itemsText items ++ rest)))) := by
  simp only [itemsText, List.cons_append, List.append_assoc]

theorem membersText_cons_append (members : List (Member Tree)) :
    membersText (⟨name, ⟨before, v, after⟩⟩ :: members) ++ rest =
      ',' :: (name.before.text ++ (quoted name.value ++ (name.after.text ++
        ':' :: (before.text ++ (v.text ++ (after.text ++ (membersText members ++ rest))))))) := by
  simp only [membersText, List.cons_append, List.append_assoc]

end Texts

/-- The text of a tree begins with a character that is neither blank nor the end of an array. -/
theorem Tree.exists_text_eq_cons (t : Tree) :
    ∃ c tail, t.text = c :: tail ∧ isBlank c = false ∧ c ≠ ']' := by
  cases t with
  | null => exact ⟨_, _, by rw [text], by decide, by decide⟩
  | boolean b => cases b <;> exact ⟨_, _, by rw [text], by decide, by decide⟩
  | number n =>
    obtain ⟨c, tail, hn, hc⟩ := n.exists_text_eq_cons
    refine ⟨c, tail, by rw [text, hn], ?_, ?_⟩
    · rcases hc with rfl | hc
      · rfl
      · exact isBlank_of_isDigit hc
    · rintro rfl
      rcases hc with hc | hc <;> cases hc
  | string letters => exact ⟨_, _, by rw [text, quoted], by decide, by decide⟩
  | array gap items =>
    rcases items with _ | ⟨⟨before, v, after⟩, items⟩ <;>
      exact ⟨_, _, by rw [text], by decide, by decide⟩
  | object gap members =>
    rcases members with _ | ⟨⟨name, ⟨before, v, after⟩⟩, members⟩ <;>
      exact ⟨_, _, by rw [text], by decide, by decide⟩

theorem skipBlank_tree (t : Tree) (rest : Text) :
    skipBlank (t.text ++ rest) = t.text ++ rest := by
  obtain ⟨c, tail, ht, hc, -⟩ := t.exists_text_eq_cons
  rw [ht, List.cons_append, skipBlank_cons hc]

section Steps

variable {enclosing : List Bracket} {b : Bracket} {text rest inner : Text} {c : Char}

private theorem skipInside_whole (h : skipStart text = .ok (none, rest)) :
    skipInside enclosing text = skipBehindValue enclosing rest := by
  rw [skipInside]
  split <;> simp_all

private theorem skipInside_bracket (h : skipStart text = .ok (some b, rest))
    (hrest : skipBlank rest = c :: inner) :
    skipInside enclosing text =
      if c = b.closer then skipBehindValue enclosing inner
      else (skipLabel b (c :: inner)).bind (skipInside (b :: enclosing)) := by
  rw [skipInside]
  split
  · rename_i heq
    cases h.symm.trans heq
  · rename_i heq
    cases h.symm.trans heq
  · rename_i heq
    obtain ⟨⟨⟩, rfl⟩ := Prod.mk.inj (Except.ok.inj (h.symm.trans heq))
    split
    · rename_i heq
      cases hrest.symm.trans heq
    · rename_i heq
      obtain ⟨rfl, rfl⟩ := List.cons.inj (hrest.symm.trans heq)
      congr 1
      split <;> simp_all [Except.bind]

private theorem skipBehindValue_closer (h : skipBlank text = b.closer :: rest) :
    skipBehindValue (b :: enclosing) text = skipBehindValue enclosing rest := by
  rw [skipBehindValue]
  split <;> simp_all

private theorem skipBehindValue_comma (h : skipBlank text = ',' :: rest)
    (hlabel : skipLabel b rest = .ok inner) :
    skipBehindValue (b :: enclosing) text = skipInside (b :: enclosing) inner := by
  have hc : ',' ≠ b.closer := by cases b <;> decide
  rw [skipBehindValue]
  split
  · rename_i heq
    cases h.symm.trans heq
  · rename_i heq
    obtain ⟨rfl, rfl⟩ := List.cons.inj (h.symm.trans heq)
    rw [if_neg hc, if_pos rfl]
    split <;> simp_all

end Steps

private theorem skipName_text (name : Padded (List Letter)) (rest : Text) :
    skipName (name.before.text ++ (quoted name.value ++ (name.after.text ++ ':' :: rest)))
      = .ok rest := by
  simp only [skipName, skipBlank_gap, quoted_append, skipBlank_cons (rfl : isBlank '"' = false),
    skipString_letters, skipBlank_cons (rfl : isBlank ':' = false)]

private theorem skipStart_gap (g : Gap) (text : Text) :
    skipStart (g.text ++ text) = skipStart text := by
  simp only [skipStart, skipBlank_gap]

private theorem skipStart_number (n : Numeral) {rest : Text} (h : EndsNumber rest) :
    skipStart (n.text ++ rest) = .ok (none, rest) := by
  have hskip := n.skipNumber_text h
  have hblank := skipBlank_tree (.number n) rest
  obtain ⟨c, tail, hn, hc⟩ := n.exists_text_eq_cons
  rw [Tree.text] at hblank
  rw [hn, List.cons_append] at hskip hblank ⊢
  unfold skipStart
  rw [hblank]
  split
  -- no other kind of value begins with a sign or a digit
  iterate 7
    rename_i heq
    cases heq
    try exact absurd hc (by decide)
  · rename_i heq
    obtain ⟨rfl, rfl⟩ := List.cons.inj heq
    rw [if_pos hc, hskip]
    rfl

private theorem skipStart_string (letters : List Letter) (rest : Text) :
    skipStart (quoted letters ++ rest) = .ok (none, rest) := by
  simp only [skipStart, quoted_append, skipBlank_cons (rfl : isBlank '"' = false),
    skipString_letters]
  rfl

/-- **One step**: the bracket in front of the first item of an array. -/
private theorem skipInside_array (t : Tree) {enclosing : List Bracket} {text rest tail : Text}
    (hstart : skipStart text = .ok (some .array, rest)) (hrest : skipBlank rest = t.text ++ tail) :
    skipInside enclosing text = skipInside (.array :: enclosing) (t.text ++ tail) := by
  obtain ⟨c, tail', ht, -, hc⟩ := t.exists_text_eq_cons
  rw [ht, List.cons_append] at hrest ⊢
  exact (skipInside_bracket hstart hrest).trans (if_neg hc)

/-- **One step**: the bracket in front of the first member of an object, and its name. -/
private theorem skipInside_object (name : Padded (List Letter)) {enclosing : List Bracket}
    {text rest tail : Text} (hstart : skipStart text = .ok (some .object, rest))
    (hrest : skipBlank rest = quoted name.value ++ (name.after.text ++ ':' :: tail)) :
    skipInside enclosing text = skipInside (.object :: enclosing) tail := by
  have hname : skipName (quoted name.value ++ (name.after.text ++ ':' :: tail)) = .ok tail :=
    skipName_text ⟨[], name.value, name.after⟩ tail
  rw [quoted_append] at hrest hname
  rw [skipInside_bracket hstart hrest, if_neg (by decide), skipLabel, hname]
  rfl

mutual

/-- **Passing a tree** leads to where passing goes on behind it, in every bracket. -/
theorem skipInside_tree (t : Tree) (g : Gap) (enclosing : List Bracket) {rest : Text}
    (h : EndsNumber rest) :
    skipInside enclosing (g.text ++ (t.text ++ rest)) = skipBehindValue enclosing rest := by
  match t with
  | .null => exact skipInside_whole (by rw [skipStart_gap, Tree.text]; rfl)
  | .boolean true => exact skipInside_whole (by rw [skipStart_gap, Tree.text]; rfl)
  | .boolean false => exact skipInside_whole (by rw [skipStart_gap, Tree.text]; rfl)
  | .number n => exact skipInside_whole (by rw [skipStart_gap, Tree.text, skipStart_number n h])
  | .string letters => exact skipInside_whole (by rw [skipStart_gap, Tree.text, skipStart_string])
  | .array gap [] =>
    rw [text_array_nil_append,
      skipInside_bracket (by rw [skipStart_gap]; rfl) (skipBlank_gap gap _)]
    rfl
  | .array gap (⟨before, v, after⟩ :: items) =>
    have hends := endsNumber_gap after (endsNumber_itemsText items rest)
    rw [text_array_cons_append, skipInside_array v (by rw [skipStart_gap]; rfl)
      (by rw [skipBlank_gap, skipBlank_gap, skipBlank_tree])]
    exact (skipInside_tree v [] _ hends).trans (skipBehindValue_items items after enclosing rest)
  | .object gap [] =>
    rw [text_object_nil_append, skipInside_bracket (by rw [skipStart_gap]; rfl)
      (skipBlank_gap gap _)]
    rfl
  | .object gap (⟨name, ⟨before, v, after⟩⟩ :: members) =>
    have hends := endsNumber_gap after (endsNumber_membersText members rest)
    rw [text_object_cons_append, skipInside_object name (by rw [skipStart_gap]; rfl)
      (by rw [skipBlank_gap, skipBlank_gap, quoted_append]; rfl)]
    exact (skipInside_tree v before _ hends).trans
      (skipBehindValue_members members after enclosing rest)

private theorem skipBehindValue_items (items : List (Padded Tree)) (g : Gap)
    (enclosing : List Bracket) (rest : Text) :
    skipBehindValue (.array :: enclosing) (g.text ++ (itemsText items ++ rest))
      = skipBehindValue enclosing rest := by
  match items with
  | [] => exact skipBehindValue_closer (by rw [skipBlank_gap, itemsText]; rfl)
  | ⟨before, v, after⟩ :: items =>
    have hends := endsNumber_gap after (endsNumber_itemsText items rest)
    rw [itemsText_cons_append, skipBehindValue_comma (by rw [skipBlank_gap]; rfl) rfl]
    exact (skipInside_tree v before _ hends).trans
      (skipBehindValue_items items after enclosing rest)

private theorem skipBehindValue_members (members : List (Member Tree)) (g : Gap)
    (enclosing : List Bracket) (rest : Text) :
    skipBehindValue (.object :: enclosing) (g.text ++ (membersText members ++ rest))
      = skipBehindValue enclosing rest := by
  match members with
  | [] => exact skipBehindValue_closer (by rw [skipBlank_gap, membersText]; rfl)
  | ⟨name, ⟨before, v, after⟩⟩ :: members =>
    have hends := endsNumber_gap after (endsNumber_membersText members rest)
    rw [membersText_cons_append, skipBehindValue_comma (b := .object) (by rw [skipBlank_gap]; rfl)
      (skipName_text name _)]
    exact (skipInside_tree v before _ hends).trans
      (skipBehindValue_members members after enclosing rest)

end

/-- **A value is passed**, whatever it is. -/
theorem skipValue_tree (g : Gap) (t : Tree) {rest : Text} (h : EndsNumber rest) :
    skipValue (g.text ++ (t.text ++ rest)) = .ok rest := by
  rw [skipValue, skipInside_tree t g [] h, skipBehindValue]

end DumpMode.Json
