import DumpMode.Folding.Mask

/-!
# Quoted strings by their grammar

A quoted string is described here by what it is made of, with no state that is carried from
character to character. `StringBody` is what can stand between two quotes, `EndsOutside` says that
a text consists of whole strings and of characters that are no quotes, and `Masked` relates a text
to the one with blanks in place of its strings. A reading that carries a `Quoting`, and the
function `mask`, are then two ways to compute these: `endsOutside_iff` and `masked_iff`.
-/

namespace DumpMode.Folding

/-! ## Strings and what stands outside of them -/

/-- What can stand between the quotes of a string: any characters, where a quote needs a backslash
that takes it along, and a backslash takes along whatever stands behind it. -/
inductive StringBody : Text → Prop where
  | nil : StringBody []
  | plain {c : Char} {body : Text} (hquote : c ≠ '"') (hslash : c ≠ '\\') (h : StringBody body) :
    StringBody (c :: body)
  /-- A backslash and the character it takes along. -/
  | escape {c : Char} {body : Text} (h : StringBody body) : StringBody ('\\' :: c :: body)

/-- A text of characters that are no quotes and of whole strings, so that what follows it stands
outside of every string. -/
inductive EndsOutside : Text → Prop where
  | nil : EndsOutside []
  /-- A character that begins no string; a backslash is one of them. -/
  | plain {c : Char} {rest : Text} (hquote : c ≠ '"') (h : EndsOutside rest) :
    EndsOutside (c :: rest)
  | string {body rest : Text} (hbody : StringBody body) (h : EndsOutside rest) :
    EndsOutside ('"' :: (body ++ '"' :: rest))

namespace Quoting

def afterText (q : Quoting) (text : Text) : Quoting := text.foldl after q

@[simp] theorem afterText_nil (q : Quoting) : q.afterText [] = q := rfl

@[simp] theorem afterText_cons (q : Quoting) (c : Char) (text : Text) :
    q.afterText (c :: text) = (q.after c).afterText text := rfl

theorem afterText_append (q : Quoting) (front back : Text) :
    q.afterText (front ++ back) = (q.afterText front).afterText back := List.foldl_append

theorem after_outside_of_ne {c : Char} (h : c ≠ '"') : outside.after c = outside := by
  rw [after, if_neg h]

end Quoting

open Quoting

theorem StringBody.afterText_inside {body : Text} (h : StringBody body) :
    inside.afterText body = inside := by
  induction h with
  | nil => rfl
  | plain hquote hslash _ ih =>
    rw [afterText_cons, after, if_neg hslash, if_neg hquote]
    exact ih
  | escape _ ih =>
    rw [afterText_cons, afterText_cons]
    exact ih

private theorem StringBody.afterText_string {body : Text} (h : StringBody body) (rest : Text) :
    outside.afterText ('"' :: (body ++ '"' :: rest)) = outside.afterText rest := by
  rw [afterText_cons, afterText_append]
  change (inside.afterText body).afterText ('"' :: rest) = outside.afterText rest
  rw [h.afterText_inside]
  rfl

/-- What is left of a text, from where the place lies, until it ends outside. Inside a string that
is the rest of its body, a quote, and a text that ends outside. -/
private def Completes : Quoting → Text → Prop
  | .outside, text => EndsOutside text
  | .inside, text => ∃ body rest, text = body ++ '"' :: rest ∧ StringBody body ∧ EndsOutside rest
  | .escaped, text => ∃ c body rest, text = c :: (body ++ '"' :: rest) ∧ StringBody body ∧
      EndsOutside rest

private theorem completes_of_afterText_eq {q : Quoting} {text : Text}
    (h : q.afterText text = outside) : Completes q text := by
  induction text generalizing q with
  | nil => exact (show q = outside from h) ▸ EndsOutside.nil
  | cons c text ih =>
    have hrest : Completes (q.after c) text := ih h
    cases q with
    | outside =>
      by_cases hc : c = '"'
      · subst hc
        -- the quote opens a string, and the induction gives the rest of it
        obtain ⟨body, rest, rfl, hbody, hends⟩ := hrest
        exact .string hbody hends
      · rw [after_outside_of_ne hc] at hrest
        exact .plain hc hrest
    | inside =>
      by_cases hslash : c = '\\'
      · subst hslash
        obtain ⟨d, body, rest, rfl, hbody, hends⟩ := hrest
        exact ⟨'\\' :: d :: body, rest, rfl, .escape hbody, hends⟩
      by_cases hc : c = '"'
      · subst hc
        exact ⟨[], text, rfl, .nil, hrest⟩
      · rw [after, if_neg hslash, if_neg hc] at hrest
        obtain ⟨body, rest, rfl, hbody, hends⟩ := hrest
        exact ⟨c :: body, rest, rfl, .plain hc hslash hbody, hends⟩
    | escaped =>
      obtain ⟨body, rest, rfl, hbody, hends⟩ := hrest
      exact ⟨c, body, rest, rfl, hbody, hends⟩

/-- **Reading and the grammar agree** on which texts end outside of every string. -/
theorem endsOutside_iff {text : Text} : EndsOutside text ↔ outside.afterText text = outside := by
  refine ⟨fun h ↦ ?_, completes_of_afterText_eq⟩
  induction h with
  | nil => rfl
  | plain hquote _ ih => rw [afterText_cons, after_outside_of_ne hquote, ih]
  | string hbody _ ih => rw [hbody.afterText_string, ih]

instance (text : Text) : Decidable (EndsOutside text) := decidable_of_iff _ endsOutside_iff.symm

/-! ## Masks -/

/-- A text and its mask: blanks, one for each byte, in place of each quoted string. A string that
is never closed reaches to the end of the text, and a backslash may be the last character of it. -/
inductive Masked : Text → Text → Prop where
  | nil : Masked [] []
  | plain {c : Char} {rest m : Text} (hquote : c ≠ '"') (h : Masked rest m) :
    Masked (c :: rest) (c :: m)
  | string {body rest m : Text} (hbody : StringBody body) (h : Masked rest m) :
    Masked ('"' :: (body ++ '"' :: rest)) (blanks ('"' :: (body ++ ['"'])) ++ m)
  | unclosed {body : Text} (hbody : StringBody body) : Masked ('"' :: body) (blanks ('"' :: body))
  /-- A string that is never closed, with a backslash at its end that takes nothing along. -/
  | cut {body : Text} (hbody : StringBody body) :
    Masked ('"' :: (body ++ ['\\'])) (blanks ('"' :: (body ++ ['\\'])))

private theorem blanks_quote (text : Text) : blanks ('"' :: text) = ' ' :: blanks text := by
  rw [blanks, Text.byteLength_cons, Nat.add_comm]
  rfl

private theorem mask_quote (rest : Text) :
    mask ('"' :: rest) = blanks ('"' :: (splitString rest).1) ++ mask (splitString rest).2 := by
  rw [mask, if_pos rfl, blanks_quote, List.cons_append]

private theorem splitString_plain {c : Char} {rest : Text} (hquote : c ≠ '"') (hslash : c ≠ '\\') :
    splitString (c :: rest) = (c :: (splitString rest).1, (splitString rest).2) := by
  rw [splitString] <;> simp_all

namespace StringBody

variable {body : Text} (h : StringBody body)

include h

private theorem splitString_append_quote (rest : Text) :
    splitString (body ++ '"' :: rest) = (body ++ ['"'], rest) := by
  induction h with
  | nil => rfl
  | plain hquote hslash _ ih => rw [List.cons_append, splitString_plain hquote hslash, ih]; rfl
  | escape _ ih => rw [List.cons_append, List.cons_append, splitString, ih]; rfl

/-- A body is split off with what is behind it if that is nothing or the start of an escape. -/
private theorem splitString_append_of_unclosed {tail : Text} (htail : tail = [] ∨ tail = ['\\']) :
    splitString (body ++ tail) = (body ++ tail, []) := by
  induction h with
  | nil => rcases htail with rfl | rfl <;> rfl
  | plain hquote hslash _ ih => rw [List.cons_append, splitString_plain hquote hslash, ih]
  | escape _ ih => rw [List.cons_append, List.cons_append, splitString, ih]

end StringBody

/-- Where the rest of a string ends: behind a closing quote, or with the text. -/
private theorem splitString_cases (text : Text) :
    (∃ body, StringBody body ∧ text = body ++ '"' :: (splitString text).2 ∧
      (splitString text).1 = body ++ ['"']) ∨
    (splitString text).2 = [] ∧ ∃ body tail, StringBody body ∧ (tail = [] ∨ tail = ['\\']) ∧
      text = body ++ tail ∧ (splitString text).1 = body ++ tail := by
  fun_induction splitString text with
  | case1 => exact Or.inr ⟨rfl, [], [], .nil, Or.inl rfl, rfl, rfl⟩
  | case2 rest => exact Or.inl ⟨[], .nil, rfl, rfl⟩
  | case3 c rest ih =>
    rcases ih with ⟨body, hbody, htext, hstring⟩ | ⟨hnil, body, tail, hbody, htail, htext, hstring⟩
    · exact Or.inl ⟨'\\' :: c :: body, .escape hbody, congrArg ('\\' :: c :: ·) htext,
        congrArg ('\\' :: c :: ·) hstring⟩
    · exact Or.inr ⟨hnil, '\\' :: c :: body, tail, .escape hbody, htail,
        congrArg ('\\' :: c :: ·) htext, congrArg ('\\' :: c :: ·) hstring⟩
  | case4 c rest hquote hescape ih =>
    by_cases hslash : c = '\\'
    · -- a backslash with nothing behind it
      subst hslash
      cases rest with
      | nil => exact Or.inr ⟨rfl, [], ['\\'], .nil, Or.inr rfl, rfl, rfl⟩
      | cons d rest => exact absurd rfl (hescape d rest rfl)
    rcases ih with ⟨body, hbody, htext, hstring⟩ | ⟨hnil, body, tail, hbody, htail, htext, hstring⟩
    · exact Or.inl ⟨c :: body, .plain hquote hslash hbody, congrArg (c :: ·) htext,
        congrArg (c :: ·) hstring⟩
    · exact Or.inr ⟨hnil, c :: body, tail, .plain hquote hslash hbody, htail,
        congrArg (c :: ·) htext, congrArg (c :: ·) hstring⟩

/-- **The mask is what the grammar says**: each text has one mask, and `mask` computes it. -/
theorem masked_iff {text m : Text} : Masked text m ↔ mask text = m := by
  constructor
  · intro h
    induction h with
    | nil => exact mask_nil
    | plain hquote _ ih => rw [mask_cons_of_ne hquote, ih]
    | string hbody _ ih => rw [mask_quote, hbody.splitString_append_quote, ih]
    | unclosed hbody =>
      have hsplit := hbody.splitString_append_of_unclosed (Or.inl rfl)
      rw [List.append_nil] at hsplit
      rw [mask_quote, hsplit, mask_nil, List.append_nil]
    | cut hbody =>
      rw [mask_quote, hbody.splitString_append_of_unclosed (Or.inr rfl), mask_nil, List.append_nil]
  · rintro rfl
    fun_induction mask text with
    | case1 => exact .nil
    | case2 rest ih =>
      rw [← List.cons_append, ← blanks_quote]
      -- what was split off tells how the string ends
      rcases splitString_cases rest with
        ⟨body, hbody, htext, hstring⟩ | ⟨hnil, body, tail, hbody, htail, htext, hstring⟩
      · have hmasked := Masked.string hbody ih
        rwa [← htext, ← hstring] at hmasked
      · rw [hnil, mask_nil, List.append_nil, hstring, htext]
        rcases htail with rfl | rfl
        · rw [List.append_nil]
          exact .unclosed hbody
        · exact .cut hbody
    | case3 c rest hquote ih => exact .plain hquote ih

end DumpMode.Folding
