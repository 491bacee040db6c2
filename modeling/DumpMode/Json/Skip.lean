import DumpMode.Json.Number

/-!
# Passing values of JSON

A value that nobody asked for is passed: it must be well formed, but what it says does not matter.
The brackets that are still open are kept on a list, so values may be nested to any depth.
-/

namespace DumpMode.Json

inductive Bracket where
  | array
  | object
deriving DecidableEq, Repr

def Bracket.closer : Bracket → Char
  | .array => ']'
  | .object => '\x7d'

/-- Passes the start of a value: a whole value, or a bracket that is open then. -/
def skipStart (text : Text) : Except Fault (Option Bracket × Text) :=
  match skipBlank text with
  | [] => .error .ended
  | 'n' :: rest => (expect ['u', 'l', 'l'] rest).map fun r ↦ (none, r)
  | 't' :: rest => (expect ['r', 'u', 'e'] rest).map fun r ↦ (none, r)
  | 'f' :: rest => (expect ['a', 'l', 's', 'e'] rest).map fun r ↦ (none, r)
  | '"' :: rest => (skipString rest).map fun r ↦ (none, r)
  | '[' :: rest => .ok (some .array, rest)
  | '\x7b' :: rest => .ok (some .object, rest)
  | c :: rest =>
    if c = '-' ∨ c.isDigit then (skipNumber (c :: rest)).map fun r ↦ (none, r)
    else .error .malformed

def skipName (text : Text) : Except Fault Text :=
  match skipBlank text with
  | [] => .error .ended
  | '"' :: rest =>
    match skipString rest with
    | .error f => .error f
    | .ok rest =>
      match skipBlank rest with
      | [] => .error .ended
      | ':' :: rest => .ok rest
      | _ => .error .malformed
  | _ => .error .malformed

/-- Passes what stands before a value inside a bracket: the name of a member, or nothing. -/
def skipLabel (b : Bracket) (text : Text) : Except Fault Text :=
  match b with
  | .array => .ok text
  | .object => skipName text

private theorem length_map {x : Except Fault Text} {b : Option Bracket} {rest text : Text}
    (h : (x.map fun r ↦ ((none : Option Bracket), r)) = .ok (b, rest))
    (hx : ∀ r, x = .ok r → r.length < text.length) : rest.length < text.length := by
  cases x with
  | error f => simp [Except.map] at h
  | ok r =>
    simp only [Except.map, Except.ok.injEq, Prod.mk.injEq] at h
    exact h.2 ▸ hx r rfl

private theorem length_of_skipStart {text rest : Text} {b : Option Bracket}
    (h : skipStart text = .ok (b, rest)) : rest.length < text.length := by
  have hle := length_skipBlank_le text
  refine Nat.lt_of_lt_of_le ?_ hle
  unfold skipStart at h
  split at h
  · simp at h
  iterate 3
    rename_i heq
    rw [heq]
    refine length_map h fun r hr ↦ ?_
    have := length_of_expect hr
    simp only [List.length_cons] at this ⊢
    omega
  · rename_i heq
    rw [heq]
    refine length_map h fun r hr ↦ ?_
    have := length_of_skipString hr
    simp only [List.length_cons]
    omega
  · rename_i heq
    simp only [Except.ok.injEq, Prod.mk.injEq] at h
    simp [heq, ← h.2]
  · rename_i heq
    simp only [Except.ok.injEq, Prod.mk.injEq] at h
    simp [heq, ← h.2]
  · rename_i heq
    rw [heq]
    split at h
    · exact length_map h fun r hr ↦ length_of_skipNumber hr
    · simp at h

private theorem length_of_skipName {text rest : Text} (h : skipName text = .ok rest) :
    rest.length < text.length := by
  have hle := length_skipBlank_le text
  unfold skipName at h
  split at h
  · simp at h
  · rename_i heq
    split at h
    · simp at h
    · rename_i rest' hs
      have h₁ := length_of_skipString hs
      have h₂ := length_skipBlank_le rest'
      split at h
      · simp at h
      · rename_i heq'
        simp only [Except.ok.injEq] at h
        rw [heq, List.length_cons] at hle
        rw [heq', List.length_cons, h] at h₂
        omega
      · simp at h
  · simp at h

private theorem length_of_skipLabel {b : Bracket} {text rest : Text}
    (h : skipLabel b text = .ok rest) : rest.length ≤ text.length := by
  cases b with
  | array =>
    simp only [skipLabel, Except.ok.injEq] at h
    simp [h]
  | object => exact Nat.le_of_lt (length_of_skipName h)

mutual

/-- Passes a value inside the brackets that are open, the innermost first, and what is needed to
close them. -/
def skipInside (enclosing : List Bracket) (text : Text) : Except Fault Text :=
  match _h : skipStart text with
  | .error f => .error f
  | .ok (none, rest) => skipBehindValue enclosing rest
  | .ok (some b, rest) =>
    match _hb : skipBlank rest with
    | [] => .error .ended
    | c :: tail =>
      if c = b.closer then skipBehindValue enclosing tail
      else
        match _hl : skipLabel b (c :: tail) with
        | .error f => .error f
        | .ok inner => skipInside (b :: enclosing) inner
termination_by text.length
decreasing_by
  · exact length_of_skipStart _h
  · have h₁ := length_of_skipStart _h
    have h₂ := length_skipBlank_le rest
    rw [_hb, List.length_cons] at h₂
    omega
  · have h₁ := length_of_skipStart _h
    have h₂ := length_skipBlank_le rest
    have h₃ := length_of_skipLabel _hl
    rw [← _hb] at h₃
    omega

/-- Passes what follows a value inside the brackets that are open. -/
def skipBehindValue (enclosing : List Bracket) (text : Text) : Except Fault Text :=
  match enclosing with
  | [] => .ok text
  | b :: outer =>
    match _hb : skipBlank text with
    | [] => .error .ended
    | c :: rest =>
      if c = b.closer then skipBehindValue outer rest
      else if c = ',' then
        match _hl : skipLabel b rest with
        | .error f => .error f
        | .ok rest => skipInside (b :: outer) rest
      else .error .malformed
termination_by text.length
decreasing_by
  · have h := length_skipBlank_le text
    rw [_hb, List.length_cons] at h
    omega
  · have h₁ := length_skipBlank_le text
    have h₂ := length_of_skipLabel _hl
    rw [_hb, List.length_cons] at h₁
    omega

end

def skipValue (text : Text) : Except Fault Text := skipInside [] text

end DumpMode.Json
