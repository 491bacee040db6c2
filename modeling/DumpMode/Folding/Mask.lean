import DumpMode.Folding.Brace

/-!
# Masked text

A quoted string is a part of the text that begins at a quote outside of every string, and ends at
the first quote behind it that no backslash takes along, or else at the end of the text. The mask
of a text has blanks in place of all its quoted strings, one for each byte, so every other
character keeps its offset. Folding that skips quoted strings is plain folding of the mask.
-/

namespace DumpMode.Folding

/-- The rest of a quoted string, its closing quote included, and the text behind it. The text begins
inside the string. -/
def splitString : Text → Text × Text
  | [] => ([], [])
  | '"' :: rest => (['"'], rest)
  | '\\' :: c :: rest => ('\\' :: c :: (splitString rest).1, (splitString rest).2)
  | c :: rest => (c :: (splitString rest).1, (splitString rest).2)

private theorem splitString_append (text : Text) :
    (splitString text).1 ++ (splitString text).2 = text := by
  fun_induction splitString text with
  | case1 | case2 => rfl
  | case3 c rest ih => simp [ih]
  | case4 c rest _ _ ih => simp [ih]

def blanks (text : Text) : Text := List.replicate text.byteLength ' '

/-- The text with blanks in place of its quoted strings. -/
def mask (text : Text) : Text :=
  match text with
  | [] => []
  | c :: rest =>
    if c = '"' then ' ' :: (blanks (splitString rest).1 ++ mask (splitString rest).2)
    else c :: mask rest
termination_by text.length
decreasing_by
  · have := congrArg List.length (splitString_append rest)
    simp only [List.length_append] at this
    simp only [List.length_cons]
    omega
  · simp

@[simp] theorem mask_nil : mask [] = [] := by rw [mask]

theorem mask_cons_of_ne {c : Char} {rest : Text} (h : c ≠ '"') :
    mask (c :: rest) = c :: mask rest := by
  rw [mask]
  simp [h]

theorem mask_of_not_mem {text : Text} (h : '"' ∉ text) : mask text = text := by
  induction text with
  | nil => simp
  | cons c rest ih =>
    obtain ⟨hc, hrest⟩ := not_or.mp (mt List.mem_cons.mpr h)
    rw [mask_cons_of_ne (Ne.symm hc), ih hrest]

@[simp] theorem byteLength_blanks (text : Text) : (blanks text).byteLength = text.byteLength := by
  unfold blanks
  induction text.byteLength with
  | zero => rfl
  | succ n ih =>
    rw [List.replicate_succ, Text.byteLength_cons, ih]
    exact Nat.add_comm 1 n

end DumpMode.Folding
