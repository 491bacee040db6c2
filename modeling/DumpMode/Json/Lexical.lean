import DumpMode.Json.Fault

/-!
# Words, strings and blanks of JSON

The small parts of a JSON text. Each function takes the text from a place on and returns what is
behind the part it passes; the `length` lemmas say that this is shorter. A string can be read, and
then every escape in it must stand for a character, or just be passed, and then escapes need only
be well formed.
-/

namespace DumpMode.Json

/-- Whether a character separates the parts of a text. -/
def isBlank (c : Char) : Bool := c == ' ' || c == '\n' || c == '\t' || c == '\r'

def skipBlank (text : Text) : Text := text.dropWhile isBlank

theorem length_skipBlank_le (text : Text) : (skipBlank text).length ≤ text.length :=
  (List.dropWhile_sublist _).length_le

def expect : Text → Text → Except Fault Text
  | [], text => .ok text
  | _ :: _, [] => .error .ended
  | w :: ws, c :: rest => if c = w then expect ws rest else .error .malformed

theorem length_of_expect {word text rest : Text} (h : expect word text = .ok rest) :
    text.length = word.length + rest.length := by
  fun_induction expect word text with
  | case1 => simp_all
  | case2 => simp at h
  | case3 w ws rest ih =>
    have := ih h
    simp only [List.length_cons]
    omega
  | case4 => simp at h

/-! ## Escapes -/

/-- The number that four hexadecimal digits make. Fewer than four bytes are too few; digits that
are none are a fault of their own. -/
def readHex4 (text : Text) : Except Fault (Nat × Text) :=
  match text with
  | a :: b :: c :: d :: rest =>
    match Text.hexDigit? a, Text.hexDigit? b, Text.hexDigit? c, Text.hexDigit? d with
    | some a, some b, some c, some d => .ok (((a * 16 + b) * 16 + c) * 16 + d, rest)
    | _, _, _, _ => .error .malformed
  | _ => if text.byteLength < 4 then .error .ended else .error .malformed

private theorem length_of_readHex4 {text rest : Text} {n : Nat}
    (h : readHex4 text = .ok (n, rest)) : rest.length < text.length := by
  unfold readHex4 at h
  split at h
  · split at h
    · simp only [Except.ok.injEq, Prod.mk.injEq] at h
      rw [← h.2]
      simp only [List.length_cons]
      omega
    · simp at h
  · split at h <;> simp at h

def escapeLetter? : Char → Option Char
  | '"' => some '"'
  | '\\' => some '\\'
  | '/' => some '/'
  | 'b' => some '\x08'
  | 'f' => some '\x0c'
  | 'n' => some '\n'
  | 'r' => some '\r'
  | 't' => some '\t'
  | _ => none

/-- Whether a number is the first half of a pair that stands for one character. -/
def isLeading (n : Nat) : Bool := 0xD800 ≤ n && n ≤ 0xDBFF

def isTrailing (n : Nat) : Bool := 0xDC00 ≤ n && n ≤ 0xDFFF

/-- The second half of a pair, written as an escape of its own. -/
def readTrailing : Text → Except Fault (Nat × Text)
  | [] | ['\\'] => .error .ended
  | '\\' :: 'u' :: rest =>
    match readHex4 rest with
    | .error f => .error f
    | .ok (n, rest) => if isTrailing n then .ok (n, rest) else .error .malformed
  | _ => .error .malformed

/-- The character that an escape stands for; the text begins behind the backslash. -/
def readEscape : Text → Except Fault (Char × Text)
  | [] => .error .ended
  | 'u' :: rest =>
    match readHex4 rest with
    | .error f => .error f
    | .ok (n, rest) =>
      if isTrailing n then .error .malformed
      else if isLeading n then
        match readTrailing rest with
        | .error f => .error f
        | .ok (m, rest) => .ok (Char.ofNat (0x10000 + (n - 0xD800) * 0x400 + (m - 0xDC00)), rest)
      else .ok (Char.ofNat n, rest)
  | c :: rest =>
    match escapeLetter? c with
    | some e => .ok (e, rest)
    | none => .error .malformed

private theorem length_of_readTrailing {text rest : Text} {n : Nat}
    (h : readTrailing text = .ok (n, rest)) : rest.length < text.length := by
  unfold readTrailing at h
  split at h
  · simp at h
  · simp at h
  · split at h
    · simp at h
    · rename_i hx
      split at h
      · simp only [Except.ok.injEq, Prod.mk.injEq] at h
        have := length_of_readHex4 hx
        rw [← h.2]
        simp only [List.length_cons]
        omega
      · simp at h
  · simp at h

private theorem length_of_readEscape {text rest : Text} {c : Char}
    (h : readEscape text = .ok (c, rest)) : rest.length < text.length := by
  unfold readEscape at h
  split at h
  · simp at h
  · split at h
    · simp at h
    · rename_i hx
      have := length_of_readHex4 hx
      split at h
      · simp at h
      · split at h
        · split at h
          · simp at h
          · rename_i ht
            have := length_of_readTrailing ht
            simp only [Except.ok.injEq, Prod.mk.injEq] at h
            rw [← h.2]
            simp only [List.length_cons]
            omega
        · simp only [Except.ok.injEq, Prod.mk.injEq] at h
          rw [← h.2]
          simp only [List.length_cons]
          omega
  · split at h
    · simp only [Except.ok.injEq, Prod.mk.injEq] at h
      rw [← h.2]
      simp
    · simp at h

/-! ## Strings -/

/-- The characters of a string; the text begins behind the opening quote, and `before` holds the
characters passed, the latest first. -/
def readStringFrom (before : Text) (text : Text) : Except Fault (Text × Text) :=
  match text with
  | [] => .error .ended
  | '"' :: rest => .ok (before.reverse, rest)
  | '\\' :: rest =>
    match _h : readEscape rest with
    | .error f => .error f
    | .ok (c, rest) => readStringFrom (c :: before) rest
  | c :: rest => if c.toNat < 32 then .error .malformed else readStringFrom (c :: before) rest
termination_by text.length
decreasing_by
  · have := length_of_readEscape _h
    simp only [List.length_cons]
    omega
  · simp

def readString (text : Text) : Except Fault (Text × Text) := readStringFrom [] text

def skipEscape : Text → Except Fault Text
  | [] => .error .ended
  | 'u' :: rest => (readHex4 rest).map Prod.snd
  | c :: rest => if (escapeLetter? c).isSome then .ok rest else .error .malformed

private theorem length_of_skipEscape {text rest : Text} (h : skipEscape text = .ok rest) :
    rest.length < text.length := by
  unfold skipEscape at h
  split at h
  · simp at h
  · rename_i tail
    cases hx : readHex4 tail with
    | error f => simp [hx, Except.map] at h
    | ok p =>
      have : p.2.length < tail.length := length_of_readHex4 hx
      simp only [hx, Except.map, Except.ok.injEq] at h
      rw [← h]
      simp only [List.length_cons]
      omega
  · split at h
    · simp only [Except.ok.injEq] at h
      simp [← h]
    · simp at h

def skipString (text : Text) : Except Fault Text :=
  match text with
  | [] => .error .ended
  | '"' :: rest => .ok rest
  | '\\' :: rest =>
    match _h : skipEscape rest with
    | .error f => .error f
    | .ok rest => skipString rest
  | c :: rest => if c.toNat < 32 then .error .malformed else skipString rest
termination_by text.length
decreasing_by
  · have := length_of_skipEscape _h
    simp only [List.length_cons]
    omega
  · simp

theorem length_of_skipString {text rest : Text} (h : skipString text = .ok rest) :
    rest.length < text.length := by
  fun_induction skipString text with
  | case1 => simp at h
  | case2 =>
    simp only [Except.ok.injEq] at h
    simp [← h]
  | case3 => simp at h
  | case4 text rest' hx ih =>
    have h₁ := length_of_skipEscape hx
    have h₂ := ih h
    simp only [List.length_cons]
    omega
  | case5 => simp at h
  | case6 c text _ _ _ ih =>
    have := ih h
    simp only [List.length_cons]
    omega

end DumpMode.Json
