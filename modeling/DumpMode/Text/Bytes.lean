/-!
# Texts measured in bytes

A text is a list of characters, and its places are numbered by the bytes of its UTF-8 form. An
offset is therefore any natural number: it may lie past the end of the text or inside a character,
and cutting a text there fails. `splitBytes?` is the one function that walks a text by bytes;
`splitBytes?_eq_some_iff` says that it succeeds exactly at the boundaries between characters, and
everything else here is read off it.
-/

namespace DumpMode

/-- A text, as the sequence of its characters. -/
abbrev Text := List Char

namespace Text

/-! ## Length -/

/-- The number of bytes in the UTF-8 form of a text. -/
def byteLength (text : Text) : Nat := text.foldr (fun c n ↦ c.utf8Size + n) 0

@[simp] theorem byteLength_nil : byteLength [] = 0 := rfl

@[simp] theorem byteLength_cons (c : Char) (text : Text) :
    byteLength (c :: text) = c.utf8Size + byteLength text := rfl

@[simp] theorem byteLength_append (front back : Text) :
    byteLength (front ++ back) = byteLength front + byteLength back := by
  induction front with
  | nil => simp
  | cons c front ih => simp [ih, Nat.add_assoc]

theorem byteLength_eq_zero_iff {text : Text} : byteLength text = 0 ↔ text = [] := by
  cases text with
  | nil => simp
  | cons c text =>
    have := c.utf8Size_pos
    simp only [byteLength_cons, reduceCtorEq, iff_false]
    omega

/-! ## Cutting -/

/-- The two parts of a text before and behind a byte offset, if there is a boundary between
characters. -/
def splitBytes? (offset : Nat) (text : Text) : Option (Text × Text) := go offset [] text
where
  /-- Walks over the text; `front` holds the characters passed, the latest first. -/
  go : Nat → Text → Text → Option (Text × Text)
    | 0, front, rest => some (front.reverse, rest)
    | _ + 1, _, [] => none
    | n + 1, front, c :: rest =>
      if c.utf8Size ≤ n + 1 then go (n + 1 - c.utf8Size) (c :: front) rest else none

private theorem splitBytes?_go_iff {n : Nat} {front rest p s : Text} :
    splitBytes?.go n front rest = some (p, s) ↔
      ∃ q, p = front.reverse ++ q ∧ rest = q ++ s ∧ byteLength q = n := by
  fun_induction splitBytes?.go n front rest with
  | case1 front rest =>
    constructor
    · intro h
      obtain ⟨rfl, rfl⟩ := Prod.mk.inj (Option.some.inj h)
      exact ⟨[], by simp, rfl, rfl⟩
    · rintro ⟨q, rfl, rfl, hn⟩
      rw [byteLength_eq_zero_iff.mp hn, List.append_nil, List.nil_append]
  | case2 n front =>
    simp only [reduceCtorEq, false_iff]
    rintro ⟨q, -, hq, hn⟩
    obtain ⟨rfl, -⟩ := List.append_eq_nil_iff.mp hq.symm
    cases hn
  | case3 n front c rest hle ih =>
    rw [ih]
    clear ih
    constructor
    · rintro ⟨q, rfl, rfl, hq⟩
      have hsize : byteLength (c :: q) = n + 1 := by
        rw [byteLength_cons]
        omega
      exact ⟨c :: q, by simp, rfl, hsize⟩
    · rintro ⟨q, rfl, hq, hn⟩
      -- bytes are still to be filled, so `q` begins with the character that is passed
      cases q with
      | nil => cases hn
      | cons d q =>
        obtain ⟨rfl, rfl⟩ := List.cons.inj hq
        rw [byteLength_cons] at hn
        exact ⟨q, by simp, rfl, by omega⟩
  | case4 n front c rest hlt =>
    simp only [reduceCtorEq, false_iff]
    rintro ⟨q, -, hq, hn⟩
    -- the character is too large for what is still to be filled
    cases q with
    | nil => cases hn
    | cons d q =>
      obtain ⟨rfl, rfl⟩ := List.cons.inj hq
      rw [byteLength_cons] at hn
      omega

/-- A text is cut at an offset exactly where a whole number of its characters fills the bytes
before it. -/
theorem splitBytes?_eq_some_iff {offset : Nat} {text p s : Text} :
    splitBytes? offset text = some (p, s) ↔ text = p ++ s ∧ byteLength p = offset := by
  rw [splitBytes?, splitBytes?_go_iff]
  simp

/-- Whether an offset lies between two characters of a text, or at either end. -/
def isBoundary (offset : Nat) (text : Text) : Bool := (splitBytes? offset text).isSome

theorem isBoundary_iff {offset : Nat} {text : Text} :
    isBoundary offset text = true ↔ ∃ p s, text = p ++ s ∧ byteLength p = offset := by
  simp [isBoundary, Option.isSome_iff_exists, splitBytes?_eq_some_iff]

/-- The part of a text between two byte offsets; none if the first is behind the second, or one of
them is past the end or inside a character. -/
def slice? (text : Text) (start stop : Nat) : Option Text :=
  if start ≤ stop then
    (splitBytes? start text).bind fun (_, rest) ↦
      (splitBytes? (stop - start) rest).map Prod.fst
  else none

theorem slice?_eq_some_iff {text m : Text} {start stop : Nat} :
    slice? text start stop = some m ↔
      ∃ p s, text = p ++ (m ++ s) ∧ byteLength p = start ∧ start + byteLength m = stop := by
  unfold slice?
  split
  · rename_i hle
    simp only [Option.bind_eq_some_iff, Option.map_eq_some_iff, Prod.exists,
      splitBytes?_eq_some_iff]
    constructor
    · rintro ⟨p, r, ⟨rfl, rfl⟩, m', s, ⟨rfl, hm⟩, rfl⟩
      exact ⟨p, s, rfl, rfl, by omega⟩
    · rintro ⟨p, s, rfl, rfl, rfl⟩
      exact ⟨p, m ++ s, ⟨rfl, rfl⟩, m, s, ⟨rfl, by omega⟩, rfl⟩
  · rename_i hlt
    simp only [reduceCtorEq, false_iff]
    rintro ⟨p, s, -, -, rfl⟩
    omega

end Text

end DumpMode
