import DumpMode.Proofs.LineTexts

/-!
# Columns of all offsets

Between two characters, the column of an offset is one more than the characters of its line that
stand before it. An offset inside a character counts the bytes of its line instead, and these are
more wherever the line has characters of several bytes. So columns may fall where offsets rise:
from an offset inside a character to one behind it. `OrdersOffsets` says that this is the only
place where they fall, and when they do.

An offset and its line cut the text in front of the line (`exists_line`); there both counts are
counts from the start of the line (`charactersOnLine_append`, `bytesOnLine_append`), and what has
to be compared is how many bytes and how many characters of one text lie before two offsets.
-/

namespace DumpMode

namespace Text

/-! ## Whole characters before an offset -/

/-- Whether an offset lies inside a character. -/
def Splits (text : Text) (offset : Nat) : Prop :=
  offset < text.byteLength ∧ text.isBoundary offset = false

instance (text : Text) (offset : Nat) : Decidable (text.Splits offset) :=
  inferInstanceAs (Decidable (_ ∧ _))

/-- The characters of a text that end at an offset or before it. -/
def upTo (offset : Nat) : Text → Text
  | [] => []
  | c :: rest => if c.utf8Size ≤ offset then c :: upTo (offset - c.utf8Size) rest else []

private theorem upTo_zero (text : Text) : upTo 0 text = [] := by
  cases text with
  | nil => rfl
  | cons c rest =>
    have := c.utf8Size_pos
    rw [upTo, if_neg (by omega)]

private theorem upTo_append {front : Text} {offset : Nat} (h : front.byteLength ≤ offset)
    (back : Text) :
    upTo offset (front ++ back) = front ++ upTo (offset - front.byteLength) back := by
  induction front generalizing offset with
  | nil => rfl
  | cons c front ih =>
    rw [byteLength_cons] at h
    rw [List.cons_append, upTo, if_pos (by omega), ih (by omega), byteLength_cons, Nat.sub_sub,
      List.cons_append]

private theorem upTo_byteLength (front back : Text) :
    upTo front.byteLength (front ++ back) = front := by
  rw [upTo_append (Nat.le_refl _), Nat.sub_self, upTo_zero, List.append_nil]

private theorem upTo_prefix (offset : Nat) (text : Text) : upTo offset text <+: text := by
  induction text generalizing offset with
  | nil => exact List.prefix_rfl
  | cons c rest ih =>
    rw [upTo]
    split
    · exact List.cons_prefix_cons.mpr ⟨rfl, ih _⟩
    · exact List.nil_prefix

private theorem byteLength_upTo_le (offset : Nat) (text : Text) :
    (upTo offset text).byteLength ≤ offset := by
  induction text generalizing offset with
  | nil => exact Nat.zero_le _
  | cons c rest ih =>
    rw [upTo]
    split
    · have := ih (offset - c.utf8Size)
      rw [byteLength_cons]
      omega
    · exact Nat.zero_le _

private theorem length_upTo_le (offset : Nat) (text : Text) : (upTo offset text).length ≤ offset :=
  (length_le_byteLength _).trans (byteLength_upTo_le offset text)

private theorem length_upTo_mono {a b : Nat} (h : a ≤ b) (text : Text) :
    (upTo a text).length ≤ (upTo b text).length := by
  induction text generalizing a b with
  | nil => exact Nat.le_refl _
  | cons c rest ih =>
    by_cases ha : c.utf8Size ≤ a
    · have := ih (Nat.sub_le_sub_right h c.utf8Size)
      rw [upTo, if_pos ha, upTo, if_pos (ha.trans h), List.length_cons, List.length_cons]
      omega
    · rw [upTo, if_neg ha]
      exact Nat.zero_le _

/-! ## Offsets and their lines -/

/-- How many characters of its line end at an offset or before it. -/
def charactersOnLine (text : Text) (offset : Nat) : Nat := (upTo offset text).lastLine.length

def bytesOnLine (text : Text) (offset : Nat) : Nat :=
  ((text.bytes.take offset).rtakeWhile (· != 0x0A)).length

/-- What the column of an offset counts: bytes inside a character, and characters elsewhere. -/
def passedOnLine (text : Text) (offset : Nat) : Nat :=
  if text.Splits offset then text.bytesOnLine offset else text.charactersOnLine offset

private theorem exists_line (text : Text) (offset : Nat) :
    ∃ before back, text = before ++ back ∧ before.WholeLines ∧ before.byteLength ≤ offset ∧
      back.newlinesBefore (offset - before.byteLength) = 0 := by
  induction text using Text.lineInduction generalizing offset with
  | last line hline =>
    exact ⟨[], line, rfl, .inl rfl, Nat.zero_le _, newlinesBefore_of_not_mem hline _⟩
  | more line back hline ih =>
    by_cases hle : offset ≤ line.byteLength
    · refine ⟨[], line ++ '\n' :: back, rfl, .inl rfl, Nat.zero_le _, ?_⟩
      rw [byteLength_nil, Nat.sub_zero, newlinesBefore_append, newlinesBefore_of_not_mem hline,
        Nat.sub_eq_zero_of_le hle, newlinesBefore_zero]
    · obtain ⟨before, rest, rfl, hbefore, hsize, hzero⟩ := ih (offset - line.byteLength - 1)
      have hlength : (line ++ '\n' :: before).byteLength
          = line.byteLength + 1 + before.byteLength := by
        rw [byteLength_append, byteLength_cons, Nat.add_assoc]
        rfl
      refine ⟨line ++ '\n' :: before, rest, by simp, hbefore.line_append line, by omega, ?_⟩
      rwa [hlength, ← Nat.sub_sub, ← Nat.sub_sub]

private theorem not_mem_upTo {text : Text} {offset : Nat} (h : text.newlinesBefore offset = 0) :
    '\n' ∉ upTo offset text := by
  obtain ⟨rest, hrest⟩ := upTo_prefix offset text
  rw [← hrest, newlinesBefore_append,
    newlinesBefore_of_byteLength_le (byteLength_upTo_le offset text)] at h
  exact List.count_eq_zero.mp (Nat.eq_zero_of_add_eq_zero_right h)

private theorem WholeLines.lastLine_eq {before : Text} (h : before.WholeLines) :
    before.lastLine = [] := by
  obtain rfl | ⟨upper, rfl⟩ := h
  · rfl
  · exact List.rtakeWhile_concat_neg _ _ _ (by simp)

private theorem WholeLines.rtakeWhile_bytes {before : Text} (h : before.WholeLines) :
    before.bytes.rtakeWhile (· != 0x0A) = [] := by
  obtain rfl | ⟨upper, rfl⟩ := h
  · rfl
  · rw [bytes_append]
    exact List.rtakeWhile_concat_neg _ _ _ (by simp)

section Line

variable {before back : Text} (hbefore : before.WholeLines) {offset : Nat}
  (hle : before.byteLength ≤ offset)

include hle

private theorem newlinesBefore_append_of_le :
    (before ++ back).newlinesBefore offset
      = before.count '\n' + back.newlinesBefore (offset - before.byteLength) := by
  rw [newlinesBefore_append, newlinesBefore_of_byteLength_le hle]

theorem isBoundary_append :
    (before ++ back).isBoundary offset = back.isBoundary (offset - before.byteLength) := by
  rw [Bool.eq_iff_iff, isBoundary_iff, isBoundary_iff]
  constructor
  · rintro ⟨p, s, htext, rfl⟩
    obtain ⟨q, rfl, rfl⟩ | ⟨q, rfl, rfl⟩ := List.append_eq_append_iff.mp htext
    · exact ⟨q, s, rfl, by rw [byteLength_append, Nat.add_sub_cancel_left]⟩
    · rw [byteLength_append] at hle
      have hq : q = [] := byteLength_eq_zero_iff.mp (by omega)
      subst hq
      exact ⟨[], back, rfl, by simp⟩
  · rintro ⟨q, s, rfl, hq⟩
    refine ⟨before ++ q, s, by rw [List.append_assoc], ?_⟩
    rw [byteLength_append]
    omega

variable (hzero : back.newlinesBefore (offset - before.byteLength) = 0)

include hbefore hzero

private theorem charactersOnLine_append :
    (before ++ back).charactersOnLine offset
      = (upTo (offset - before.byteLength) back).length := by
  have hmem : '\n' ∉ upTo (offset - before.byteLength) back := not_mem_upTo hzero
  rw [charactersOnLine, upTo_append hle, lastLine_append hmem, hbefore.lastLine_eq, List.nil_append]

private theorem bytesOnLine_append (hsize : offset ≤ (before ++ back).byteLength) :
    (before ++ back).bytesOnLine offset = offset - before.byteLength := by
  have hmem : 0x0A ∉ back.bytes.take (offset - before.byteLength) := List.count_eq_zero.mp hzero
  rw [byteLength_append] at hsize
  rw [bytesOnLine, bytes_append, List.take_append, length_bytes,
    List.take_of_length_le (by rwa [length_bytes]),
    rtakeWhile_append_of_pos (fun _ hb ↦ bne_iff_ne.mpr (ne_of_mem_of_not_mem hb hmem)),
    hbefore.rtakeWhile_bytes, List.nil_append, List.length_take, length_bytes]
  omega

end Line

/-! ## Counts in the order of offsets -/

theorem isBoundary_byteLength (text : Text) : text.isBoundary text.byteLength = true :=
  isBoundary_iff.mpr ⟨text, [], (List.append_nil text).symm, rfl⟩

theorem splits_iff {text : Text} {offset : Nat} (h : offset ≤ text.byteLength) :
    text.Splits offset ↔ text.isBoundary offset = false := by
  refine ⟨And.right, fun hfalse ↦ ⟨Nat.lt_of_le_of_ne h ?_, hfalse⟩⟩
  rintro rfl
  exact Bool.false_ne_true (hfalse.symm.trans text.isBoundary_byteLength)

private theorem passedOnLine_le (text : Text) (offset : Nat) :
    text.passedOnLine offset ≤ offset := by
  rw [passedOnLine]
  split
  · exact (List.rtakeWhile_suffix _ _).length_le.trans (List.length_take_le _ _)
  · exact (List.rtakeWhile_suffix _ _).length_le.trans (length_upTo_le offset text)

private theorem passedOnLine_min (text : Text) (offset : Nat) :
    text.passedOnLine (min offset text.byteLength) = text.passedOnLine offset := by
  by_cases hle : offset ≤ text.byteLength
  · rw [Nat.min_eq_left hle]
  · have hge : text.byteLength ≤ offset := (Nat.not_le.mp hle).le
    have hall : ∀ x, text.byteLength ≤ x → text.passedOnLine x = text.lastLine.length := by
      intro x hx
      have hupTo := upTo_append hx []
      rw [List.append_nil, upTo, List.append_nil] at hupTo
      rw [passedOnLine, if_neg fun hsplits ↦ Nat.not_lt.mpr hx hsplits.1, charactersOnLine, hupTo]
    rw [Nat.min_eq_right hge, hall _ le_rfl, hall _ hge]

/-- **On one line, counts fall only from an offset inside a character to one that is not**, if more
bytes stand before the first than characters before the second. -/
theorem passedOnLine_le_iff {text : Text} {a b : Nat} (hab : a ≤ b)
    (hsame : text.newlinesBefore a = text.newlinesBefore b) :
    text.passedOnLine a ≤ text.passedOnLine b ↔
      (text.Splits a → ¬text.Splits b → text.bytesOnLine a ≤ text.charactersOnLine b) := by
  obtain ⟨before, back, rfl, hbefore, hle, hzero⟩ := exists_line text a
  have hle' : before.byteLength ≤ b := hle.trans hab
  have hzero' : back.newlinesBefore (b - before.byteLength) = 0 := by
    rw [newlinesBefore_append_of_le hle, newlinesBefore_append_of_le hle'] at hsame
    omega
  have hmono : a - before.byteLength ≤ b - before.byteLength := Nat.sub_le_sub_right hab _
  by_cases ha : (before ++ back).Splits a
  · by_cases hb : (before ++ back).Splits b
    · -- both count bytes
      rw [passedOnLine, if_pos ha, passedOnLine, if_pos hb,
        bytesOnLine_append hbefore hle hzero ha.1.le,
        bytesOnLine_append hbefore hle' hzero' hb.1.le]
      exact iff_of_true hmono fun _ hnot ↦ absurd hb hnot
    · rw [passedOnLine, if_pos ha, passedOnLine, if_neg hb]
      exact ⟨fun hcount _ _ ↦ hcount, fun hcount ↦ hcount ha hb⟩
  · refine iff_of_true ?_ fun hsplits ↦ absurd hsplits ha
    rw [passedOnLine, if_neg ha, charactersOnLine_append hbefore hle hzero]
    by_cases hb : (before ++ back).Splits b
    · -- characters are no more than the bytes that they stand in
      rw [passedOnLine, if_pos hb, bytesOnLine_append hbefore hle' hzero' hb.1.le]
      exact (length_upTo_le _ back).trans hmono
    · rw [passedOnLine, if_neg hb, charactersOnLine_append hbefore hle' hzero']
      exact length_upTo_mono hmono back

end Text

/-- A line with the newline at its end, if it has one. -/
def LineStart.whole (l : LineStart) : Text :=
  l.rest.take ((l.rest.takeWhile (· != '\n')).length + 1)

private theorem LineStart.length_le_whole {line rest : Text} {l : LineStart} (h : '\n' ∉ line)
    (hl : l.rest = line ++ rest) : line.length ≤ l.whole.length := by
  rw [whole, hl, List.length_take, Text.takeWhile_append h, List.length_append, List.length_append]
  omega

namespace LineMap

/-! ## Positions of all offsets -/

private theorem distanceFrom_eq {before back : Text} (hbefore : before.WholeLines) {offset : Nat}
    (hle : before.byteLength ≤ offset)
    (hzero : back.newlinesBefore (offset - before.byteLength) = 0)
    (hsize : offset ≤ (before ++ back).byteLength) :
    distanceFrom ⟨before.byteLength, back⟩ offset = (before ++ back).passedOnLine offset := by
  have hsplits := Text.splits_iff hsize
  rw [Text.isBoundary_append hle, Text.isBoundary] at hsplits
  rw [distanceFrom]
  dsimp only
  split
  · next passed rest hcut =>
    obtain ⟨rfl, hpassed⟩ := Text.splitBytes?_eq_some_iff.mp hcut
    rw [hcut] at hsplits
    rw [Text.passedOnLine, if_neg (by simp [hsplits]),
      Text.charactersOnLine_append hbefore hle hzero, ← hpassed, Text.upTo_byteLength]
  · next hcut =>
    rw [hcut] at hsplits
    rw [Text.passedOnLine, if_pos (by simp [hsplits]),
      Text.bytesOnLine_append hbefore hle hzero hsize]

/-- The line that an offset of the text falls on. Unless the offset lies inside a character, the
line is at least as long as what is counted. -/
private theorem exists_distanceFrom_eq {text : Text} {offset : Nat}
    (hsize : offset ≤ text.byteLength) :
    ∃ l, (ofText text).lines[text.newlinesBefore offset]? = some l ∧
      distanceFrom l offset = text.passedOnLine offset ∧
      (¬text.Splits offset → text.passedOnLine offset ≤ l.whole.length) := by
  obtain ⟨before, back, rfl, hbefore, hle, hzero⟩ := text.exists_line offset
  have hl := getElem?_linesFrom 0 hbefore back
  rw [Nat.zero_add] at hl
  refine ⟨⟨before.byteLength, back⟩, ?_, distanceFrom_eq hbefore hle hzero hsize, fun hnot ↦ ?_⟩
  · rw [Text.newlinesBefore_append_of_le hle, hzero, Nat.add_zero]
    exact hl
  · obtain ⟨rest, hrest⟩ := Text.upTo_prefix (offset - before.byteLength) back
    rw [Text.passedOnLine, if_neg hnot, Text.charactersOnLine_append hbefore hle hzero]
    exact LineStart.length_le_whole (Text.not_mem_upTo hzero) hrest.symm

private theorem exists_position?_line {text : Text} (h : text.byteLength + 1 < lineBound)
    (offset : Nat) :
    ∃ l, (ofText text).lines[text.newlinesBefore offset]? = some l ∧
      (ofText text).position? offset = .ok ⟨min offset text.byteLength,
        1 + text.newlinesBefore offset, 1 + text.passedOnLine offset⟩ ∧
      (¬text.Splits offset → text.passedOnLine offset ≤ l.whole.length) := by
  have hsize : min offset text.byteLength ≤ text.byteLength := Nat.min_le_right _ _
  obtain ⟨l, hl, hdistance, hwhole⟩ := exists_distanceFrom_eq hsize
  have hpassed := (text.passedOnLine_le (min offset text.byteLength)).trans hsize
  rw [Text.newlinesBefore_min] at hl
  rw [Text.passedOnLine_min] at hdistance hwhole hpassed
  refine ⟨l, hl, ?_, fun hnot ↦ hwhole fun hmin ↦ hnot ?_⟩
  · rw [position?_ofText h hl, hdistance, Nat.mod_eq_of_lt (by omega), Nat.add_comm _ 1]
  · have hlt := hmin.1
    rwa [Nat.min_eq_left (by omega)] at hmin

/-! ## The order of all positions -/

/-- What a line map says about the positions of all offsets of its text, also of those inside
characters. -/
structure OrdersOffsets (map : LineMap) (text : Text) : Prop where
  /-- Columns count characters, but bytes inside a character. -/
  position_eq : ∀ offset, map.position? offset = .ok ⟨min offset text.byteLength,
    1 + text.newlinesBefore offset,
    1 + if text.Splits offset then text.bytesOnLine offset else text.charactersOnLine offset⟩
  /-- Positions come in the order of offsets, unless the first of two offsets on a line lies inside
  a character and counts more bytes than the second, which does not, counts characters. -/
  position_le_iff : ∀ a b, a ≤ b → ∃ p q, map.position? a = .ok p ∧ map.position? b = .ok q ∧
    (Prod.Lex (· < ·) (· ≤ ·) (p.line, p.column) (q.line, q.column) ↔
      (p.line = q.line → text.Splits a → ¬text.Splits b →
        text.bytesOnLine a ≤ text.charactersOnLine b))
  /-- A column does not lie behind the characters of its line, unless its offset lies inside a
  character and counts more bytes than these are. -/
  column_le_iff : ∀ offset, ∃ p l, map.position? offset = .ok p ∧
    map.lines[p.line - 1]? = some l ∧
      (p.column - 1 ≤ l.whole.length ↔
        (text.Splits offset → text.bytesOnLine offset ≤ l.whole.length))

/-- **The order of positions.** If a text is shorter than lines and columns can count, then lines
and columns grow with offsets and stay on their lines, as far as offsets lie between characters;
where an offset inside a character breaks this, it is for the bytes that it counts. -/
theorem ordersOffsets_ofText {text : Text} (h : text.byteLength + 1 < lineBound) :
    (ofText text).OrdersOffsets text where
  position_eq offset := by
    obtain ⟨-, -, hposition, -⟩ := exists_position?_line h offset
    exact hposition
  position_le_iff a b hab := by
    obtain ⟨-, -, hp, -⟩ := exists_position?_line h a
    obtain ⟨-, -, hq, -⟩ := exists_position?_line h b
    refine ⟨_, _, hp, hq, ?_⟩
    have hlines := text.newlinesBefore_mono hab
    rw [Prod.lex_def]
    by_cases hsame : text.newlinesBefore a = text.newlinesBefore b
    · have hcounts := Text.passedOnLine_le_iff hab hsame
      simp only [hsame, Nat.lt_irrefl, false_or, true_and, true_implies, Nat.add_le_add_iff_left]
      exact hcounts
    · refine iff_of_true (.inl ?_) fun heq ↦ absurd ?_ hsame
      · show 1 + _ < 1 + _
        omega
      · exact Nat.add_left_cancel heq
  column_le_iff offset := by
    obtain ⟨l, hl, hposition, hwhole⟩ := exists_position?_line h offset
    refine ⟨_, l, hposition, ?_, ?_⟩
    · rw [Nat.add_sub_cancel_left]
      exact hl
    · rw [Nat.add_sub_cancel_left]
      by_cases hsplits : text.Splits offset
      · rw [Text.passedOnLine, if_pos hsplits]
        exact ⟨fun hle _ ↦ hle, fun hle ↦ hle hsplits⟩
      · exact iff_of_true (hwhole hsplits) fun h ↦ absurd h hsplits

/-- One byte inside a character of a second line is as much as the character, two are more. -/
theorem ordersOffsets_ofText_two_lines :
    Text.byteLength ['a', '\n', '€'] + 1 < lineBound ∧
      (ofText ['a', '\n', '€']).OrdersOffsets ['a', '\n', '€'] ∧
      (ofText ['a', '\n', '€']).position? 3 = .ok ⟨3, 2, 2⟩ ∧
      (ofText ['a', '\n', '€']).position? 4 = .ok ⟨4, 2, 3⟩ ∧
      (ofText ['a', '\n', '€']).position? 5 = .ok ⟨5, 2, 2⟩ :=
  ⟨by decide, ordersOffsets_ofText (by decide), rfl, rfl, rfl⟩

/-- The last byte of a character of three bytes has a column behind that of the end of the
character, and behind the one character of its line. -/
theorem position?_euro_falls :
    Text.byteLength ['€'] + 1 < lineBound ∧ 2 ≤ 3 ∧
      ∃ p q l, (ofText ['€']).position? 2 = .ok p ∧ (ofText ['€']).position? 3 = .ok q ∧
        (ofText ['€']).lines[p.line - 1]? = some l ∧
        ¬Prod.Lex (· < ·) (· ≤ ·) (p.line, p.column) (q.line, q.column) ∧
        ¬p.column - 1 ≤ l.whole.length := by
  refine ⟨by decide, by decide, ⟨2, 1, 3⟩, ⟨3, 1, 2⟩, ⟨0, ['€']⟩, rfl, rfl, rfl, ?_, by decide⟩
  rw [Prod.lex_def]
  decide

end LineMap

end DumpMode
