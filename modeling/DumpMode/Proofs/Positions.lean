import DumpMode.LineSearch
import DumpMode.Proofs.Lines
import Mathlib.Data.List.DropRight

/-!
# Lines and columns of offsets

The line of an offset counts the newline bytes before it, and the column of an offset between two
characters counts the characters since the last newline. The first holds for every offset, because
no byte of a longer character is a newline; it is proved along `Text.lineInduction`, as the line
map is built line by line.

Numbers of lines and columns start over at `lineBound`. In a text shorter than that they do not
reach it, and then lines and columns tell all offsets between characters apart, in their order
(`LineMap.Locates`).
-/

namespace DumpMode

namespace Text

/-! ## Bytes and newlines -/

def bytes (text : Text) : List UInt8 := text.flatMap String.utf8EncodeChar

/-- How many newline bytes stand before an offset of a text. -/
def newlinesBefore (text : Text) (offset : Nat) : Nat := (text.bytes.take offset).count 0x0A

theorem length_bytes (text : Text) : text.bytes.length = text.byteLength := by
  induction text with
  | nil => rfl
  | cons c text ih =>
    rw [bytes, List.flatMap_cons, List.length_append, String.length_utf8EncodeChar, byteLength_cons,
      ← ih, bytes]

theorem length_le_byteLength (text : Text) : text.length ≤ text.byteLength := by
  induction text with
  | nil => exact Nat.le_refl 0
  | cons c text ih =>
    have := c.utf8Size_pos
    rw [List.length_cons, byteLength_cons]
    omega

theorem byteLength_eq_length {text : Text} (h : ∀ c ∈ text, c.utf8Size = 1) :
    text.byteLength = text.length := by
  induction text with
  | nil => rfl
  | cons c text ih =>
    obtain ⟨hc, htext⟩ := List.forall_mem_cons.mp h
    rw [byteLength_cons, List.length_cons, hc, ih htext, Nat.add_comm]

theorem bytes_append (front back : Text) : (front ++ back).bytes = front.bytes ++ back.bytes :=
  List.flatMap_append

private theorem le_toNat_of_mem_utf8EncodeChar {c : Char} (hc : ¬ c.val.toNat ≤ 127) {b : UInt8}
    (hb : b ∈ String.utf8EncodeChar c) : 128 ≤ b.toNat := by
  rw [String.utf8EncodeChar, if_neg hc] at hb
  split at hb
  · simp only [List.mem_cons, List.not_mem_nil, or_false] at hb
    obtain rfl | rfl := hb <;> rw [UInt8.toNat_ofNat'] <;> omega
  · split at hb
    · simp only [List.mem_cons, List.not_mem_nil, or_false] at hb
      obtain rfl | rfl | rfl := hb <;> rw [UInt8.toNat_ofNat'] <;> omega
    · simp only [List.mem_cons, List.not_mem_nil, or_false] at hb
      obtain rfl | rfl | rfl | rfl := hb <;> rw [UInt8.toNat_ofNat'] <;> omega

private theorem newline_not_mem_utf8EncodeChar {c : Char} (hc : c ≠ '\n') :
    0x0A ∉ String.utf8EncodeChar c := by
  intro hmem
  by_cases hle : c.val.toNat ≤ 127
  · rw [String.utf8EncodeChar, if_pos hle, List.mem_singleton, ← UInt8.toNat_inj,
      UInt8.toNat_ofNat', Nat.mod_eq_of_lt (by omega)] at hmem
    exact hc (Char.ext (UInt32.toNat_inj.mp hmem.symm))
  · exact absurd (le_toNat_of_mem_utf8EncodeChar hle hmem) (by decide)

private theorem count_bytes (text : Text) : text.bytes.count 0x0A = text.count '\n' := by
  induction text with
  | nil => rfl
  | cons c text ih =>
    rw [bytes, List.flatMap_cons, List.count_append, ← bytes, ih, List.count_cons]
    by_cases hc : c = '\n'
    · subst hc
      exact Nat.add_comm _ _
    · rw [List.count_eq_zero.mpr (newline_not_mem_utf8EncodeChar hc), if_neg (by simpa using hc)]
      omega

theorem newlinesBefore_append (front back : Text) (offset : Nat) :
    (front ++ back).newlinesBefore offset
      = front.newlinesBefore offset + back.newlinesBefore (offset - front.byteLength) := by
  rw [newlinesBefore, bytes_append, List.take_append, List.count_append, length_bytes]
  rfl

theorem newlinesBefore_of_byteLength_le {text : Text} {offset : Nat}
    (h : text.byteLength ≤ offset) : text.newlinesBefore offset = text.count '\n' := by
  rw [newlinesBefore, List.take_of_length_le (by rwa [length_bytes]), count_bytes]

theorem newlinesBefore_min (text : Text) (offset : Nat) :
    text.newlinesBefore (min offset text.byteLength) = text.newlinesBefore offset := by
  obtain hle | hle := Nat.le_total offset text.byteLength
  · rw [Nat.min_eq_left hle]
  · rw [Nat.min_eq_right hle, newlinesBefore_of_byteLength_le hle,
      newlinesBefore_of_byteLength_le (Nat.le_refl _)]

theorem newlinesBefore_byteLength (front back : Text) :
    (front ++ back).newlinesBefore front.byteLength = front.count '\n' := by
  rw [newlinesBefore_append, newlinesBefore_of_byteLength_le (Nat.le_refl _), Nat.sub_self]
  rfl

theorem newlinesBefore_of_not_mem {line : Text} (hline : '\n' ∉ line) (offset : Nat) :
    line.newlinesBefore offset = 0 := by
  have h : line.bytes.count 0x0A = 0 := by rw [count_bytes, List.count_eq_zero.mpr hline]
  exact Nat.eq_zero_of_le_zero (h ▸ (List.take_sublist offset line.bytes).count_le _)

theorem newlinesBefore_mono {a b : Nat} (h : a ≤ b) (text : Text) :
    text.newlinesBefore a ≤ text.newlinesBefore b := by
  have hprefix : text.bytes.take a <+: text.bytes.take b := List.take_prefix_take_left h
  exact hprefix.sublist.count_le _

theorem newlinesBefore_le (text : Text) (offset : Nat) :
    text.newlinesBefore offset ≤ text.byteLength := by
  rw [← length_bytes]
  exact List.count_le_length.trans (List.take_sublist offset text.bytes).length_le

@[simp] theorem newlinesBefore_zero (text : Text) : text.newlinesBefore 0 = 0 := rfl

private theorem newlinesBefore_newline (back : Text) (offset : Nat) :
    Text.newlinesBefore ('\n' :: back) (offset + 1) = 1 + back.newlinesBefore offset := by
  rw [← List.singleton_append, newlinesBefore_append, newlinesBefore_of_byteLength_le]
  · rfl
  · exact Nat.succ_le_succ (Nat.zero_le offset)

/-! ## The last line -/

/-- What stands behind the last newline of a text, or all of it. -/
def lastLine (text : Text) : Text := text.rtakeWhile (· != '\n')

/-- A text of whole lines: nothing follows its last newline. -/
def WholeLines (text : Text) : Prop := text = [] ∨ ∃ upper, text = upper ++ ['\n']

theorem exists_eq_append_lastLine (text : Text) :
    ∃ before, text = before ++ text.lastLine ∧ '\n' ∉ text.lastLine ∧ WholeLines before := by
  refine ⟨text.rdropWhile (· != '\n'), (List.rdropWhile_append_rtakeWhile).symm, fun h ↦ ?_, ?_⟩
  · exact absurd (List.mem_rtakeWhile_imp h) (by decide)
  · by_cases hnil : text.rdropWhile (· != '\n') = []
    · exact .inl hnil
    · have hlast := List.rdropWhile_last_not (· != '\n') text hnil
      rw [bne_iff_ne, not_not] at hlast
      exact .inr ⟨_, (hlast ▸ List.dropLast_concat_getLast hnil).symm⟩

theorem rtakeWhile_append_of_pos {α : Type} {p : α → Bool} {back : List α}
    (hback : ∀ a ∈ back, p a = true) (front : List α) :
    (front ++ back).rtakeWhile p = front.rtakeWhile p ++ back := by
  rw [List.rtakeWhile, List.reverse_append, List.takeWhile_append_of_pos (by simpa using hback),
    List.reverse_append, List.reverse_reverse]
  rfl

theorem lastLine_append {back : Text} (hback : '\n' ∉ back) (front : Text) :
    (front ++ back).lastLine = front.lastLine ++ back :=
  rtakeWhile_append_of_pos (fun _ hc ↦ bne_iff_ne.mpr (ne_of_mem_of_not_mem hc hback)) front

end Text

namespace LineMap

/-! ## The row of line starts -/

private theorem le_offset_of_mem_linesFrom {base : Nat} {text : Text} {l : LineStart}
    (hl : l ∈ linesFrom base text) : base ≤ l.offset := by
  induction text using Text.lineInduction generalizing base with
  | last line hline =>
    rw [linesFrom_of_not_mem hline, List.mem_singleton] at hl
    subst hl
    exact Nat.le_refl _
  | more line back hline ih =>
    rw [linesFrom_append_newline hline, List.mem_cons] at hl
    obtain rfl | hl := hl
    · exact Nat.le_refl _
    · have := ih hl
      omega

private theorem pairwise_linesFrom (base : Nat) (text : Text) :
    (linesFrom base text).Pairwise (·.offset < ·.offset) := by
  induction text using Text.lineInduction generalizing base with
  | last line hline =>
    rw [linesFrom_of_not_mem hline]
    exact List.pairwise_singleton _ _
  | more line back hline ih =>
    rw [linesFrom_append_newline hline]
    refine List.pairwise_cons.mpr ⟨fun l hl ↦ ?_, ih _⟩
    have := le_offset_of_mem_linesFrom hl
    have := Char.utf8Size_pos '\n'
    show base < l.offset
    omega

/-- The lines that begin at an offset or before it are one more than the newline bytes before the
offset; in front of the text there are none. -/
private theorem countP_linesFrom (base : Nat) (text : Text) (x : Nat) :
    (linesFrom base text).countP (fun l ↦ decide (l.offset ≤ x))
      = if base ≤ x then 1 + text.newlinesBefore (x - base) else 0 := by
  induction text using Text.lineInduction generalizing base with
  | last line hline =>
    rw [linesFrom_of_not_mem hline, List.countP_singleton, Text.newlinesBefore_of_not_mem hline]
    simp only [decide_eq_true_eq]
  | more line back hline ih =>
    rw [linesFrom_append_newline hline, List.countP_cons, ih, Text.newlinesBefore_append,
      Text.newlinesBefore_of_not_mem hline, Nat.zero_add, show '\n'.utf8Size = 1 from rfl]
    by_cases hnext : base + line.byteLength + 1 ≤ x
    · -- the newline itself stands before the offset
      obtain ⟨d, rfl⟩ := Nat.exists_eq_add_of_le hnext
      have hd : base + line.byteLength + 1 + d - base - line.byteLength = d + 1 := by omega
      rw [if_pos hnext, hd, Nat.add_sub_cancel_left, Text.newlinesBefore_newline]
      simp only [decide_eq_true_eq]
      rw [if_pos (by omega), if_pos (by omega)]
      omega
    · rw [if_neg hnext, show x - base - line.byteLength = 0 by omega, Text.newlinesBefore_zero]
      simp only [decide_eq_true_eq, Nat.zero_add, Nat.add_zero]

theorem getElem?_linesFrom (base : Nat) {before : Text} (h : before.WholeLines) (back : Text) :
    (linesFrom base (before ++ back))[before.count '\n']?
      = some ⟨base + before.byteLength, back⟩ := by
  obtain rfl | ⟨upper, rfl⟩ := h
  · rfl
  · induction upper using Text.lineInduction generalizing base with
    | last line hline =>
      rw [List.append_assoc, List.singleton_append, linesFrom_append_newline hline,
        List.count_append, List.count_eq_zero.mpr hline, Text.byteLength_append, ← Nat.add_assoc]
      rfl
    | more line upper hline ih =>
      have hbefore : line ++ '\n' :: upper ++ ['\n'] = line ++ '\n' :: (upper ++ ['\n']) :=
        List.append_assoc ..
      rw [hbefore, List.append_assoc, List.cons_append, linesFrom_append_newline hline,
        List.count_append, List.count_eq_zero.mpr hline, Nat.zero_add, List.count_cons_self,
        List.getElem?_cons_succ, ih, Text.byteLength_append line, Text.byteLength_cons,
        Nat.add_assoc, Nat.add_assoc]

/-! ## Lines of offsets -/

private theorem countP_lines_ofText (text : Text) (offset : Nat) :
    (ofText text).lines.countP (fun l ↦ decide (l.offset ≤ offset))
      = 1 + text.newlinesBefore offset :=
  (countP_linesFrom 0 text offset).trans (if_pos (Nat.zero_le offset))

theorem lineOf_ofText {text : Text} (h : text.byteLength + 1 < lineBound) (offset : Nat) :
    (ofText text).lineOf offset = 1 + text.newlinesBefore offset := by
  have hle := text.newlinesBefore_le offset
  rw [lineOf, countP_lines_ofText, Nat.mod_eq_of_lt (by omega)]

private theorem exists_getElem?_lines (text : Text) (offset : Nat) :
    ∃ l, (ofText text).lines[text.newlinesBefore offset]? = some l := by
  have hle : 1 + text.newlinesBefore offset ≤ (ofText text).lines.length :=
    countP_lines_ofText text offset ▸ List.countP_le_length
  exact ⟨_, List.getElem?_eq_getElem (show _ < (ofText text).lines.length by omega)⟩

/-- The search for the line of an offset ends well, whatever the offset is. -/
private theorem lineBySearch?_ofText (text : Text) (offset : Nat) :
    (ofText text).lineBySearch? offset = .ok ((ofText text).lineOf offset) :=
  lineBySearch?_eq (pairwise_linesFrom 0 text)
    ⟨⟨0, text⟩, List.mem_cons_self, Nat.zero_le offset⟩

/-! ## Positions of offsets -/

theorem position?_ofText {text : Text} (h : text.byteLength + 1 < lineBound) {offset : Nat}
    {l : LineStart} (hl : (ofText text).lines[text.newlinesBefore offset]? = some l) :
    (ofText text).position? offset
      = .ok ⟨min offset text.byteLength, 1 + text.newlinesBefore offset,
          (distanceFrom l (min offset text.byteLength) + 1) % lineBound⟩ := by
  have hline := lineOf_ofText h (min offset text.byteLength)
  rw [Text.newlinesBefore_min, Nat.add_comm] at hline
  rw [position?, show (ofText text).size = text.byteLength from rfl]
  simp only [hline, hl]
  rw [Nat.add_comm 1]

private theorem distanceFrom_of_append (start : Nat) (line back : Text) :
    distanceFrom ⟨start, line ++ back⟩ (start + line.byteLength) = line.length := by
  rw [distanceFrom, Nat.add_sub_cancel_left, Text.splitBytes?_eq_some_iff.mpr ⟨rfl, rfl⟩]

private theorem position?_of_append {before line back : Text} (hbefore : before.WholeLines)
    (hline : '\n' ∉ line) (h : (before ++ (line ++ back)).byteLength + 1 < lineBound) {offset : Nat}
    (hoffset : min offset (before ++ (line ++ back)).byteLength = (before ++ line).byteLength) :
    (ofText (before ++ (line ++ back))).position? offset
      = .ok ⟨(before ++ line).byteLength, 1 + (before ++ line).count '\n', 1 + line.length⟩ := by
  have hcount : (before ++ (line ++ back)).newlinesBefore offset = (before ++ line).count '\n' := by
    rw [← Text.newlinesBefore_min, hoffset, ← List.append_assoc, Text.newlinesBefore_byteLength]
  have hsame : (before ++ line).count '\n' = before.count '\n' := by
    rw [List.count_append, List.count_eq_zero.mpr hline, Nat.add_zero]
  have hl : (ofText (before ++ (line ++ back))).lines[(before ++ line).count '\n']?
      = some ⟨0 + before.byteLength, line ++ back⟩ := by
    rw [hsame, ← getElem?_linesFrom 0 hbefore]
    rfl
  have hlength := line.length_le_byteLength
  have hcolumn : (line.length + 1) % lineBound = 1 + line.length := by
    simp only [Text.byteLength_append] at h
    rw [Nat.mod_eq_of_lt (by omega), Nat.add_comm]
  rw [position?_ofText h (hcount ▸ hl), hcount, hoffset, Nat.zero_add,
    Text.byteLength_append before, distanceFrom_of_append, hcolumn]

/-- Between two characters, or past the end, the line and the column of an offset are read off the
part of the text in front. -/
private theorem position?_of_front {front back : Text}
    (h : (front ++ back).byteLength + 1 < lineBound) {offset : Nat}
    (hoffset : min offset (front ++ back).byteLength = front.byteLength) :
    (ofText (front ++ back)).position? offset
      = .ok ⟨front.byteLength, 1 + front.count '\n', 1 + front.lastLine.length⟩ := by
  obtain ⟨before, hfront, hline, hbefore⟩ := front.exists_eq_append_lastLine
  generalize front.lastLine = line at *
  subst hfront
  rw [List.append_assoc] at h hoffset ⊢
  exact position?_of_append hbefore hline h hoffset

theorem position?_byteLength {front back : Text}
    (h : (front ++ back).byteLength + 1 < lineBound) :
    (ofText (front ++ back)).position? front.byteLength
      = .ok ⟨front.byteLength, 1 + front.count '\n', 1 + front.lastLine.length⟩ :=
  position?_of_front h (by rw [Text.byteLength_append]; omega)

/-! ## The order of positions -/

private theorem exists_front {text : Text} {offset : Nat}
    (h : text.isBoundary offset = true ∨ text.byteLength ≤ offset) :
    ∃ front back, text = front ++ back ∧ front.byteLength = min offset text.byteLength := by
  obtain h | h := h
  · obtain ⟨front, back, rfl, rfl⟩ := Text.isBoundary_iff.mp h
    exact ⟨front, back, rfl, by rw [Text.byteLength_append]; omega⟩
  · exact ⟨text, [], (List.append_nil text).symm, (Nat.min_eq_right h).symm⟩

private theorem exists_front_append {text : Text} {a b : Nat} (hab : a < b)
    (ha : text.isBoundary a = true) (hb : text.isBoundary b = true) :
    ∃ front middle back, text = front ++ middle ++ back ∧ front.byteLength = a ∧
      (front ++ middle).byteLength = b ∧ middle ≠ [] := by
  obtain ⟨front, rest, rfl, rfl⟩ := Text.isBoundary_iff.mp ha
  obtain ⟨whole, back, htext, rfl⟩ := Text.isBoundary_iff.mp hb
  obtain ⟨middle, rfl⟩ | ⟨middle, rfl⟩ :=
    List.prefix_or_prefix_of_prefix (List.prefix_append front rest)
      (htext ▸ List.prefix_append whole back)
  · refine ⟨front, middle, back, htext, rfl, rfl, ?_⟩
    rintro rfl
    rw [List.append_nil] at hab
    exact absurd hab (Nat.lt_irrefl _)
  · rw [Text.byteLength_append] at hab
    omega

/-- More text moves the line or, on the same line, the column. -/
private theorem lex_lastLine_append (front : Text) {middle : Text} (h : middle ≠ []) :
    Prod.Lex (· < ·) (· < ·) (1 + front.count '\n', 1 + front.lastLine.length)
      (1 + (front ++ middle).count '\n', 1 + (front ++ middle).lastLine.length) := by
  rw [List.count_append]
  by_cases hmem : '\n' ∈ middle
  · have := List.count_pos_iff.mpr hmem
    exact .left _ _ (by omega)
  · have := List.length_pos_iff.mpr h
    rw [List.count_eq_zero.mpr hmem, Text.lastLine_append hmem, List.length_append]
    exact .right _ (by omega)

private theorem exists_position?_lt {text : Text} (h : text.byteLength + 1 < lineBound) {a b : Nat}
    (hab : a < b) (ha : text.isBoundary a = true) (hb : text.isBoundary b = true) :
    ∃ p q, (ofText text).position? a = .ok p ∧ (ofText text).position? b = .ok q ∧
      Prod.Lex (· < ·) (· < ·) (p.line, p.column) (q.line, q.column) := by
  obtain ⟨front, middle, back, rfl, rfl, rfl, hmiddle⟩ := exists_front_append hab ha hb
  have hp : (ofText (front ++ middle ++ back)).position? front.byteLength
      = .ok ⟨front.byteLength, 1 + front.count '\n', 1 + front.lastLine.length⟩ := by
    rw [List.append_assoc] at h ⊢
    exact position?_byteLength h
  exact ⟨_, _, hp, position?_byteLength h, lex_lastLine_append front hmiddle⟩

private theorem position?_ne_of_lt {text : Text} (h : text.byteLength + 1 < lineBound) {a b : Nat}
    (hab : a < b) (ha : text.isBoundary a = true) (hb : text.isBoundary b = true)
    {p q : Position} (hp : (ofText text).position? a = .ok p)
    (hq : (ofText text).position? b = .ok q) : (p.line, p.column) ≠ (q.line, q.column) := by
  intro heq
  obtain ⟨p', q', hp', hq', hlex⟩ := exists_position?_lt h hab ha hb
  cases hp.symm.trans hp'
  cases hq.symm.trans hq'
  rw [heq, Prod.lex_def] at hlex
  omega

/-! ## Spans between offsets -/

private theorem exists_position?_eq {text : Text} (h : text.byteLength + 1 < lineBound)
    (offset : Nat) :
    ∃ p, (ofText text).position? offset = .ok p ∧ p.offset = min offset text.byteLength := by
  obtain ⟨l, hl⟩ := exists_getElem?_lines text offset
  exact ⟨_, position?_ofText h hl, rfl⟩

/-- The span between two offsets is refused if they are reversed in the text, and only then. -/
private theorem span?_eq_error_iff {text : Text} (h : text.byteLength + 1 < lineBound) {a b : Nat}
    {breach : Breach} : (ofText text).span? a b = .error breach ↔
      breach = .reversedSpan ∧ min b text.byteLength < min a text.byteLength := by
  obtain ⟨p, hp, hpoffset⟩ := exists_position?_eq h a
  obtain ⟨q, hq, hqoffset⟩ := exists_position?_eq h b
  have hspan : (ofText text).span? a b = Span.between? p q := by
    rw [span?, hp, hq]
    rfl
  rw [hspan, Span.between?, hpoffset, hqoffset]
  by_cases hle : min a text.byteLength ≤ min b text.byteLength
  · rw [if_pos hle]
    simp only [reduceCtorEq, false_iff]
    omega
  · rw [if_neg hle, Except.error.injEq]
    exact ⟨fun heq ↦ ⟨heq.symm, Nat.not_le.mp hle⟩, fun ⟨heq, _⟩ ↦ heq.symm⟩

/-! ## All offsets of a text -/

/-- What a line map says about the offsets of its text. -/
structure Locates (map : LineMap) (text : Text) : Prop where
  /-- The search for the line of an offset ends well and counts the newline bytes in front. -/
  search_eq : ∀ offset, map.lineBySearch? offset
    = .ok (1 + text.newlinesBefore (min offset text.byteLength))
  line_eq : ∀ offset, map.lineOf offset = 1 + text.newlinesBefore (min offset text.byteLength)
  /-- Between two characters and past the end, the column counts the characters behind the last
  newline. -/
  position_eq : ∀ offset, text.isBoundary offset = true ∨ text.byteLength ≤ offset →
    ∃ front back, text = front ++ back ∧ front.byteLength = min offset text.byteLength ∧
      map.position? offset = .ok ⟨min offset text.byteLength, map.lineOf offset,
        1 + front.lastLine.length⟩
  /-- Lines and columns grow with the offsets between characters. -/
  position_lt : ∀ a b, a < b → text.isBoundary a = true → text.isBoundary b = true →
    ∃ p q, map.position? a = .ok p ∧ map.position? b = .ok q ∧
      Prod.Lex (· < ·) (· < ·) (p.line, p.column) (q.line, q.column)
  position_inj : ∀ a b, text.isBoundary a = true → text.isBoundary b = true →
    ∀ p q, map.position? a = .ok p → map.position? b = .ok q →
      (p.line, p.column) = (q.line, q.column) → a = b
  /-- The span between two offsets is refused if it is reversed in the text, and only then. -/
  span_error_iff : ∀ a b breach, map.span? a b = .error breach ↔
    breach = .reversedSpan ∧ min b text.byteLength < min a text.byteLength

/-- **The line map of a text locates every offset**, if the text is shorter than lines and columns
can count. -/
theorem locates_ofText {text : Text} (h : text.byteLength + 1 < lineBound) :
    (ofText text).Locates text where
  search_eq offset := by
    rw [lineBySearch?_ofText, lineOf_ofText h, Text.newlinesBefore_min]
  line_eq offset := by
    rw [lineOf_ofText h, Text.newlinesBefore_min]
  position_eq offset hoffset := by
    obtain ⟨front, back, rfl, hfront⟩ := exists_front hoffset
    refine ⟨front, back, rfl, hfront, ?_⟩
    rw [position?_of_front h hfront.symm, ← hfront, lineOf_ofText h, ← Text.newlinesBefore_min,
      ← hfront, Text.newlinesBefore_byteLength]
  position_lt _ _ hab ha hb := exists_position?_lt h hab ha hb
  position_inj a b ha hb p q hp hq hpq := by
    by_contra hne
    obtain hab | hba := Nat.lt_or_gt_of_ne hne
    · exact position?_ne_of_lt h hab ha hb hp hq hpq
    · exact position?_ne_of_lt h hba hb ha hq hp hpq.symm
  span_error_iff _ _ _ := span?_eq_error_iff h

/-- A character of two bytes is one column wide, and offsets past the end stand for the end. -/
theorem locates_ofText_two_lines :
    Text.byteLength ['a', '\n', 'µ'] + 1 < lineBound ∧
      (ofText ['a', '\n', 'µ']).Locates ['a', '\n', 'µ'] ∧
      (ofText ['a', '\n', 'µ']).position? 9 = .ok ⟨4, 2, 2⟩ :=
  ⟨by decide, locates_ofText (by decide), rfl⟩

end LineMap

end DumpMode
