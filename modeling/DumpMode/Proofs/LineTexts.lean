import DumpMode.Proofs.Positions

/-!
# The text of a line

The lines that a line map hands out are the pieces of the text between its newlines, without the
carriage returns at the end of each piece. Both sides are taken apart by `Text.lineInduction`. What
is cut out of the text by offsets is the same: `exists_wholeLines_append` says where each line
begins, and the newline behind a line is the byte in front of the next one, so the cut always
succeeds.

A character of the text is found on its line at its column, unless only carriage returns stand
between it and the end of the line (`Text.AtLineEnd`); then it is one of those that are left out.
-/

namespace DumpMode

namespace Text

/-! ## Line ends -/

/-- Whether nothing but carriage returns stands between a place and the next newline, or the end of
the text. -/
def AtLineEnd (rest : Text) : Prop := ∀ c ∈ rest.takeWhile (· != '\n'), c = '\r'

instance (rest : Text) : Decidable rest.AtLineEnd :=
  inferInstanceAs (Decidable (∀ c ∈ _, c = _))

theorem WholeLines.line_append {before : Text} (h : before.WholeLines) (line : Text) :
    (line ++ '\n' :: before).WholeLines := by
  obtain rfl | ⟨upper, rfl⟩ := h
  · exact .inr ⟨line, rfl⟩
  · exact .inr ⟨line ++ '\n' :: upper, by simp⟩

private theorem exists_wholeLines_append {text : Text} {index : Nat} (h : index ≤ text.count '\n') :
    ∃ before back, text = before ++ back ∧ before.WholeLines ∧ before.count '\n' = index := by
  induction text using Text.lineInduction generalizing index with
  | last line hline =>
    rw [List.count_eq_zero.mpr hline, Nat.le_zero] at h
    exact ⟨[], line, rfl, .inl rfl, h.symm⟩
  | more line back hline ih =>
    rw [List.count_append, List.count_eq_zero.mpr hline, List.count_cons_self] at h
    -- none is cut off, or the first one and one less behind it
    by_cases hzero : index = 0
    · exact ⟨[], _, rfl, .inl rfl, hzero.symm⟩
    · have hle : index - 1 ≤ back.count '\n' := by omega
      obtain ⟨before, back, rfl, hbefore, hcount⟩ := ih hle
      refine ⟨line ++ '\n' :: before, back, by simp, hbefore.line_append line, ?_⟩
      rw [List.count_append, List.count_eq_zero.mpr hline, List.count_cons_self, hcount]
      omega

end Text

namespace LineMap

/-! ## Without carriage returns -/

private theorem dropReturns_eq_nil_iff {line : Text} :
    dropReturns line = [] ↔ ∀ c ∈ line, c = '\r' := by
  simp [dropReturns]

private theorem length_dropReturns_le (line : Text) : (dropReturns line).length ≤ line.length :=
  (List.rdropWhile_prefix (· == '\r') line).length_le

theorem dropReturns_append (front back : Text) :
    dropReturns (front ++ back)
      = if dropReturns back = [] then dropReturns front else front ++ dropReturns back := by
  have hnil : dropReturns back = [] ↔ (back.reverse.dropWhile (· == '\r')).isEmpty = true := by
    rw [dropReturns, List.reverse_eq_nil_iff, List.isEmpty_iff]
  rw [dropReturns, List.reverse_append, List.dropWhile_append]
  simp only [hnil]
  split
  · rfl
  · rw [List.reverse_append, List.reverse_reverse]
    rfl

private theorem head?_dropReturns {line : Text} (h : dropReturns line ≠ []) :
    (dropReturns line).head? = line.head? := by
  obtain ⟨returns, hline, -⟩ := exists_eq_dropReturns_append line
  conv_rhs => rw [hline, List.head?_append_of_ne_nil _ h]

private theorem getElem?_dropReturns_append (front : Text) (c : Char) (rest : Text) :
    (dropReturns (front ++ (c :: rest).takeWhile (· != '\n')))[front.length]?
      = if Text.AtLineEnd (c :: rest) then none else some c := by
  rw [dropReturns_append]
  by_cases hend : Text.AtLineEnd (c :: rest)
  · rw [if_pos hend, if_pos (dropReturns_eq_nil_iff.mpr hend), List.getElem?_eq_none_iff]
    exact length_dropReturns_le front
  · have hne : dropReturns ((c :: rest).takeWhile (· != '\n')) ≠ [] :=
      mt dropReturns_eq_nil_iff.mp hend
    have hc : c ≠ '\n' := by
      rintro rfl
      exact hend (by simp [Text.AtLineEnd])
    rw [if_neg hend, if_neg hne, List.getElem?_append_right (Nat.le_refl _), Nat.sub_self,
      ← List.head?_eq_getElem?, head?_dropReturns hne]
    simp [hc]

/-! ## Lines as pieces of the text -/

private theorem map_line_linesFrom (base : Nat) (text : Text) :
    (linesFrom base text).map LineStart.line = (text.splitOn '\n').map dropReturns := by
  induction text using Text.lineInduction generalizing base with
  | last line hline =>
    rw [linesFrom_of_not_mem hline, List.splitOn_eq_singleton hline, List.map_singleton,
      List.map_singleton, LineStart.line, Text.takeWhile_of_not_mem hline]
  | more line back hline ih =>
    rw [linesFrom_append_newline hline, List.splitOn_append_cons_self_of_not_mem hline,
      List.map_cons, List.map_cons, ih, LineStart.line, Text.takeWhile_append_newline hline]

private theorem lineCount_ofText (text : Text) :
    (ofText text).lineCount = (text.splitOn '\n').length := by
  have h := congrArg List.length (map_line_linesFrom 0 text)
  rwa [List.length_map, List.length_map] at h

private theorem line?_ofText (text : Text) (index : Nat) :
    (ofText text).line? (index + 1) = (text.splitOn '\n')[index]?.map dropReturns := by
  rw [line?_eq_getElem?, ← List.getElem?_map, ← List.getElem?_map]
  exact congrArg (·[index]?) (map_line_linesFrom 0 text)

private theorem length_linesFrom (base : Nat) (text : Text) :
    (linesFrom base text).length = 1 + text.count '\n' := by
  induction text using Text.lineInduction generalizing base with
  | last line hline =>
    rw [linesFrom_of_not_mem hline, List.count_eq_zero.mpr hline]
    rfl
  | more line back hline ih =>
    rw [linesFrom_append_newline hline, List.length_cons, ih, List.count_append,
      List.count_eq_zero.mpr hline, List.count_cons_self]
    omega

theorem length_lines_ofText (text : Text) :
    (ofText text).lines.length = 1 + text.count '\n' := length_linesFrom 0 text

/-! ## Lines cut out of the text -/

private theorem getElem?_starts_ofText {before : Text} (h : before.WholeLines) (back : Text) :
    (ofText (before ++ back)).starts[before.count '\n']? = some before.byteLength := by
  have hl := getElem?_linesFrom 0 h back
  rw [Nat.zero_add] at hl
  rw [starts, List.getElem?_toArray, List.getElem?_map]
  exact congrArg (Option.map _) hl

private theorem getElem?_starts_eq_none {text : Text} {index : Nat} (h : text.count '\n' < index) :
    (ofText text).starts[index]? = none := by
  rw [starts, List.getElem?_toArray, List.getElem?_eq_none_iff, List.length_map]
  have hlength := length_lines_ofText text
  omega

/-- A line ends at the first newline behind its start, or else with the text. -/
private theorem stopBefore?_ofText (before back : Text) :
    stopBefore? (before ++ back) (ofText (before ++ back)).starts[before.count '\n' + 1]?
      = .ok (before.byteLength + Text.byteLength (back.takeWhile (· != '\n'))) := by
  by_cases hmem : '\n' ∈ back
  · obtain ⟨line, rest, rfl, hline⟩ := List.eq_append_cons_of_mem hmem
    have hnext : (before ++ line ++ ['\n']).WholeLines := .inr ⟨_, rfl⟩
    have hcount : (before ++ line ++ ['\n']).count '\n' = before.count '\n' + 1 := by
      rw [List.count_append, List.count_append, List.count_eq_zero.mpr hline]
      rfl
    have hstart := getElem?_starts_ofText hnext rest
    rw [hcount, List.append_assoc, List.append_assoc, List.singleton_append] at hstart
    rw [hstart, Text.takeWhile_append_newline hline, Text.byteLength_append,
      Text.byteLength_append]
    rfl
  · have hcount : (before ++ back).count '\n' < before.count '\n' + 1 := by
      rw [List.count_append, List.count_eq_zero.mpr hmem]
      exact Nat.lt_succ_self _
    rw [getElem?_starts_eq_none hcount, Text.takeWhile_of_not_mem hmem, stopBefore?,
      Text.byteLength_append]

private theorem lineBySlice?_append {before : Text} (h : before.WholeLines) (back : Text) :
    (ofText (before ++ back)).lineBySlice? (before ++ back) (before.count '\n' + 1)
      = .ok (some (dropReturns (back.takeWhile (· != '\n')))) := by
  have hslice : Text.slice? (before ++ back) before.byteLength
      (before.byteLength + Text.byteLength (back.takeWhile (· != '\n')))
        = some (back.takeWhile (· != '\n')) := by
    refine Text.slice?_eq_some_iff.mpr ⟨before, back.dropWhile (· != '\n'), ?_, rfl, rfl⟩
    rw [List.takeWhile_append_dropWhile]
  rw [lineBySlice?, getElem?_starts_ofText h]
  simp only [stopBefore?_ofText, bind, Except.bind, hslice]

private theorem line?_append {before : Text} (h : before.WholeLines) (back : Text) :
    (ofText (before ++ back)).line? (before.count '\n' + 1)
      = some (dropReturns (back.takeWhile (· != '\n'))) := by
  rw [line?_eq_getElem?]
  exact congrArg (Option.map _) (getElem?_linesFrom 0 h back)

private theorem line?_eq_none {text : Text} {index : Nat} (h : text.count '\n' < index) :
    (ofText text).line? (index + 1) = none := by
  have hlength := length_lines_ofText text
  rw [line?_eq_getElem?, List.getElem?_eq_none (by omega), Option.map_none]

/-- **Cutting a line out of the text never fails**, and finds the line. -/
theorem lineBySlice?_ofText (text : Text) (number : Nat) :
    (ofText text).lineBySlice? text number = .ok ((ofText text).line? number) := by
  cases number with
  | zero => rfl
  | succ index =>
    by_cases hle : index ≤ text.count '\n'
    · obtain ⟨before, back, rfl, hbefore, rfl⟩ := Text.exists_wholeLines_append hle
      rw [lineBySlice?_append hbefore, line?_append hbefore]
    · rw [lineBySlice?, getElem?_starts_eq_none (Nat.not_le.mp hle),
        line?_eq_none (Nat.not_le.mp hle)]

/-! ## Characters on their lines -/

/-- The line of a place goes on behind the place up to the next newline. -/
theorem line?_of_front (front back : Text) :
    (ofText (front ++ back)).line? (1 + front.count '\n')
      = some (dropReturns (front.lastLine ++ back.takeWhile (· != '\n'))) := by
  obtain ⟨before, hfront, hline, hbefore⟩ := front.exists_eq_append_lastLine
  generalize front.lastLine = line at *
  subst hfront
  rw [List.count_append, List.count_eq_zero.mpr hline, Nat.add_comm 1, List.append_assoc,
    Nat.add_zero, line?_append hbefore, Text.takeWhile_append hline]

/-! ## All lines of a text -/

/-- What a line map says about the lines of its text. -/
structure ReadsLines (map : LineMap) (text : Text) : Prop where
  lineCount_eq : map.lineCount = (text.splitOn '\n').length
  isSome_line?_iff : ∀ number,
    (map.line? number).isSome = true ↔ 1 ≤ number ∧ number ≤ map.lineCount
  /-- A line is a piece without the carriage returns at its end. -/
  line?_eq : ∀ index,
    map.line? (index + 1) = (text.splitOn '\n')[index]?.map (List.rdropWhile (· == '\r'))
  /-- Cutting it out of the text never fails. -/
  slice_eq : ∀ number, map.lineBySlice? text number = .ok (map.line? number)
  /-- Each character stands on its line at its column, or is one of the newline and the carriage
  returns that are left out at the end of the line. -/
  getElem?_line : ∀ offset, text.isBoundary offset = true → offset < text.byteLength →
    ∃ (front : Text) (c : Char) (rest : Text) (p : Position) (shown : Text),
      text = front ++ c :: rest ∧ front.byteLength = offset ∧
        map.position? offset = .ok p ∧ p.offset = offset ∧ map.line? p.line = some shown ∧
          1 ≤ p.column ∧
            shown[p.column - 1]? = if Text.AtLineEnd (c :: rest) then none else some c

/-- **The line map of a text reads its lines**, and finds each character there that is not left out.
If the text is shorter than lines and columns can count, they tell where it is. -/
theorem readsLines_ofText {text : Text} (h : text.byteLength + 1 < lineBound) :
    (ofText text).ReadsLines text where
  lineCount_eq := lineCount_ofText text
  isSome_line?_iff number := by
    cases number with
    | zero => simp [line?]
    | succ index =>
      rw [line?_ofText, Option.isSome_map, lineCount_ofText]
      simp only [isSome_getElem?]
      omega
  line?_eq := line?_ofText text
  slice_eq := lineBySlice?_ofText text
  getElem?_line offset hoffset hlt := by
    obtain ⟨front, back, rfl, rfl⟩ := Text.isBoundary_iff.mp hoffset
    obtain ⟨c, rest, rfl⟩ : ∃ c rest, back = c :: rest := by
      apply List.exists_cons_of_ne_nil
      rintro rfl
      simp at hlt
    refine ⟨front, c, rest, _, _, rfl, rfl, position?_byteLength h, rfl,
      line?_of_front front (c :: rest), Nat.le_add_right 1 _, ?_⟩
    rw [Nat.add_sub_cancel_left]
    exact getElem?_dropReturns_append front.lastLine c rest

/-- The first line loses its carriage returns, and the second one keeps the one in front. -/
theorem readsLines_ofText_returns :
    Text.byteLength "µ\r\n\rab".toList + 1 < lineBound ∧
      (ofText "µ\r\n\rab".toList).ReadsLines "µ\r\n\rab".toList ∧
      (ofText "µ\r\n\rab".toList).line? 1 = some ['µ'] ∧
      (ofText "µ\r\n\rab".toList).line? 2 = some ['\r', 'a', 'b'] :=
  ⟨by decide, readsLines_ofText (by decide), rfl, rfl⟩

end LineMap

end DumpMode
