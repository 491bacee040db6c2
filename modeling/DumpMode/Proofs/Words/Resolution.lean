import DumpMode.Proofs.LineTexts
import DumpMode.Proofs.Words.Matches

/-!
# Matches on their lines

A match is found by bytes, its place is told by a line and columns, which count characters, and the
line itself is handed out without the carriage returns at its end. The three views show the same
characters, since a word has no line ends in it and each of its characters is one byte: so it
begins and ends on one line, its columns are as far apart as its offsets, and a line that goes on
behind a word is cut behind it at the earliest.
-/

namespace DumpMode

namespace LineMap

/-! ## Words on a line -/

/-- What is left of a line reaches at least as far as a word in it without carriage returns. -/
private theorem prefix_dropReturns {word : Text} (hne : word ≠ []) (hword : '\r' ∉ word)
    (line back : Text) : line ++ word <+: dropReturns (line ++ word ++ back) := by
  have hkept : dropReturns (line ++ word) = line ++ word := by
    refine List.rdropWhile_eq_self_iff.mpr fun hne' hlast ↦ ?_
    rw [List.getLast_append_of_ne_nil hne' hne, beq_iff_eq] at hlast
    exact hword (hlast ▸ List.getLast_mem hne)
  rw [dropReturns_append]
  split
  · exact ⟨[], by rw [hkept, List.append_nil]⟩
  · exact List.prefix_append _ _

variable {front word back : Text}

private theorem exists_line?_word (hne : word ≠ []) (hline : '\n' ∉ word) (hreturn : '\r' ∉ word) :
    ∃ line, (ofText (front ++ (word ++ back))).line? (1 + front.count '\n') = some line ∧
      (line.drop front.lastLine.length).take word.length = word := by
  refine ⟨_, line?_of_front front (word ++ back), ?_⟩
  obtain ⟨rest, hrest⟩ :=
    prefix_dropReturns hne hreturn front.lastLine (back.takeWhile (· != '\n'))
  rw [Text.takeWhile_append hline, ← List.append_assoc, ← hrest, List.append_assoc,
    List.drop_left, List.take_left]

private theorem span?_word (hline : '\n' ∉ word)
    (h : (front ++ (word ++ back)).byteLength + 1 < lineBound) :
    (ofText (front ++ (word ++ back))).span? front.byteLength (front.byteLength + word.byteLength)
      = .ok ⟨⟨front.byteLength, 1 + front.count '\n', 1 + front.lastLine.length⟩,
          ⟨front.byteLength + word.byteLength, 1 + front.count '\n',
            1 + front.lastLine.length + word.length⟩⟩ := by
  have hstart := position?_byteLength h
  rw [← List.append_assoc] at h
  have hstop := position?_byteLength h
  rw [Text.byteLength_append, List.count_append, List.count_eq_zero.mpr hline,
    Text.lastLine_append hline, List.length_append, List.append_assoc, Nat.add_zero,
    ← Nat.add_assoc] at hstop
  rw [span?, hstart, hstop]
  exact if_pos (Nat.le_add_right _ _)

end LineMap

namespace Words

/-! ## Matches of a text -/

/-- What a resolved span says about a match of a text. -/
structure Match.Shows (m : Match) (text : Text) (map : LineMap) (span : Span) : Prop where
  offset_eq : span.start.offset = m.start ∧ span.stop.offset = m.stop
  line_eq : span.stop.line = span.start.line
  /-- Columns are as far apart as offsets. -/
  column_eq : span.stop.column = span.start.column + (m.stop - m.start)
  slice_eq : span.slice? text = .ok m.text
  /-- The word is what its columns cover of its line. -/
  exists_line : ∃ line, map.line? span.start.line = some line ∧ 1 ≤ span.start.column ∧
    (line.drop (span.start.column - 1)).take (span.stop.column - span.start.column) = m.text
  label_eq : span.label = s!"{span.start.line}:{span.start.column}-{span.stop.column}"

private theorem exists_shows_classify {e : Vocabulary.Entry} (he : e ∈ Vocabulary.table)
    {front back : Text} (h : (front ++ (e.word ++ back)).byteLength + 1 < lineBound) :
    ∃ span, ((⟨front.byteLength, e.word⟩ : Run).classify e).resolve?
        (.ofText (front ++ (e.word ++ back))) = .ok span ∧
      ((⟨front.byteLength, e.word⟩ : Run).classify e).Shows (front ++ (e.word ++ back))
        (.ofText (front ++ (e.word ++ back))) span := by
  have hne := Vocabulary.word_ne_nil_of_mem_table he
  have hnewline : '\n' ∉ e.word := Vocabulary.not_mem_of_mem_table he isWordChar_newline
  have hreturn : '\r' ∉ e.word := Vocabulary.not_mem_of_mem_table he isWordChar_return
  have hsize : e.word.byteLength = e.word.length :=
    Text.byteLength_eq_length fun _ hc ↦ Vocabulary.utf8Size_of_mem_table he hc
  obtain ⟨line, hline, htake⟩ := LineMap.exists_line?_word hne hnewline hreturn
  have hslice : Text.slice? (front ++ (e.word ++ back)) front.byteLength
      (front.byteLength + e.word.byteLength) = some e.word :=
    Text.slice?_eq_some_iff.mpr ⟨front, back, rfl, rfl, rfl⟩
  refine ⟨_, LineMap.span?_word hnewline h, ⟨⟨rfl, rfl⟩, rfl, ?_, ?_, ⟨line, hline, ?_, ?_⟩, ?_⟩⟩
  · simp only [Run.classify, Nat.add_sub_cancel_left, hsize]
  · simp only [Span.slice?, hslice, Run.classify]
  · exact Nat.le_add_right 1 _
  · rw [Nat.add_sub_cancel_left, Nat.add_sub_cancel_left]
    exact htake
  · exact if_pos rfl

/-- **Matches point at their own text.** Whatever the choices of the user are, each match of a walk
over a text resolves to a span on one line, which shows the word in the text and on the line; the
text has to be shorter than lines and columns can count. -/
theorem Classifier.shows_scan_standard (p : WordPreferences) :
    ∃ c : Classifier, (Classifier.standard p).value = .ok c ∧
      ∀ text : Text, text.byteLength + 1 < lineBound → ∀ m ∈ (c.scan text).drain.1,
        ∃ span, m.resolve? (.ofText text) = .ok span ∧ m.Shows text (.ofText text) span := by
  refine ⟨⟨.standard, p⟩, value_standard p, fun text h m hm ↦ ?_⟩
  rw [drain_scan] at hm
  obtain ⟨e, he, front, back, rfl, -, -, rfl⟩ := mem_filterMap_runs_iff.mp hm
  exact exists_shows_classify he h

/-- Behind a character of two bytes columns are smaller than offsets, and the carriage return
behind the word is not in the way. -/
theorem Classifier.shows_scan_standard_behind_micro :
    Text.byteLength "µ: DATASET\r\n".toList + 1 < lineBound ∧
      ∃ c : Classifier, (Classifier.standard ⟨true, 100⟩).value = .ok c ∧
        ⟨"DATASET".toList, 4, 11, .keyword, none⟩ ∈ (c.scan "µ: DATASET\r\n".toList).drain.1 ∧
        ∃ span, Match.resolve? ⟨"DATASET".toList, 4, 11, .keyword, none⟩
            (.ofText "µ: DATASET\r\n".toList) = .ok span ∧
          Match.Shows ⟨"DATASET".toList, 4, 11, .keyword, none⟩ "µ: DATASET\r\n".toList
            (.ofText "µ: DATASET\r\n".toList) span ∧
          span.label = "1:4-11" := by
  obtain ⟨c, hc, hshows⟩ := shows_scan_standard ⟨true, 100⟩
  have hsize : Text.byteLength "µ: DATASET\r\n".toList + 1 < lineBound := by decide
  have hmem : ⟨"DATASET".toList, 4, 11, .keyword, none⟩
      ∈ (c.scan "µ: DATASET\r\n".toList).drain.1 := by
    obtain rfl := Except.ok.inj ((value_standard _).symm.trans hc)
    rw [drain_scan]
    decide +kernel
  obtain ⟨span, hspan, h⟩ := hshows _ hsize _ hmem
  refine ⟨hsize, c, hc, hmem, span, hspan, h, ?_⟩
  obtain rfl : ⟨⟨4, 1, 4⟩, ⟨11, 1, 11⟩⟩ = span := Except.ok.inj (hspan.symm.trans rfl).symm
  rfl

end Words

end DumpMode
