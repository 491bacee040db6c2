import DumpMode.Proofs.Folding.Inner
import DumpMode.Proofs.LineTexts

/-!
# Regions on lines

A region is folded on lines if it ends on a later line than it begins. A region without an end
reaches to the end of the text, and the last line of the map is the line of that offset; so the
lines of all regions are lines of offsets (`lastLine_ofText`), and from the opening brace to the
end of the region the line goes up by one for each newline of the inner text (`lastLine_eq`).

As lines grow with offsets, regions lie on their lines as they lie in the text: one inside another
begins and ends on lines of the other, and one behind another begins on no earlier line than the
other ends.
-/

namespace DumpMode

private theorem Text.exists_between {front behind before back : Text} {c d : Char}
    (h : front ++ c :: behind = before ++ d :: back)
    (hlt : front.byteLength < before.byteLength) :
    ∃ inner, before = front ++ c :: inner ∧ behind = inner ++ d :: back := by
  obtain ⟨rest, rfl, hrest⟩ | ⟨rest, rfl, -⟩ := List.append_eq_append_iff.mp h
  · cases rest with
    | nil =>
      rw [List.append_nil] at hlt
      exact absurd hlt (Nat.lt_irrefl _)
    | cons _ inner =>
      obtain ⟨rfl, hbehind⟩ := List.cons.inj hrest
      exact ⟨inner, rfl, hbehind⟩
  · rw [byteLength_append] at hlt
    omega

/-! ## Lines of offsets in order -/

namespace LineMap

variable {text : Text} (h : text.byteLength + 1 < lineBound)

include h

private theorem lineOf_mono {a b : Nat} (hab : a ≤ b) :
    (ofText text).lineOf a ≤ (ofText text).lineOf b := by
  rw [lineOf_ofText h, lineOf_ofText h]
  exact Nat.add_le_add_left (text.newlinesBefore_mono hab) 1

private theorem lineCount_mod_eq_lineOf :
    (ofText text).lineCount % lineBound = (ofText text).lineOf text.byteLength := by
  have hcount : (ofText text).lineCount = 1 + text.newlinesBefore text.byteLength := by
    rw [Text.newlinesBefore_of_byteLength_le le_rfl]
    exact length_lines_ofText text
  have hle := text.newlinesBefore_le text.byteLength
  rw [lineOf_ofText h, hcount, Nat.mod_eq_of_lt (by omega)]

end LineMap

namespace Folding

/-! ## Where regions fall apart -/

/-- Every region of a text has its braces there, and the inner text between them. -/
private theorem exists_frames {skipQuoted : Bool} {text : Text} {r : Region}
    (hr : r ∈ (Folds.ofText skipQuoted text).regions) :
    ∃ front inner back, r.Frames text front inner back := by
  obtain ⟨b, hb, hopens, hoffset⟩ := Folds.exists_offset_eq_opening hr
  obtain ⟨front, behind, rfl, hfront, -⟩ := exists_mem_braces_iff.mp ⟨b, hb, hopens, hoffset⟩
  cases hclosing : r.closing with
  | none =>
    refine ⟨front, behind, [], ?_, hfront.symm, by simp [hclosing], fun _ ↦ rfl⟩
    simp [Region.covered, Region.isClosed, hclosing, braceChar]
  | some c =>
    have hlt := Folds.opening_lt_closing (pairwise_braces skipQuoted _) hr hclosing
    obtain ⟨before, back, htext, hbefore, -⟩ := (mem_closings_iff skipQuoted _).mp
      (Or.inl (List.mem_filterMap.mpr ⟨r, hr, hclosing⟩))
    obtain ⟨inner, rfl, rfl⟩ := Text.exists_between htext (by rwa [hfront, hbefore])
    refine ⟨front, inner, back, ?_, hfront.symm, ?_, by simp [hclosing]⟩
    · simp [Region.covered, Region.isClosed, hclosing, braceChar]
    · rintro d hd
      obtain rfl : c = d := Option.some.inj (hclosing.symm.trans hd)
      rw [← hbefore, ← hfront, Text.byteLength_append, Text.byteLength_cons, Nat.add_assoc]
      rfl

/-! ## Lines of a region -/

namespace Region

/-- The last line of a region; without a closing brace it is the last line of all. -/
def lastLine (r : Region) (map : LineMap) : Nat :=
  (r.lineRange map).endLine.getD (map.lineCount % lineBound)

private theorem Frames.newlinesBefore_stop {r : Region} {text front inner back : Text}
    (h : r.Frames text front inner back) :
    text.newlinesBefore (r.closing.getD text.byteLength)
      = text.newlinesBefore r.opening + inner.count '\n' := by
  have hsize : r.closing.getD text.byteLength = (front ++ '\x7b' :: inner).byteLength := by
    rw [h.closing_getD, h.opening_eq, Text.byteLength_append, Text.byteLength_cons, Nat.add_assoc]
    rfl
  have hstart : text.newlinesBefore r.opening = front.count '\n' := by
    rw [h.text_eq, h.opening_eq, Text.newlinesBefore_byteLength]
  have hbehind : text = front ++ '\x7b' :: inner
      ++ ((if r.isClosed then ['\x7d'] else []) ++ back) := by
    simp [h.text_eq, covered]
  rw [hstart, hsize, hbehind, Text.newlinesBefore_byteLength, List.count_append,
    List.count_cons_of_ne (by decide)]

variable {text : Text} (h : text.byteLength + 1 < lineBound)

include h

private theorem lastLine_ofText (r : Region) :
    r.lastLine (.ofText text) = (LineMap.ofText text).lineOf (r.closing.getD text.byteLength) := by
  rw [lastLine, lineRange]
  cases r.closing with
  | none => exact LineMap.lineCount_mod_eq_lineOf h
  | some c => rfl

/-- **A region covers one more line for each newline of its inner text.** -/
theorem Frames.lastLine_eq {r : Region} {front inner back : Text}
    (hframes : r.Frames text front inner back) :
    r.lastLine (.ofText text)
      = (r.lineRange (.ofText text)).startLine + inner.count '\n' := by
  rw [lastLine_ofText h, lineRange, LineMap.lineOf_ofText h, LineMap.lineOf_ofText h,
    hframes.newlinesBefore_stop, Nat.add_assoc]

private theorem Frames.isFoldable_iff {r : Region} {front inner back : Text}
    (hframes : r.Frames text front inner back) :
    r.isFoldable (.ofText text) = true ↔ '\n' ∈ inner := by
  have hlast := hframes.lastLine_eq h
  rw [lastLine] at hlast
  rw [isFoldable, decide_eq_true_eq, hlast, Nat.lt_add_right_iff_pos, List.count_pos_iff]

end Region

/-! ## All regions on their lines -/

/-- What a line map says about the regions of its text. -/
structure Folds.KeepsLines (f : Folds) (text : Text) (map : LineMap) : Prop where
  /-- A region covers one more line for each newline of its inner text, and folds on lines exactly
  if there is one. -/
  covers_lines : ∀ r ∈ f.regions, ∃ inner, r.innerText? text = .ok inner ∧
    r.lastLine map = (r.lineRange map).startLine + inner.count '\n' ∧
      (r.isFoldable map = true ↔ '\n' ∈ inner)
  /-- A region inside a closed one has its lines among those of the other. -/
  inside_lines : ∀ r ∈ f.regions, ∀ s ∈ f.regions, r.isClosed = true → s.Inside r →
    ∃ e ∈ (r.lineRange map).endLine, ∃ e' ∈ (s.lineRange map).endLine,
      (r.lineRange map).startLine ≤ (s.lineRange map).startLine ∧
        (s.lineRange map).startLine ≤ e' ∧ e' ≤ e
  /-- A region that ends before another one begins does so on lines as well. -/
  before_lines : ∀ r ∈ f.regions, ∀ s ∈ f.regions, ∀ c ∈ r.closing, c < s.opening →
    ∃ e ∈ (r.lineRange map).endLine, e ≤ (s.lineRange map).startLine

/-- **Regions keep their lines.** Whatever the choices of the user are, the lines of the regions of
a text follow from the newlines of their inner texts, and lie to each other as the regions do; the
text has to be shorter than lines can count. -/
theorem keepsLines_fold (p : FoldPreferences) {text : Text}
    (h : text.byteLength + 1 < lineBound) : (p.fold text).value.KeepsLines text (.ofText text) where
  covers_lines r hr := by
    obtain ⟨front, inner, back, hframes⟩ := exists_frames hr
    have hbound : text.byteLength < offsetBound :=
      Nat.lt_trans (Nat.lt_of_succ_lt h) (by decide)
    exact ⟨inner, hframes.innerText?_eq hbound, hframes.lastLine_eq h, hframes.isFoldable_iff h⟩
  inside_lines r hr s hs hclosed hinside := by
    obtain ⟨⟨hopening, -⟩, hclosing, hopen⟩ := hinside
    obtain ⟨c, hc⟩ := Option.isSome_iff_exists.mp hclosed
    cases hd : s.closing with
    | none => exact absurd (hc.symm.trans (hopen hd)) (by simp)
    | some d =>
      have hbegin := Folds.opening_lt_closing (pairwise_braces p.skipQuotedStrings text) hs hd
      have hend := (hclosing d hd).2 c hc
      simp only [Region.lineRange, hc, hd, Option.map_some, Option.mem_some_iff, exists_eq_left']
      exact ⟨LineMap.lineOf_mono h hopening.le, LineMap.lineOf_mono h hbegin.le,
        LineMap.lineOf_mono h hend.le⟩
  before_lines r _ s _ c hc hlt := by
    simp only [Region.lineRange, Option.mem_def.mp hc, Option.map_some, Option.mem_some_iff,
      exists_eq_left']
    exact LineMap.lineOf_mono h hlt.le

/-- A region on two lines with one on a single line inside it, and behind them a region without an
end; the text ends in a newline. -/
theorem keepsLines_fold_two_lines :
    Text.byteLength "\x7b\x7ba\x7d\r\n\x7d\x7b\n".toList + 1 < lineBound ∧
      (FoldPreferences.fold ⟨true, false⟩ "\x7b\x7ba\x7d\r\n\x7d\x7b\n".toList).value.KeepsLines
        "\x7b\x7ba\x7d\r\n\x7d\x7b\n".toList (.ofText "\x7b\x7ba\x7d\r\n\x7d\x7b\n".toList) ∧
      (FoldPreferences.fold ⟨true, false⟩ "\x7b\x7ba\x7d\r\n\x7d\x7b\n".toList).value.regions.map
        (fun r ↦ r.isFoldable (.ofText "\x7b\x7ba\x7d\r\n\x7d\x7b\n".toList))
          = [true, false, true] :=
  ⟨by decide, keepsLines_fold ⟨true, false⟩ (by decide), by decide⟩

end Folding

end DumpMode
