import DumpMode.Document.Ranges
import DumpMode.Editor.Adapter
import DumpMode.Proofs.Folding.Truncation
import DumpMode.Proofs.Words.Matches

/-!
# The range of a scan

All numbers of a snapshot are bounded by the size of the text: words and braces stand inside of it,
and a level rises by at most one with each brace, so there are never more regions open than bytes
have been read. If the size of the text is within range, so are they.
-/

namespace DumpMode

namespace Folding

/-- **The level never exceeds the offset**, since a brace is no more than one level and no less than
one byte. -/
theorem Reading.depth_le_offset_of_mem_bracesAhead {skipQuoted : Bool} {r : Reading}
    (hr : r.depth ≤ r.offset) {text : Text} {b : Brace}
    (hb : b ∈ r.bracesAhead skipQuoted text) : b.depth ≤ b.offset := by
  induction text generalizing r with
  | nil => cases hb
  | cons c text ih =>
    rcases List.mem_append.mp hb with hb | hb
    · obtain ⟨opens, -, rfl⟩ := Option.map_eq_some_iff.mp (Option.mem_toList.mp hb)
      exact hr
    · refine ih ?_ hb
      have hsize := c.utf8Size_pos
      rw [step_eq]
      rcases r.quoting.opens? skipQuoted c with - | (- | -)
      · exact Nat.le_add_right_of_le hr
      · exact Nat.le_add_right_of_le (Nat.le_trans (Nat.sub_le _ _) hr)
      · exact Nat.add_le_add hr hsize

private theorem Folds.exists_brace_of_mem_regions {bs : List Brace} {r : Region}
    (hr : r ∈ (ofBraces bs).regions) : ∃ b ∈ bs, b.offset = r.opening ∧ b.depth = r.depth := by
  induction bs with
  | nil => cases hr
  | cons b bs ih =>
    rw [ofBraces_cons] at hr
    cases hopens : b.opens with
    | false =>
      rw [add_of_closes hopens] at hr
      obtain ⟨b', hb', h⟩ := ih hr
      exact ⟨b', List.mem_cons_of_mem _ hb', h⟩
    | true =>
      rw [add_of_opens hopens] at hr
      rcases List.mem_cons.mp hr with rfl | hr
      · exact ⟨b, List.mem_cons_self, rfl, rfl⟩
      · obtain ⟨b', hb', h⟩ := ih hr
        exact ⟨b', List.mem_cons_of_mem _ hb', h⟩

private theorem Folds.fits_ofText (skipQuoted : Bool) {text : Text}
    (h : text.byteLength ≤ offsetBound) :
    (ofText skipQuoted text).Fits where
  regions r hr := by
    obtain ⟨b, hb, hopening, hdepth⟩ := exists_brace_of_mem_regions hr
    have hlt := offset_lt_of_mem_braces hb
    have hle : b.depth ≤ b.offset := by
      rw [braces_eq] at hb
      exact Reading.depth_le_offset_of_mem_bracesAhead (Nat.le_refl _) hb
    refine ⟨by omega, fun c hc ↦ ?_, by omega⟩
    obtain ⟨b', hb', rfl⟩ := exists_offset_eq_closing hr hc
    exact Nat.lt_of_lt_of_le (offset_lt_of_mem_braces hb') h
  unbalanced_lt c hc := by
    obtain ⟨b, hb, rfl⟩ := exists_offset_eq_of_mem_unbalanced hc
    exact Nat.lt_of_lt_of_le (offset_lt_of_mem_braces hb) h

end Folding

private theorem Words.Lexicon.stop_le_of_mem_matchesIn {text : Text} {m : Match}
    (hm : m ∈ Lexicon.standard.matchesIn text) : m.start ≤ m.stop ∧ m.stop ≤ text.byteLength := by
  obtain ⟨r, hr, hstart, hstop⟩ := exists_run_of_mem_matchesIn hm
  obtain ⟨front, back, rfl, hfront, -⟩ := mem_runs_iff.mp hr
  rw [Text.byteLength_append, Text.byteLength_append]
  omega

/-- **A snapshot is within range** if the size of its text is. -/
theorem Editor.Adapter.fits_scan (p : WordPreferences) (q : FoldPreferences) (r : Registration)
    {text : Text} (h : text.byteLength < offsetBound) :
    ((⟨⟨.standard, p⟩, q, r⟩ : Adapter).scan text).value.Fits where
  tags t ht := by
    obtain ⟨m, hm, rfl⟩ := List.mem_map.mp ht
    obtain ⟨hstart, hstop⟩ := Words.Lexicon.stop_le_of_mem_matchesIn hm
    exact ⟨by change m.start < _; omega, by change m.stop < _; omega⟩
  folds := (Folding.Folds.fits_ofText q.skipQuotedStrings (Nat.le_of_lt h)).regions
  unbalanced_lt := (Folding.Folds.fits_ofText q.skipQuotedStrings (Nat.le_of_lt h)).unbalanced_lt

end DumpMode
