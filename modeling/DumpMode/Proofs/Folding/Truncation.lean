import DumpMode.Folding.Scanner
import DumpMode.Proofs.Folding.Concatenation

/-!
# Folding the beginning of a text

A text may be folded before all of it is there. What is found then is what folding the whole text
finds, as far as it lies in the part that was read: `Folds.truncate` takes off the rest, and leaves
a region without an end if its closing brace is taken off. No condition is put on the cut but that
it falls between two characters; it may lie inside a quoted string, or behind a backslash there.

The whole text is the part that was read with more braces behind it, and these only close regions
that have no end yet (`Folds.onto_eq`) and at offsets that are cut away again.
-/

namespace DumpMode.Folding

/-! ## Truncation -/

/-- What remains of a region if its text ends at an offset. -/
def Region.truncate (size : Nat) (r : Region) : Region :=
  { r with closing := r.closing.filter (· < size) }

/-- What remains of the regions of a text if it ends at an offset. -/
def Folds.truncate (size : Nat) (f : Folds) : Folds where
  regions := (f.regions.filter (·.opening < size)).map (Region.truncate size)
  unbalanced := f.unbalanced.filter (· < size)

namespace Folds

variable {f : Folds} {size : Nat}

private theorem exists_of_mem_truncate {r : Region} (hr : r ∈ (f.truncate size).regions) :
    ∃ s ∈ f.regions, s.truncate size = r := by
  obtain ⟨s, hs, htruncate⟩ := List.mem_map.mp hr
  exact ⟨s, List.mem_of_mem_filter hs, htruncate⟩

/-- A region that is closed in what remains was closed so before. -/
private theorem mem_of_mem_truncate {r : Region} (hr : r ∈ (f.truncate size).regions)
    (hclosed : r.isClosed = true) : r ∈ f.regions := by
  obtain ⟨s, hs, rfl⟩ := exists_of_mem_truncate hr
  obtain ⟨c, hc⟩ := Option.isSome_iff_exists.mp hclosed
  have hclosing : s.closing = some c := (Option.filter_eq_some_iff.mp hc).1
  have hsame : s.truncate size = s := by
    rw [Region.truncate, show s.closing.filter (· < size) = s.closing from hc.trans hclosing.symm]
  exact hsame.symm ▸ hs

/-! ## Braces behind the cut -/

variable {bs : List Brace}

private theorem truncate_closedBy {r : Region} (hr : r ∈ (ofBraces bs).regions)
    (hbs : ∀ b ∈ bs, b.offset < size) {closings : List Nat} (hclosings : ∀ c ∈ closings, size ≤ c)
    (opens : List Nat) : (r.closedBy opens closings).truncate size = r := by
  obtain ⟨opening, closing, depth⟩ := r
  cases closing with
  | none =>
    -- it is closed behind the cut, if at all
    have hnone : (closings[opens.reverse.idxOf opening]?).filter (· < size) = none := by
      rw [Option.filter_eq_none_iff]
      intro c hc
      have := hclosings c (List.mem_of_getElem? hc)
      simp only [decide_eq_true_eq]
      omega
    rw [Region.closedBy, if_pos rfl, Region.truncate, hnone]
  | some c =>
    obtain ⟨b, hb, rfl⟩ := exists_offset_eq_closing hr rfl
    have hkeep : (some b.offset).filter (· < size) = some b.offset :=
      Option.filter_some_pos (by simpa using hbs b hb)
    rw [Region.closedBy, if_neg (by simp), Region.truncate, hkeep]

theorem opening_closedBy (opens closings : List Nat) (r : Region) :
    (r.closedBy opens closings).opening = r.opening := by
  rw [Region.closedBy]
  split <;> rfl

/-- **Braces behind a cut leave no trace before it.** -/
theorem truncate_onto (hsorted : bs.Pairwise fun b c ↦ b.offset < c.offset)
    (hbs : ∀ b ∈ bs, b.offset < size) {g : Folds} (hregions : ∀ r ∈ g.regions, size ≤ r.opening)
    (hunbalanced : ∀ c ∈ g.unbalanced, size ≤ c) : (onto bs g).truncate size = ofBraces bs := by
  -- what was paired before the cut stays, what is put on top of it goes
  have hkeep : ∀ r ∈ (ofBraces bs).regions.map
      (Region.closedBy (ofBraces bs).openOffsets g.unbalanced), r.opening < size := by
    intro r hr
    obtain ⟨s, hs, rfl⟩ := List.mem_map.mp hr
    obtain ⟨b, hb, -, hoffset⟩ := exists_offset_eq_opening hs
    rw [opening_closedBy, ← hoffset]
    exact hbs b hb
  have hkeep' : ∀ c ∈ (ofBraces bs).unbalanced, c < size := by
    intro c hc
    obtain ⟨b, hb, rfl⟩ := exists_offset_eq_of_mem_unbalanced hc
    exact hbs b hb
  have hdrop : g.regions.filter (fun r ↦ decide (r.opening < size)) = [] :=
    List.filter_eq_nil_iff.mpr fun r hr ↦ by simpa using hregions r hr
  have hdrop' : (g.unbalanced.drop (ofBraces bs).openOffsets.length).filter
      (fun c ↦ decide (c < size)) = [] :=
    List.filter_eq_nil_iff.mpr fun c hc ↦ by simpa using hunbalanced c (List.mem_of_mem_drop hc)
  rw [onto_eq hsorted, truncate, List.filter_append, List.filter_append, hdrop, hdrop',
    List.append_nil, List.append_nil, List.filter_eq_self.mpr (by simpa using hkeep),
    List.filter_eq_self.mpr (by simpa using hkeep'), List.map_map]
  have hsame : ∀ r ∈ (ofBraces bs).regions, (Region.truncate size ∘
      Region.closedBy (ofBraces bs).openOffsets g.unbalanced) r = r :=
    fun r hr ↦ truncate_closedBy hr hbs hunbalanced _
  rw [List.map_congr_left hsame, List.map_id']

end Folds

/-! ## The beginning of a text -/

theorem offset_lt_of_mem_braces {skipQuoted : Bool} {front : Text} {b : Brace}
    (hb : b ∈ braces skipQuoted front) : b.offset < front.byteLength := by
  obtain ⟨front', back, rfl, hoffset, -⟩ := exists_mem_braces_iff.mp ⟨b, hb, rfl, rfl⟩
  have := (braceChar b.opens).utf8Size_pos
  rw [Text.byteLength_append, Text.byteLength_cons]
  omega

private theorem exists_braces_append (skipQuoted : Bool) (front back : Text) :
    ∃ cs, braces skipQuoted (front ++ back) = braces skipQuoted front ++ cs ∧
      ∀ c ∈ cs, front.byteLength ≤ c.offset := by
  refine ⟨(Reading.start.read skipQuoted front).bracesAhead skipQuoted back, ?_, fun c hc ↦ ?_⟩
  · rw [braces_eq, braces_eq, Reading.bracesAhead_append]
  · have hle := Reading.offset_le_of_mem_bracesAhead hc
    rw [Reading.read_eq] at hle
    exact (Nat.zero_add _).symm.trans_le hle

theorem ofText_append_eq_onto (skipQuoted : Bool) (front back : Text) :
    ∃ g : Folds, Folds.ofText skipQuoted (front ++ back)
        = Folds.onto (braces skipQuoted front) g ∧
      (∀ r ∈ g.regions, front.byteLength ≤ r.opening) ∧
      ∀ c ∈ g.unbalanced, front.byteLength ≤ c := by
  obtain ⟨cs, hcs, hbehind⟩ := exists_braces_append skipQuoted front back
  refine ⟨Folds.ofBraces cs, ?_, fun r hr ↦ ?_, fun c hc ↦ ?_⟩
  · rw [Folds.ofText, hcs, Folds.ofBraces_append]
  · obtain ⟨b, hb, -, hoffset⟩ := Folds.exists_offset_eq_opening hr
    exact hoffset ▸ hbehind b hb
  · obtain ⟨b, hb, rfl⟩ := Folds.exists_offset_eq_of_mem_unbalanced hc
    exact hbehind b hb

/-- **Folding the beginning of a text** finds what folding the whole text finds, up to the cut. So
if a text grows, closed regions stay as they are, no depth changes, and closing braces without a
partner stay without one. -/
theorem fold_slice (p : FoldPreferences) {text : Text} {size : Nat}
    (h : Text.isBoundary size text = true) :
    ∃ front, Text.slice? text 0 size = some front ∧
      (p.fold front).value = (p.fold text).value.truncate size ∧
      (∀ r ∈ (p.fold front).value.regions, r.isClosed = true →
        r ∈ (p.fold text).value.regions) ∧
      (∀ r ∈ (p.fold front).value.regions, ∃ s ∈ (p.fold text).value.regions,
        s.opening = r.opening ∧ s.depth = r.depth) ∧
      (p.fold front).value.unbalanced <+: (p.fold text).value.unbalanced := by
  obtain ⟨front, back, rfl, rfl⟩ := Text.isBoundary_iff.mp h
  obtain ⟨g, hfold, hregions, hunbalanced⟩ :=
    ofText_append_eq_onto p.skipQuotedStrings front back
  have hsorted := pairwise_braces p.skipQuotedStrings front
  have htruncate : (p.fold front).value
      = (p.fold (front ++ back)).value.truncate front.byteLength := by
    change Folds.ofText _ front = (Folds.ofText _ (front ++ back)).truncate _
    rw [hfold, Folds.truncate_onto hsorted (fun _ ↦ offset_lt_of_mem_braces) hregions hunbalanced]
    rfl
  refine ⟨front, ?_, htruncate, fun r hr hclosed ↦ ?_, fun r hr ↦ ?_, ?_⟩
  · exact Text.slice?_eq_some_iff.mpr ⟨[], back, rfl, rfl, Nat.zero_add _⟩
  · exact Folds.mem_of_mem_truncate (htruncate ▸ hr) hclosed
  · obtain ⟨s, hs, rfl⟩ := Folds.exists_of_mem_truncate (htruncate ▸ hr)
    exact ⟨s, hs, rfl, rfl⟩
  · change (Folds.ofText _ front).unbalanced <+: (Folds.ofText _ (front ++ back)).unbalanced
    rw [hfold, Folds.onto_eq hsorted]
    exact List.prefix_append _ _

/-- The cut is behind a backslash in a string; the quote that it takes along in the whole text is
cut away. -/
theorem fold_slice_behind_backslash :
    Text.isBoundary 5 "\x7b\x7d\x7b\"\\\"\x7d\"\x7d".toList = true ∧
      ∃ front, Text.slice? "\x7b\x7d\x7b\"\\\"\x7d\"\x7d".toList 0 5 = some front ∧
        ((⟨true, false⟩ : FoldPreferences).fold front).value
          = ⟨[⟨0, some 1, 0⟩, ⟨2, none, 0⟩], []⟩ := by
  have hcut : Text.isBoundary 5 "\x7b\x7d\x7b\"\\\"\x7d\"\x7d".toList = true := by decide
  obtain ⟨front, hslice, hfold, -⟩ := fold_slice ⟨true, false⟩ hcut
  exact ⟨hcut, front, hslice, hfold.trans (by decide)⟩

end DumpMode.Folding
