import DumpMode.Proofs.Columns
import DumpMode.Proofs.Folding.Inner

/-!
# Regions that do not fit their text

A region may be used with a text that it was not found in: it was made by hand, read from a
document, or kept while the text was changed. Nothing is then known of its two offsets, neither how
they are ordered nor how they lie to the end of the text.

What a region contains and what its span covers agree all the same (`Region.Extends`), because a
span that would end before it starts is taken to be empty. A region without a closing brace contains
every offset behind its start, and its span the ones that the text has; so a look-up at an offset of
the text may be made by spans.

The inner text is less robust. Its start is moved back to the end of the text if it lies behind it,
but its end is not, so a region that ends behind the text has no inner text at all
(`innerText?_of_not_splits`).
-/

namespace DumpMode

namespace Text

/-! ## Parts between offsets -/

variable {text : Text}

private theorem isBoundary_min {offset : Nat} (h : ¬text.Splits offset) :
    text.isBoundary (min offset text.byteLength) = true := by
  by_cases hle : offset ≤ text.byteLength
  · rw [Nat.min_eq_left hle]
    rwa [splits_iff hle, Bool.not_eq_false] at h
  · rw [Nat.min_eq_right (Nat.not_le.mp hle).le]
    exact text.isBoundary_byteLength

/-- Between two boundaries in order there is a part of the text. -/
private theorem exists_slice? {start stop : Nat} (hle : start ≤ stop)
    (hstart : text.isBoundary start = true) (hstop : text.isBoundary stop = true) :
    ∃ part, text.slice? start stop = some part := by
  obtain ⟨front, back, rfl, rfl⟩ := isBoundary_iff.mp hstart
  rw [isBoundary_append hle] at hstop
  obtain ⟨part, rest, rfl, hpart⟩ := isBoundary_iff.mp hstop
  exact ⟨part, slice?_eq_some_iff.mpr ⟨front, rest, rfl, rfl, by omega⟩⟩

private theorem slice?_eq_none {start stop : Nat} (h : text.byteLength < stop) :
    text.slice? start stop = none := by
  rw [Option.eq_none_iff_forall_not_mem]
  intro part hpart
  obtain ⟨front, back, rfl, hfront, hstop⟩ := slice?_eq_some_iff.mp hpart
  rw [byteLength_append, byteLength_append] at h
  omega

end Text

namespace Folding

namespace Region

/-! ## Spans and what they cover -/

/-- Whether there is an offset behind the closing brace, so that a span can end there. -/
def EndsInRange (r : Region) : Prop := ∀ c ∈ r.closing, c + 1 < offsetBound

/-- What makes a span the span of a region in a text of some size. -/
structure Extends (r : Region) (size : Nat) (span : Span) : Prop where
  start_eq : span.start.offset = r.opening
  start_le_stop : span.start.offset ≤ span.stop.offset
  /-- Of the offsets of the text it covers those that the region contains. -/
  containsOffset_iff : ∀ offset < size,
    (span.containsOffset offset = true ↔ r.contains offset = true)
  /-- If the region is closed, then so it does of all offsets. -/
  containsOffset_iff_of_isClosed : r.isClosed = true → ∀ offset,
    (span.containsOffset offset = true ↔ r.contains offset = true)

/-- Whether an offset is covered by the span of a region in a text of some size. -/
def spans (r : Region) (size offset : Nat) : Bool :=
  match r.span? size with
  | .ok span => span.containsOffset offset
  | .error _ => false

variable {r : Region}

/-- **Every region has a span**, whatever its offsets are, and the two agree on what is in them. -/
theorem exists_extends (h : r.EndsInRange) (size : Nat) :
    ∃ span, r.span? size = .ok span ∧ r.Extends size span := by
  cases hclosing : r.closing with
  | none =>
    refine ⟨_, span?_of_closing_eq_none hclosing size, rfl, Nat.le_max_right _ _, ?_, ?_⟩
    · intro offset hoffset
      -- behind the last offset of the text, the region goes on and the span does not
      have hlt : offset < max size r.opening := Nat.lt_of_lt_of_le hoffset (Nat.le_max_left _ _)
      simp [contains_iff, hclosing, Span.atOffsets, Position.atOffset, Span.containsOffset_iff, hlt]
    · intro hclosed
      simp [isClosed, hclosing] at hclosed
  | some c =>
    have hcovers : ∀ offset,
        ((Span.atOffsets r.opening (max (c + 1) r.opening)).containsOffset offset = true ↔
          r.contains offset = true) := by
      intro offset
      simp only [contains_iff, hclosing, Span.atOffsets, Position.atOffset,
        Span.containsOffset_iff, Option.some.injEq, forall_eq']
      omega
    exact ⟨_, span?_of_closing_eq_some hclosing (h c hclosing) size, rfl, Nat.le_max_right _ _,
      fun offset _ ↦ hcovers offset, fun _ ↦ hcovers⟩

private theorem spans_eq_contains (h : r.EndsInRange) {size offset : Nat}
    (hoffset : offset < size) : r.spans size offset = r.contains offset := by
  obtain ⟨span, hspan, hextends⟩ := exists_extends h size
  rw [spans, hspan, Bool.eq_iff_iff]
  exact hextends.containsOffset_iff offset hoffset

end Region

/-- **Containing and covering agree.** The span of a region that can have one starts at the opening
brace, does not end before it, and covers of each text what the region contains. So, in whatever
order some regions are, what is looked up at an offset of the text is the last of them whose span
covers it. -/
theorem regionAt?_eq_getLast?_spans (size : Nat) :
    (∀ r : Region, r.EndsInRange → ∃ span, r.span? size = .ok span ∧ r.Extends size span) ∧
      ∀ f : Folds, (∀ r ∈ f.regions, r.EndsInRange) → ∀ offset < size,
        f.regionAt? offset = (f.regions.filter fun r ↦ r.spans size offset).getLast? := by
  refine ⟨fun r hr ↦ Region.exists_extends hr size, ?_⟩
  intro f hf offset hoffset
  have hspans : f.regions.filter (fun r ↦ r.spans size offset)
      = f.regions.filter fun r ↦ r.contains offset :=
    List.filter_congr fun r hr ↦ Region.spans_eq_contains (hf r hr) hoffset
  rw [hspans, List.getLast?_filter, Folds.regionAt?]

/-- Regions that are not in order: one goes on to the end, one ends behind the text, one ends before
it begins, and one lies behind the text altogether. -/
theorem regionAt?_eq_getLast?_spans_out_of_order :
    let f : Folds := ⟨[⟨4, none, 0⟩, ⟨2, some 9, 3⟩, ⟨8, some 3, 1⟩, ⟨30, some 40, 0⟩], []⟩
    (∀ r ∈ f.regions, r.EndsInRange) ∧ 5 < 6 ∧
      f.regionAt? 5 = (f.regions.filter fun r ↦ r.spans 6 5).getLast? ∧
      f.regionAt? 5 = some ⟨2, some 9, 3⟩ := by
  intro f
  have hrange : ∀ r ∈ f.regions, r.EndsInRange := by
    simp [f, Region.EndsInRange, offsetBound]
  exact ⟨hrange, by decide, (regionAt?_eq_getLast?_spans 6).2 f hrange 5 (by decide), by decide⟩

/-! ## Inner texts -/

namespace Region

variable {r : Region} {text : Text}

/-- Where the inner text of a region starts if all offsets are moved back to the end of the text. -/
def innerStart (r : Region) (text : Text) : Nat := min (r.opening + 1) text.byteLength

/-- Where the inner text of a region ends if all offsets are moved back to the end of the text. An
end before the start counts as the start. -/
def innerStop (r : Region) (text : Text) : Nat :=
  min (max (r.closing.getD text.byteLength) (r.opening + 1)) text.byteLength

private theorem innerStart_le_innerStop (r : Region) (text : Text) :
    r.innerStart text ≤ r.innerStop text := by
  rw [innerStart, innerStop]
  omega

private theorem max_innerStart_eq (h : r.closing.getD text.byteLength ≤ text.byteLength) :
    max (r.closing.getD text.byteLength) (r.innerStart text) = r.innerStop text := by
  rw [innerStart, innerStop]
  omega

private theorem isBoundary_innerStop (hopening : ¬text.Splits (r.opening + 1))
    (hclosing : ∀ c ∈ r.closing, ¬text.Splits c) : text.isBoundary (r.innerStop text) = true := by
  apply Text.isBoundary_min
  -- the end is the closing brace, the end of the text, or the start
  by_cases hle : r.closing.getD text.byteLength ≤ r.opening + 1
  · rwa [Nat.max_eq_right hle]
  · rw [Nat.max_eq_left (Nat.not_le.mp hle).le]
    cases hc : r.closing with
    | none => exact fun hsplits ↦ Nat.lt_irrefl _ hsplits.1
    | some c => exact hclosing c hc

/-- **The inner text of any region.** Unless one of its ends is inside a character, the part of the
text between the two ends, moved back to the end of the text, is there; and it is the inner text of
the region, except that a region which ends behind the text has none. -/
theorem innerText?_of_not_splits (h : r.opening + 1 < offsetBound)
    (hopening : ¬text.Splits (r.opening + 1)) (hclosing : ∀ c ∈ r.closing, ¬text.Splits c) :
    ∃ inner, text.slice? (r.innerStart text) (r.innerStop text) = some inner ∧
      ((∀ c ∈ r.closing, c ≤ text.byteLength) → r.innerText? text = .ok inner) ∧
      ∀ c ∈ r.closing, text.byteLength < c → r.innerText? text = .error .badSlice := by
  obtain ⟨inner, hinner⟩ := Text.exists_slice? (r.innerStart_le_innerStop text)
    (Text.isBoundary_min hopening) (isBoundary_innerStop hopening hclosing)
  refine ⟨inner, hinner, ?_, ?_⟩
  · intro hle
    have hgetD : r.closing.getD text.byteLength ≤ text.byteLength := by
      cases hc : r.closing with
      | none => exact Nat.le_refl _
      | some c => exact hle c hc
    rw [innerText?_eq_slice? h, ← innerStart, max_innerStart_eq hgetD, hinner]
  · intro c hc hlt
    have hstop : text.byteLength < max (r.closing.getD text.byteLength) (r.innerStart text) := by
      rw [Option.mem_def.mp hc, Option.getD_some]
      exact Nat.lt_of_lt_of_le hlt (Nat.le_max_left _ _)
    rw [innerText?_eq_slice? h, ← innerStart, Text.slice?_eq_none hstop]

/-- A region that begins behind the text and ends, before that, with the text. -/
theorem innerText?_of_not_splits_behind_text :
    let text : Text := ['a', '\x7b', 'é']
    6 + 1 < offsetBound ∧ ¬text.Splits (6 + 1) ∧ (∀ c ∈ some 4, ¬text.Splits c) ∧
      Region.innerText? ⟨6, some 4, 0⟩ text = .ok [] := by
  intro text
  have hclosing : ∀ c ∈ some 4, ¬text.Splits c := by
    rintro c ⟨⟩
    decide
  have hle : ∀ c ∈ some 4, c ≤ text.byteLength := by
    rintro c ⟨⟩
    decide
  obtain ⟨inner, hinner, hok, -⟩ :=
    innerText?_of_not_splits (r := ⟨6, some 4, 0⟩) (by decide) (by decide) hclosing
  obtain rfl : [] = inner := Option.some.inj hinner
  exact ⟨by decide, by decide, hclosing, hok hle⟩

/-- A text that was cut off before the closing brace of a region. No end of the region is inside a
character, and between them is one character of the text. -/
theorem innerText?_of_cut_off :
    let text : Text := ['a', '\x7b', 'é']
    1 + 1 < offsetBound ∧ ¬text.Splits (1 + 1) ∧ (∀ c ∈ some 6, ¬text.Splits c) ∧
      text.slice? (min (1 + 1) text.byteLength) (min (max 6 (1 + 1)) text.byteLength)
        = some ['é'] ∧
      Region.innerText? ⟨1, some 6, 0⟩ text = .error .badSlice := by
  refine ⟨by decide, by decide, ?_, by decide, by decide⟩
  rintro c ⟨⟩
  decide

end Region

end Folding

end DumpMode
