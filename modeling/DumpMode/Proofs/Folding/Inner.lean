import DumpMode.Proofs.Folding.Nesting
import DumpMode.Proofs.Folding.Partners
import DumpMode.Proofs.Folding.Truncation

/-!
# The text inside a region

The text between the braces of a region, folded alone, has the regions that lie inside the region,
and no closing brace of it is left over. Two cuts lead there. Behind its opening brace the text is
read as if it began there, since braces that count stand outside of strings; so the regions behind
the brace are those of the text behind it, folded alone, at other offsets and depths
(`exists_behind_opening`). And the region ends at the first closing brace that the text behind it
leaves over. What stands before that brace folds alone as it does in the longer text, because no
region reaches across a brace that is left over (`exists_before_unbalanced`).
-/

namespace DumpMode.Folding

/-! ## What a region covers -/

private theorem nextOffset?_of_lt {offset : Nat} (h : offset + 1 < offsetBound) :
    nextOffset? offset = .ok (offset + 1) := if_pos h

namespace Region

theorem span?_of_closing_eq_none {r : Region} (h : r.closing = none) (size : Nat) :
    r.span? size = .ok (.atOffsets r.opening (max size r.opening)) := by
  simp only [span?, h]
  exact if_pos (Nat.le_max_right size r.opening)

theorem span?_of_closing_eq_some {r : Region} {c : Nat} (h : r.closing = some c)
    (hc : c + 1 < offsetBound) (size : Nat) :
    r.span? size = .ok (.atOffsets r.opening (max (c + 1) r.opening)) := by
  simp only [span?, h, nextOffset?_of_lt hc]
  exact if_pos (Nat.le_max_right (c + 1) r.opening)

theorem innerText?_eq_slice? {r : Region} (h : r.opening + 1 < offsetBound) (text : Text) :
    r.innerText? text =
      match text.slice? (min (r.opening + 1) text.byteLength)
        (max (r.closing.getD text.byteLength) (min (r.opening + 1) text.byteLength)) with
      | some inner => .ok inner
      | none => .error .badSlice := by
  rw [innerText?, nextOffset?_of_lt h]
  rfl

/-- The inner text of a region with the braces around it. -/
def covered (r : Region) (inner : Text) : Text :=
  '\x7b' :: (inner ++ if r.isClosed then ['\x7d'] else [])

private theorem byteLength_covered_of_none {r : Region} (h : r.closing = none) (inner : Text) :
    (r.covered inner).byteLength = inner.byteLength + 1 := by
  have hcovered : r.covered inner = '\x7b' :: inner := by simp [covered, isClosed, h]
  rw [hcovered, Text.byteLength_cons, Nat.add_comm]
  rfl

private theorem byteLength_covered_of_some {r : Region} {c : Nat} (h : r.closing = some c)
    (inner : Text) : (r.covered inner).byteLength = inner.byteLength + 2 := by
  have hcovered : r.covered inner = '\x7b' :: (inner ++ ['\x7d']) := by simp [covered, isClosed, h]
  rw [hcovered, Text.byteLength_cons, Text.byteLength_append, Nat.add_comm]
  rfl

private theorem byteLength_covered_pos (r : Region) (inner : Text) :
    0 < (r.covered inner).byteLength :=
  Nat.add_pos_left Nat.one_pos _

/-- How a text falls apart at a region: what stands before it, what it covers, and what stands
behind it, which is nothing if it has no end. -/
structure Frames (r : Region) (text front inner back : Text) : Prop where
  text_eq : text = front ++ (r.covered inner ++ back)
  opening_eq : r.opening = front.byteLength
  closing_eq : ∀ c ∈ r.closing, c = r.opening + 1 + inner.byteLength
  back_eq_nil : r.closing = none → back = []

namespace Frames

variable {r : Region} {text front inner back : Text} (h : r.Frames text front inner back)

include h

private theorem slice?_inner :
    Text.slice? text (r.opening + 1) (r.opening + 1 + inner.byteLength) = some inner := by
  refine Text.slice?_eq_some_iff.mpr
    ⟨front ++ ['\x7b'], (if r.isClosed then ['\x7d'] else []) ++ back, ?_, ?_, rfl⟩
  · simp [h.text_eq, covered]
  · rw [Text.byteLength_append, h.opening_eq]
    rfl

private theorem slice?_covered :
    Text.slice? text r.opening (r.opening + (r.covered inner).byteLength)
      = some (r.covered inner) :=
  Text.slice?_eq_some_iff.mpr ⟨front, back, h.text_eq, h.opening_eq.symm, rfl⟩

private theorem byteLength_text :
    text.byteLength = r.opening + (r.covered inner).byteLength + back.byteLength := by
  rw [h.text_eq, Text.byteLength_append, Text.byteLength_append, h.opening_eq, Nat.add_assoc]

theorem closing_getD : r.closing.getD text.byteLength = r.opening + 1 + inner.byteLength := by
  cases hclosing : r.closing with
  | some c => exact h.closing_eq c hclosing
  | none =>
    rw [Option.getD_none, h.byteLength_text, h.back_eq_nil hclosing,
      byteLength_covered_of_none hclosing, Text.byteLength_nil]
    omega

variable (hbound : text.byteLength < offsetBound)

include hbound

/-- **The inner text is cut out without a breach.** -/
theorem innerText?_eq : r.innerText? text = .ok inner := by
  have hsize := h.byteLength_text
  have hpos := r.byteLength_covered_pos inner
  have hstart : r.opening + 1 ≤ text.byteLength := by omega
  rw [innerText?_eq_slice? (Nat.lt_of_le_of_lt hstart hbound), Nat.min_eq_left hstart,
    h.closing_getD, Nat.max_eq_left (Nat.le_add_right _ _), h.slice?_inner]

/-- **The span of a region covers its inner text and the braces around it.** -/
theorem slice?_span :
    ∃ span, r.span? text.byteLength = .ok span ∧ span.slice? text = .ok (r.covered inner) := by
  have hsize := h.byteLength_text
  have hpos := r.byteLength_covered_pos inner
  have hspan : r.span? text.byteLength
      = .ok (.atOffsets r.opening (r.opening + (r.covered inner).byteLength)) := by
    cases hclosing : r.closing with
    | none =>
      rw [h.back_eq_nil hclosing, Text.byteLength_nil, Nat.add_zero] at hsize
      rw [span?_of_closing_eq_none hclosing, Nat.max_eq_left (by omega), hsize]
    | some c =>
      have hc := h.closing_eq c hclosing
      have hcovered := byteLength_covered_of_some hclosing inner
      have hstop : c + 1 = r.opening + (r.covered inner).byteLength := by omega
      rw [span?_of_closing_eq_some hclosing (by omega), Nat.max_eq_left (by omega), hstop]
  refine ⟨_, hspan, ?_⟩
  have hslice := h.slice?_covered
  simp only [Span.slice?, Span.atOffsets, Position.atOffset, hslice]

end Frames

end Region

/-! ## Regions that begin early -/

namespace Folds

/-- Whether a region begins before all closing braces that are left over. -/
def IsEarly (f : Folds) (s : Region) : Prop := ∀ c ∈ f.unbalanced, s.opening < c

instance (f : Folds) : DecidablePred f.IsEarly :=
  fun _ ↦ inferInstanceAs (Decidable (∀ _ ∈ _, _))

private theorem exists_regions_onto {bs : List Brace}
    (hsorted : bs.Pairwise fun b c ↦ b.offset < c.offset) (g : Folds) :
    ∃ before, (onto bs g).regions = before ++ g.regions ∧
      ∀ s ∈ before, ∃ b ∈ bs, b.offset = s.opening := by
  refine ⟨_, congrArg Folds.regions (onto_eq hsorted g), fun s hs ↦ ?_⟩
  obtain ⟨s', hs', rfl⟩ := List.mem_map.mp hs
  obtain ⟨b, hb, -, hoffset⟩ := exists_offset_eq_opening hs'
  exact ⟨b, hb, hoffset.trans (opening_closedBy _ _ s').symm⟩

private theorem inside_front_iff {b : Brace} {bs : List Brace}
    (hsorted : (b :: bs).Pairwise fun b c ↦ b.offset < c.offset) {front s : Region}
    (hopening : front.opening = b.offset)
    (hclosing : front.closing = (ofBraces bs).unbalanced.head?)
    (hs : s ∈ (ofBraces bs).regions) : s.Inside front ↔ (ofBraces bs).IsEarly s := by
  rcases inside_or_disjoint_of_front hsorted hopening hclosing hs with
    ⟨hinside, hbefore⟩ | ⟨hinside, -, c, hc, hlt⟩
  · exact iff_of_true hinside hbefore
  · refine iff_of_false hinside fun hbefore ↦ ?_
    exact Nat.lt_asymm hlt (hbefore c (List.mem_of_mem_head? hc))

/-- **The region of an opening brace** ends at the first closing brace that is left over behind it,
and the regions inside it are those that begin early behind it. -/
theorem filter_inside_eq {before rest : List Brace} {b : Brace}
    (hsorted : (before ++ b :: rest).Pairwise fun b c ↦ b.offset < c.offset)
    (hopens : b.opens = true) {r : Region} (hr : r ∈ (ofBraces (before ++ b :: rest)).regions)
    (hopening : r.opening = b.offset) :
    r.depth = b.depth ∧ r.closing = (ofBraces rest).unbalanced.head? ∧
      (ofBraces (before ++ b :: rest)).regions.filter (fun s ↦ decide (s.Inside r))
        = (ofBraces rest).regions.filter fun s ↦ decide ((ofBraces rest).IsEarly s) := by
  obtain ⟨hbefore, hrest, hapart⟩ := List.pairwise_append.mp hsorted
  obtain ⟨front, hfront, hdepth, hclosing, hcons⟩ := exists_front hopens rest
  obtain ⟨others, hregions, hothers⟩ := exists_regions_onto hbefore (ofBraces (b :: rest))
  rw [← ofBraces_append, hcons] at hregions
  have hlt : ∀ s ∈ others, s.opening < b.offset := by
    intro s hs
    obtain ⟨b', hb', hoffset⟩ := hothers s hs
    exact hoffset ▸ hapart b' hb' b List.mem_cons_self
  have hgt : ∀ s ∈ (ofBraces rest).regions, b.offset < s.opening :=
    fun s hs ↦ offset_lt_opening hrest hs
  -- no other region begins at the brace
  obtain rfl : r = front := by
    rw [hregions] at hr
    rcases List.mem_append.mp hr with hr | hr
    · exact absurd hopening (hlt r hr).ne
    rcases List.mem_cons.mp hr with rfl | hr
    · rfl
    · exact absurd hopening (hgt r hr).ne'
  refine ⟨hdepth, hclosing, ?_⟩
  have hnone : others.filter (fun s ↦ decide (s.Inside r)) = [] :=
    List.filter_eq_nil_iff.mpr fun s hs ↦ by
      simpa using Region.not_inside_of_opening_le (hfront ▸ (hlt s hs).le)
  have hself : ¬r.Inside r := Region.not_inside_of_opening_le le_rfl
  rw [hregions, List.filter_append, hnone, List.nil_append,
    List.filter_cons_of_neg (by simpa using hself)]
  refine List.filter_congr fun s hs ↦ ?_
  rw [decide_eq_decide]
  exact inside_front_iff hrest hfront hclosing hs

end Folds

/-! ## Behind an opening brace -/

/-- Where a region of the inner text of another one lies in the whole text. -/
def Region.within (r s : Region) : Region where
  opening := r.opening + 1 + s.opening
  closing := s.closing.map (r.opening + 1 + ·)
  depth := s.depth + (r.depth + 1)

private theorem Folds.IsEarly.behind_eq {f : Folds} {r s : Region} (h : f.IsEarly s) :
    s.behind (r.opening + 1) (r.depth + 1) f.unbalanced = r.within s := by
  have hzero : f.unbalanced.countP (· < s.opening) = 0 :=
    countP_lt_eq_zero fun c hc ↦ (h c hc).le
  rw [Region.behind, hzero, Nat.min_zero, Nat.sub_zero]
  rfl

private theorem Folds.filter_isEarly_behind {f g : Folds} {r : Region}
    (hg : g = ⟨f.regions.map (Region.behind (r.opening + 1) (r.depth + 1) f.unbalanced),
      f.unbalanced.map (r.opening + 1 + ·)⟩) :
    g.regions.filter (fun s ↦ decide (g.IsEarly s))
      = (f.regions.filter fun s ↦ decide (f.IsEarly s)).map r.within := by
  have hearly : ∀ s : Region,
      g.IsEarly (s.behind (r.opening + 1) (r.depth + 1) f.unbalanced) ↔ f.IsEarly s := by
    simp [hg, IsEarly, Region.behind]
  have hregions : g.regions
      = f.regions.map (Region.behind (r.opening + 1) (r.depth + 1) f.unbalanced) := by rw [hg]
  rw [hregions, List.filter_map]
  simp only [Function.comp_def, hearly]
  exact List.map_congr_left fun s hs ↦ (of_decide_eq_true (List.mem_filter.mp hs).2).behind_eq

private theorem levelAfter_append (level : Nat) (bs cs : List Brace) :
    levelAfter level (bs ++ cs) = levelAfter (levelAfter level bs) cs := by
  induction bs generalizing level with
  | nil => rfl
  | cons b bs ih => exact ih _

variable {skipQuoted : Bool}

private theorem endsOutside_append_opening {front : Text} (h : EndsOutside front) :
    EndsOutside (front ++ ['\x7b']) := by
  rw [endsOutside_iff] at h ⊢
  rw [Quoting.afterText_append, h]
  rfl

private theorem braces_append_opening {front : Text} (h : skipQuoted = true → EndsOutside front)
    (behind : Text) :
    braces skipQuoted (front ++ '\x7b' :: behind) = braces skipQuoted front ++
      ⟨front.byteLength, true, levelAfter 0 (braces skipQuoted front)⟩ ::
        relevel (levelAfter 0 (braces skipQuoted front) + 1)
          ((braces skipQuoted behind).map (.moved (front.byteLength + 1))) := by
  have hbrace : braces skipQuoted ['\x7b'] = [⟨0, true, 0⟩] := by cases skipQuoted <;> rfl
  have hfront : braces skipQuoted (front ++ ['\x7b']) = braces skipQuoted front ++
      [⟨front.byteLength, true, levelAfter 0 (braces skipQuoted front)⟩] := by
    rw [braces_append h, hbrace]
    rfl
  have hlevel : levelAfter 0 (braces skipQuoted (front ++ ['\x7b']))
      = levelAfter 0 (braces skipQuoted front) + 1 := by
    rw [hfront, levelAfter_append]
    rfl
  have hsize : (front ++ ['\x7b']).byteLength = front.byteLength + 1 :=
    Text.byteLength_append front ['\x7b']
  rw [List.append_cons, braces_append fun hskip ↦ endsOutside_append_opening (h hskip), hlevel,
    hsize, hfront, List.append_assoc]
  rfl

/-- **Behind an opening brace** a text folds as it does alone, at other offsets and depths. -/
theorem exists_behind_opening {text : Text} {r : Region}
    (hr : r ∈ (Folds.ofText skipQuoted text).regions) :
    ∃ front behind : Text, text = front ++ '\x7b' :: behind ∧ r.opening = front.byteLength ∧
      r.closing = (Folds.ofText skipQuoted behind).unbalanced.head?.map (r.opening + 1 + ·) ∧
      (Folds.ofText skipQuoted text).regions.filter (fun s ↦ decide (s.Inside r))
        = ((Folds.ofText skipQuoted behind).regions.filter fun s ↦
            decide ((Folds.ofText skipQuoted behind).IsEarly s)).map r.within := by
  obtain ⟨b, hb, hopens, hoffset⟩ := Folds.exists_offset_eq_opening hr
  obtain ⟨front, behind, htext, hfront, hends⟩ := exists_mem_braces_iff.mp ⟨b, hb, hopens, hoffset⟩
  obtain rfl : text = front ++ '\x7b' :: behind := htext
  have hbraces := braces_append_opening hends behind
  have hsorted := pairwise_braces skipQuoted (front ++ '\x7b' :: behind)
  rw [Folds.ofText, hbraces] at hr ⊢
  rw [hbraces] at hsorted
  obtain ⟨hdepth, hclosing, hfilter⟩ := Folds.filter_inside_eq hsorted rfl hr hfront.symm
  -- what follows the brace is read from one level deeper, behind as many bytes
  have hrest := @ofBraces_relevel_moved skipQuoted (front.byteLength + 1)
    (levelAfter 0 (braces skipQuoted front) + 1) behind
  dsimp only at hdepth
  rw [← hdepth, hfront] at hrest
  rw [← hdepth, hfront] at hclosing hfilter
  refine ⟨front, behind, rfl, hfront.symm, ?_, ?_⟩
  · rw [hclosing, hrest, List.head?_map]
  · rw [hfront, ← hdepth, hfilter]
    exact Folds.filter_isEarly_behind hrest

/-! ## Before a closing brace -/

/-- Folding the beginning of a text is truncating what folding the whole finds. -/
private theorem truncate_ofText (skipQuoted : Bool) (front back : Text) :
    (Folds.ofText skipQuoted (front ++ back)).truncate front.byteLength
      = Folds.ofText skipQuoted front := by
  obtain ⟨g, hfold, hregions, hunbalanced⟩ := ofText_append_eq_onto skipQuoted front back
  rw [hfold, Folds.truncate_onto (pairwise_braces skipQuoted front)
    (fun _ ↦ offset_lt_of_mem_braces) hregions hunbalanced]
  rfl

private theorem exists_closing_lt {text : Text} {c : Nat}
    (hc : c ∈ (Folds.ofText skipQuoted text).unbalanced) {s : Region}
    (hs : s ∈ (Folds.ofText skipQuoted text).regions) (hlt : s.opening < c) :
    ∃ d, s.closing = some d ∧ d < c := by
  have hout := Folds.contains_eq_false_of_mem_unbalanced (pairwise_braces skipQuoted text) hc hs
  rcases Region.contains_eq_false_iff.mp hout with hlt' | hd
  · exact absurd hlt (Nat.lt_asymm hlt')
  · exact hd

/-- **Before the first closing brace that is left over** a text folds alone as it does in the whole,
and every brace has its partner. -/
theorem ofText_before_unbalanced {inner back : Text}
    (h : (Folds.ofText skipQuoted (inner ++ back)).unbalanced.head? = some inner.byteLength) :
    Folds.ofText skipQuoted inner = ⟨(Folds.ofText skipQuoted (inner ++ back)).regions.filter
        fun s ↦ decide ((Folds.ofText skipQuoted (inner ++ back)).IsEarly s), []⟩ ∧
      (Folds.ofText skipQuoted inner).isBalanced = true := by
  have hsorted := Folds.pairwise_unbalanced_ofBraces (pairwise_braces skipQuoted (inner ++ back))
  have hends : ∀ s ∈ (Folds.ofText skipQuoted (inner ++ back)).regions,
      s.opening < inner.byteLength → ∃ d, s.closing = some d ∧ d < inner.byteLength :=
    fun _ hs ↦ exists_closing_lt (List.mem_of_mem_head? h) hs
  rw [← truncate_ofText skipQuoted inner back]
  change (Folds.ofText skipQuoted (inner ++ back)).unbalanced.Pairwise (· < ·) at hsorted
  generalize Folds.ofText skipQuoted (inner ++ back) = f at h hsorted hends ⊢
  obtain ⟨waiting, hunbalanced⟩ := List.head?_eq_some_iff.mp h
  rw [hunbalanced, List.pairwise_cons] at hsorted
  -- all braces that are left over stand at the cut or behind it
  have hearly : ∀ s : Region, f.IsEarly s ↔ s.opening < inner.byteLength := by
    intro s
    rw [Folds.IsEarly, hunbalanced, List.forall_mem_cons]
    exact and_iff_left_of_imp fun hlt c hc ↦ hlt.trans (hsorted.1 c hc)
  have hnone : f.unbalanced.filter (fun c ↦ decide (c < inner.byteLength)) = [] := by
    rw [hunbalanced, List.filter_eq_nil_iff, List.forall_mem_cons]
    refine ⟨by simp, fun c hc ↦ ?_⟩
    simpa using (hsorted.1 c hc).le
  -- a region that begins before the cut has ended there, so nothing of it is cut away
  have hkeep : ∀ s ∈ f.regions.filter (fun s ↦ decide (s.opening < inner.byteLength)),
      s.truncate inner.byteLength = s ∧ s.isClosed = true := by
    intro s hs
    obtain ⟨hmem, hlt⟩ := List.mem_filter.mp hs
    obtain ⟨d, hd, hdlt⟩ := hends s hmem (of_decide_eq_true hlt)
    refine ⟨?_, by rw [Region.isClosed, hd]; rfl⟩
    rw [Region.truncate, hd, Option.filter_some_pos (by simpa using hdlt), ← hd]
  have htruncate : f.truncate inner.byteLength
      = ⟨f.regions.filter fun s ↦ decide (s.opening < inner.byteLength), []⟩ := by
    rw [Folds.truncate, hnone, List.map_congr_left fun s hs ↦ (hkeep s hs).1, List.map_id']
  simp only [hearly, htruncate, true_and]
  exact List.all_eq_true.mpr fun s hs ↦ (hkeep s hs).2

private theorem exists_before_unbalanced (skipQuoted : Bool) (text : Text) :
    ∃ inner back : Text, text = inner ++ back ∧
      Folds.ofText skipQuoted inner = ⟨(Folds.ofText skipQuoted text).regions.filter
        fun s ↦ decide ((Folds.ofText skipQuoted text).IsEarly s), []⟩ ∧
      ((Folds.ofText skipQuoted text).unbalanced.head? = none ∧ back = [] ∨
        (Folds.ofText skipQuoted text).unbalanced.head? = some inner.byteLength ∧
          (∃ behind, back = '\x7d' :: behind) ∧
            (Folds.ofText skipQuoted inner).isBalanced = true) := by
  cases hhead : (Folds.ofText skipQuoted text).unbalanced.head? with
  | none =>
    have hnil := List.head?_eq_none_iff.mp hhead
    refine ⟨text, [], (List.append_nil _).symm, ?_, Or.inl ⟨rfl, rfl⟩⟩
    have hall : ∀ s ∈ (Folds.ofText skipQuoted text).regions,
        decide ((Folds.ofText skipQuoted text).IsEarly s) = true := by
      simp [Folds.IsEarly, hnil]
    rw [List.filter_eq_self.mpr hall, ← hnil]
  | some c =>
    obtain ⟨inner, behind, htext, hinner, -⟩ :=
      (mem_closings_iff skipQuoted text).mp (Or.inr (List.mem_of_mem_head? hhead))
    obtain rfl : text = inner ++ '\x7d' :: behind := htext
    rw [← hinner] at hhead ⊢
    obtain ⟨hfold, hbalanced⟩ := ofText_before_unbalanced hhead
    exact ⟨inner, _, rfl, hfold, Or.inr ⟨rfl, ⟨behind, rfl⟩, hbalanced⟩⟩

/-! ## Folding the inner text -/

/-- **The inner text of a region folds as it does in the whole text.** Whatever the choices of the
user are, it is cut out of the text without a breach, and folding it finds the regions inside the
region and no closing brace that is left over; the regions lie in the inner text where they lie in
the whole one, less what is before it. If the region has an end, all braces of the inner text have
their partners. The span of the region covers the inner text and the braces around it. -/
theorem fold_innerText (p : FoldPreferences) {text : Text} (h : text.byteLength < offsetBound)
    {r : Region} (hr : r ∈ (p.fold text).value.regions) :
    ∃ inner, r.innerText? text = .ok inner ∧ (p.fold inner).value.unbalanced = [] ∧
      (p.fold text).value.regions.filter (fun s ↦ decide (s.Inside r))
        = (p.fold inner).value.regions.map r.within ∧
      (r.isClosed = true → (p.fold inner).value.isBalanced = true) ∧
      ∃ span, r.span? text.byteLength = .ok span ∧ span.slice? text = .ok (r.covered inner) := by
  obtain ⟨front, behind, htext, hopening, hclosing, hfilter⟩ := exists_behind_opening hr
  obtain ⟨inner, back, rfl, hinner, hcut⟩ := exists_before_unbalanced p.skipQuotedStrings behind
  have hfold : (p.fold inner).value = Folds.ofText p.skipQuotedStrings inner := rfl
  have hframes : ∃ rest, r.Frames text front inner rest := by
    rcases hcut with ⟨hhead, rfl⟩ | ⟨hhead, ⟨rest, rfl⟩, -⟩
    · rw [hhead] at hclosing
      refine ⟨[], ?_, hopening, by simp [hclosing], fun _ ↦ rfl⟩
      simp [htext, Region.covered, Region.isClosed, hclosing]
    · rw [hhead] at hclosing
      refine ⟨rest, ?_, hopening, by simp [hclosing], by simp [hclosing]⟩
      simp [htext, Region.covered, Region.isClosed, hclosing]
  obtain ⟨rest, hframes⟩ := hframes
  refine ⟨inner, hframes.innerText?_eq h, ?_, ?_, fun hclosed ↦ ?_, hframes.slice?_span h⟩
  · rw [hfold, hinner]
  · rw [hfold, hinner]
    exact hfilter
  · rcases hcut with ⟨hhead, -⟩ | ⟨-, -, hbalanced⟩
    · rw [hhead] at hclosing
      rw [Region.isClosed, hclosing] at hclosed
      cases hclosed
    · exact hbalanced

/-- A region with a closing brace in a string and another region inside it; before it a closing
brace is left over, and behind it a region has no end. -/
theorem fold_innerText_with_string :
    Text.byteLength "\x7d\x7b\"\x7d\"\x7ba\x7d\x7d\x7b".toList < offsetBound ∧
      ⟨1, some 8, 0⟩ ∈ ((⟨true, false⟩ : FoldPreferences).fold
        "\x7d\x7b\"\x7d\"\x7ba\x7d\x7d\x7b".toList).value.regions ∧
      ∃ inner, (⟨1, some 8, 0⟩ : Region).innerText? "\x7d\x7b\"\x7d\"\x7ba\x7d\x7d\x7b".toList
          = .ok inner ∧
        ((⟨true, false⟩ : FoldPreferences).fold inner).value.regions.map
          (Region.within ⟨1, some 8, 0⟩) = [⟨5, some 7, 1⟩] ∧
        ((⟨true, false⟩ : FoldPreferences).fold inner).value.isBalanced = true := by
  have hbound : Text.byteLength "\x7d\x7b\"\x7d\"\x7ba\x7d\x7d\x7b".toList < offsetBound := by
    decide
  have hr : ⟨1, some 8, 0⟩ ∈ ((⟨true, false⟩ : FoldPreferences).fold
      "\x7d\x7b\"\x7d\"\x7ba\x7d\x7d\x7b".toList).value.regions := by decide
  obtain ⟨inner, hinner, -, hregions, hbalanced, -⟩ := fold_innerText ⟨true, false⟩ hbound hr
  exact ⟨hbound, hr, inner, hinner, hregions.symm.trans (by decide), hbalanced rfl⟩

end DumpMode.Folding
