import DumpMode.Folding.Stack
import DumpMode.Proofs.Folding.Concatenation
import Mathlib.Data.List.Induction

/-!
# What waits on the stack

A pass that has come to some place has found the regions of the text in front of it, as if the text
ended there, and its stack lists the places of those without an end, the innermost first
(`Pass.behind`). One more character keeps this up, and is warned about exactly if it is one more
brace that closes nothing (`Pass.exists_step_behind`). So the report that is made on the way is
the one that can be read off the result.

Pairing goes from right to left, so one more brace on the right is all of pairing on top of that
brace alone (`Folds.onto_eq`): an opening one begins a region without an end, and a closing one goes
to the last region that has none.
-/

namespace DumpMode.Folding

/-! ## The last region without an end -/

/-- The places of the regions without an end. -/
def openPlaces (rs : List Region) : List Nat := rs.findIdxs (!·.isClosed)

private theorem openPlaces_append (rs ss : List Region) :
    openPlaces (rs ++ ss) = openPlaces rs ++ ss.findIdxs (!·.isClosed) rs.length := by
  rw [openPlaces, List.findIdxs_append, Nat.zero_add]
  rfl

private theorem findIdxs_eq_nil_of_closed {rs : List Region} (h : ∀ r ∈ rs, r.isClosed = true)
    (k : Nat) : rs.findIdxs (!·.isClosed) k = [] :=
  List.findIdxs_eq_nil_iff.mpr fun r hr ↦ by simp [h r hr]

private theorem openPlaces_of_last {front back : List Region} {r : Region} (hr : r.isClosed = false)
    (hback : ∀ s ∈ back, s.isClosed = true) :
    openPlaces (front ++ r :: back) = openPlaces front ++ [front.length] := by
  rw [openPlaces_append, List.findIdxs_cons, if_pos (by simp [hr]),
    findIdxs_eq_nil_of_closed hback]

private theorem openPlaces_concat (rs : List Region) {r : Region} (hr : r.isClosed = false) :
    openPlaces (rs ++ [r]) = openPlaces rs ++ [rs.length] :=
  openPlaces_of_last hr fun _ h ↦ nomatch h

private theorem openPlaces_append_of_closed (front : List Region) {back : List Region}
    (hback : ∀ s ∈ back, s.isClosed = true) : openPlaces (front ++ back) = openPlaces front := by
  rw [openPlaces_append, findIdxs_eq_nil_of_closed hback, List.append_nil]

private theorem head?_openPlaces_bind (rs : List Region) :
    (openPlaces rs).head?.bind (rs[·]?) = (rs.filter (!·.isClosed)).head? := by
  induction rs with
  | nil => rfl
  | cons r rs ih =>
    rw [openPlaces, List.findIdxs_cons]
    cases hr : r.isClosed with
    | false =>
      rw [if_pos (by rfl), List.filter_cons_of_pos (by simp [hr])]
      rfl
    | true =>
      rw [if_neg (by decide), List.filter_cons_of_neg (by simp [hr]), List.findIdxs_start,
        List.head?_map, Option.bind_map, ← ih]
      rfl

private theorem forall_isClosed_or_exists_last (rs : List Region) :
    (∀ r ∈ rs, r.isClosed = true) ∨ ∃ front r back, rs = front ++ r :: back ∧ r.closing = none ∧
      ∀ s ∈ back, s.isClosed = true := by
  induction rs using List.reverseRecOn with
  | nil => exact .inl fun _ h ↦ nomatch h
  | append_singleton rs r ih =>
    cases hr : r.closing with
    | none => exact .inr ⟨rs, r, [], rfl, hr, fun _ h ↦ nomatch h⟩
    | some c =>
      have hclosed : r.isClosed = true := by rw [Region.isClosed, hr, Option.isSome_some]
      rcases ih with hall | ⟨front, s, back, rfl, hs, hback⟩
      · left
        intro s hs
        rcases List.mem_append.mp hs with hs | hs
        · exact hall s hs
        · exact List.mem_singleton.mp hs ▸ hclosed
      · refine .inr ⟨front, s, back ++ [r], by simp, hs, fun t ht ↦ ?_⟩
        rcases List.mem_append.mp ht with ht | ht
        · exact hback t ht
        · exact List.mem_singleton.mp ht ▸ hclosed

namespace Folds

private theorem length_openPlaces (f : Folds) :
    (openPlaces f.regions).length = f.openRegions.length := by
  rw [openPlaces, List.length_findIdxs, openRegions, List.countP_eq_length_filter]

/-! ## One more brace on the right -/

variable {bs : List Brace} {b : Brace}

private theorem closedBy_of_isClosed {r : Region} (h : r.isClosed = true)
    (opens closings : List Nat) : r.closedBy opens closings = r := by
  rw [Region.closedBy, if_neg]
  intro hnone
  rw [Region.isClosed, hnone] at h
  cases h

private theorem closedBy_of_getElem?_eq_none {r : Region} {opens closings : List Nat}
    (h : closings[opens.reverse.idxOf r.opening]? = none) : r.closedBy opens closings = r := by
  rw [Region.closedBy, h]
  split
  · rename_i hnone
    rw [← hnone]
  · rfl

private theorem map_closedBy_eq_self {rs : List Region} {opens closings : List Nat}
    (h : ∀ r ∈ rs, r.closedBy opens closings = r) : rs.map (Region.closedBy opens closings) = rs :=
  (List.map_congr_left h).trans (List.map_id _)

/-- **One more opening brace** begins a region without an end. -/
private theorem ofBraces_concat_of_opens (hsorted : bs.Pairwise fun b c ↦ b.offset < c.offset)
    (h : b.opens = true) :
    ofBraces (bs ++ [b])
      = ⟨(ofBraces bs).regions ++ [⟨b.offset, none, b.depth⟩], (ofBraces bs).unbalanced⟩ := by
  have hone : ofBraces [b] = ⟨[⟨b.offset, none, b.depth⟩], []⟩ := add_of_opens h _
  have hsame : (ofBraces bs).regions.map (Region.closedBy (ofBraces bs).openOffsets [])
      = (ofBraces bs).regions :=
    map_closedBy_eq_self fun r _ ↦ closedBy_of_getElem?_eq_none List.getElem?_nil
  rw [ofBraces_append, onto_eq hsorted, hone, hsame, List.drop_nil, List.append_nil]

/-- **One more closing brace where all regions have an end** closes nothing. -/
private theorem ofBraces_concat_of_closed (hsorted : bs.Pairwise fun b c ↦ b.offset < c.offset)
    (h : b.opens = false) (hclosed : ∀ r ∈ (ofBraces bs).regions, r.isClosed = true) :
    ofBraces (bs ++ [b])
      = ⟨(ofBraces bs).regions, (ofBraces bs).unbalanced ++ [b.offset]⟩ := by
  have hone : ofBraces [b] = ⟨[], [b.offset]⟩ := add_of_closes h _
  have hnone : (ofBraces bs).openOffsets = [] := by
    rw [openOffsets, openRegions, List.map_eq_nil_iff, List.filter_eq_nil_iff]
    exact fun r hr ↦ by simp [hclosed r hr]
  have hsame : (ofBraces bs).regions.map (Region.closedBy [] [b.offset]) = (ofBraces bs).regions :=
    map_closedBy_eq_self fun r hr ↦ closedBy_of_isClosed (hclosed r hr) _ _
  rw [ofBraces_append, onto_eq hsorted, hone, hnone, hsame, List.append_nil]
  rfl

theorem pairwise_map_opening (hsorted : bs.Pairwise fun b c ↦ b.offset < c.offset) :
    ((ofBraces bs).regions.map (·.opening)).Pairwise (· < ·) := by
  rw [map_opening_regions, List.pairwise_map]
  exact hsorted.filter _

/-- The last region without an end is the first to take a closing brace. -/
private theorem reverse_openOffsets_of_last (front : List Region) (cs : List Nat)
    {back : List Region} {r : Region} (hr : r.closing = none)
    (hback : ∀ s ∈ back, s.isClosed = true) :
    (openOffsets ⟨front ++ r :: back, cs⟩).reverse
      = r.opening :: (openOffsets ⟨front, cs⟩).reverse := by
  have hnil : back.filter (!·.isClosed) = [] :=
    List.filter_eq_nil_iff.mpr fun s hs ↦ by simp [hback s hs]
  have hopen : r.isClosed = false := by rw [Region.isClosed, hr, Option.isSome_none]
  have hfilter : (front ++ r :: back).filter (!·.isClosed)
      = front.filter (!·.isClosed) ++ [r] := by
    rw [List.filter_append, List.filter_cons_of_pos (by simp [hopen]), hnil]
  rw [openOffsets, openRegions, hfilter, List.map_append, List.reverse_append]
  rfl

/-- **One more closing brace** goes to the last region without an end. -/
private theorem ofBraces_concat_of_last (hsorted : bs.Pairwise fun b c ↦ b.offset < c.offset)
    (h : b.opens = false) {front back : List Region} {r : Region}
    (hregions : (ofBraces bs).regions = front ++ r :: back) (hr : r.closing = none)
    (hback : ∀ s ∈ back, s.isClosed = true) :
    ofBraces (bs ++ [b]) =
      ⟨front ++ { r with closing := some b.offset } :: back, (ofBraces bs).unbalanced⟩ := by
  have hone : ofBraces [b] = ⟨[], [b.offset]⟩ := add_of_closes h _
  have hopening := pairwise_map_opening hsorted
  rw [ofBraces_append, onto_eq hsorted, hone]
  generalize ofBraces bs = f at hregions hopening
  obtain ⟨rs, cs⟩ := f
  simp only at hregions hopening
  subst hregions
  have hopens := reverse_openOffsets_of_last front cs hr hback
  -- the last region without an end is asked first, so no other one gets the brace
  have hfront : ∀ s ∈ front, s.closedBy (openOffsets ⟨front ++ r :: back, cs⟩) [b.offset] = s := by
    intro s hs
    have hne : r.opening ≠ s.opening := by
      rw [List.map_append, List.pairwise_append] at hopening
      exact (hopening.2.2 s.opening (List.mem_map_of_mem hs) r.opening List.mem_cons_self).ne'
    refine closedBy_of_getElem?_eq_none ?_
    rw [hopens, List.idxOf_cons_ne _ hne]
    rfl
  have hlast : r.closedBy (openOffsets ⟨front ++ r :: back, cs⟩) [b.offset]
      = { r with closing := some b.offset } := by
    rw [Region.closedBy, if_pos hr, hopens, List.idxOf_cons_self]
    rfl
  have hlength : (openOffsets ⟨front ++ r :: back, cs⟩).length ≠ 0 := by
    rw [← List.length_reverse, hopens]
    exact Nat.succ_ne_zero _
  have hdrop : [b.offset].drop (openOffsets ⟨front ++ r :: back, cs⟩).length = [] :=
    List.drop_eq_nil_of_le (Nat.one_le_iff_ne_zero.mpr hlength)
  rw [List.append_nil, List.map_append, List.map_cons, hlast, map_closedBy_eq_self hfront,
    map_closedBy_eq_self fun s hs ↦ closedBy_of_isClosed (hback s hs) _ _, hdrop, List.append_nil]

end Folds

/-! ## One more character -/

section

variable (skipQuoted : Bool) (text : Text)

/-- **The braces of a text with one more character** are those of the text, and the character if it
is a brace and counts. -/
private theorem braces_concat (c : Char) :
    braces skipQuoted (text ++ [c]) = braces skipQuoted text ++
      (((Reading.start.read skipQuoted text).quoting.opens? skipQuoted c).map fun opens ↦
        ⟨text.byteLength, opens, (openPlaces (Folds.ofText skipQuoted text).regions).length⟩).toList
      := by
  have hoffset : (Reading.start.read skipQuoted text).offset = text.byteLength := by
    rw [Reading.read_eq]
    exact Nat.zero_add _
  have hdepth : (Reading.start.read skipQuoted text).depth
      = (openPlaces (Folds.ofText skipQuoted text).regions).length := by
    rw [Reading.read_eq, Folds.length_openPlaces, ← braces_eq]
    have hlevel := Folds.levelAfter_eq 0 (braces skipQuoted text)
    rw [Nat.zero_sub, Nat.add_zero, Folds.openOffsets, List.length_map] at hlevel
    exact hlevel
  rw [braces_eq, Reading.bracesAhead_append, ← braces_eq, Reading.bracesAhead, Reading.bracesAhead,
    List.append_nil, hoffset, hdepth]

end

namespace Pass

/-! ## Passing a brace -/

/-- The pass that has found some regions on its way to a place. -/
def found (quoting : Quoting) (offset : Nat) (f : Folds) : Pass :=
  ⟨quoting, offset, f.regions, (openPlaces f.regions).reverse, f.unbalanced⟩

section

variable {bs : List Brace} (hsorted : bs.Pairwise fun b c ↦ b.offset < c.offset)
  (quoting : Quoting) (offset : Nat)

include hsorted

private theorem passOpening_found :
    (found quoting offset (.ofBraces bs)).passOpening = found quoting offset
      (.ofBraces (bs ++ [⟨offset, true, (openPlaces (Folds.ofBraces bs).regions).length⟩])) := by
  rw [Folds.ofBraces_concat_of_opens hsorted rfl, found, found, passOpening,
    openPlaces_concat _ rfl, List.reverse_concat, List.length_reverse]

/-- A pass of a closing brace is pairing with one more brace, and there is a warning exactly if that
brace is left over. -/
private theorem exists_passClosing_found (depth : Nat) (warns : Bool) :
    ∃ added : List Nat,
      (found quoting offset (.ofBraces bs)).passClosing warns
        = ⟨found quoting offset (.ofBraces (bs ++ [⟨offset, false, depth⟩])),
          if warns then added.map unbalancedEvent else []⟩ ∧
      (Folds.ofBraces (bs ++ [⟨offset, false, depth⟩])).unbalanced
        = (Folds.ofBraces bs).unbalanced ++ added := by
  rcases forall_isClosed_or_exists_last (Folds.ofBraces bs).regions with
    hclosed | ⟨front, r, back, hregions, hr, hback⟩
  · -- nothing waits
    have hnil : openPlaces (Folds.ofBraces bs).regions = [] := findIdxs_eq_nil_of_closed hclosed 0
    rw [Folds.ofBraces_concat_of_closed hsorted rfl hclosed, passClosing, found, found, hnil]
    refine ⟨[offset], ?_, rfl⟩
    cases warns <;> rfl
  · have hopen : r.isClosed = false := by rw [Region.isClosed, hr, Option.isSome_none]
    have hclosed : ∀ s ∈ { r with closing := some offset } :: back, s.isClosed = true := by
      intro s hs
      rcases List.mem_cons.mp hs with rfl | hs
      · rfl
      · exact hback s hs
    have hplaces : openPlaces (front ++ r :: back) = openPlaces front ++ [front.length] :=
      openPlaces_of_last hopen hback
    have hmodify : (front ++ r :: back).modify front.length
        (fun r ↦ { r with closing := some offset })
        = front ++ { r with closing := some offset } :: back := by
      rw [List.modify_eq_take_drop, List.take_left, List.drop_left]
      rfl
    rw [Folds.ofBraces_concat_of_last hsorted rfl hregions hr hback, passClosing, found, found,
      hregions, hplaces, List.reverse_concat, openPlaces_append_of_closed front hclosed, ← hmodify]
    refine ⟨[], ?_, (List.append_nil _).symm⟩
    cases warns <;> rfl

end

/-! ## The whole pass -/

/-- The pass that has come to the end of a text. -/
def behind (p : FoldPreferences) (text : Text) : Pass :=
  found (Reading.start.read p.skipQuotedStrings text).quoting text.byteLength
    (.ofText p.skipQuotedStrings text)

/-- **What a step does**: it passes the brace that the character is, if it is one and counts. -/
private theorem step_eq (p : FoldPreferences) (s : Pass) (c : Char) :
    s.step p c =
      ((s.quoting.opens? p.skipQuotedStrings c).elim (pure s) fun opens ↦
        if opens then pure s.passOpening else s.passClosing p.logUnbalanced) >>=
      fun seen ↦ pure (seen.advance p.skipQuotedStrings c) := by
  rw [step, Quoting.opens?, look]
  cases p.skipQuotedStrings && s.quoting.covers c with
  | true => rfl
  | false =>
    by_cases hopen : c = '\x7b'
    · simp [hopen]
    by_cases hclose : c = '\x7d'
    · simp [hclose]
    · simp [hopen, hclose]

private theorem behind_concat (p : FoldPreferences) (text : Text) (c : Char) :
    behind p (text ++ [c]) =
      (found (behind p text).quoting text.byteLength
        (.ofText p.skipQuotedStrings (text ++ [c]))).advance p.skipQuotedStrings c := by
  rw [behind, Reading.read_append, Reading.read_cons, Reading.read_nil, Reading.step_eq,
    Text.byteLength_append]
  rfl

/-- **One step**: a pass that has found what there is in a text finds what there is with one more
character, and warns about exactly the closing brace that is left over by it, if one is. -/
private theorem exists_step_behind (p : FoldPreferences) (text : Text) (c : Char) :
    ∃ added : List Nat,
      (behind p text).step p c
        = ⟨behind p (text ++ [c]), if p.logUnbalanced then added.map unbalancedEvent else []⟩ ∧
      (Folds.ofText p.skipQuotedStrings (text ++ [c])).unbalanced
        = (Folds.ofText p.skipQuotedStrings text).unbalanced ++ added := by
  have hsorted := pairwise_braces p.skipQuotedStrings text
  have hquoting : (behind p text).quoting
      = (Reading.start.read p.skipQuotedStrings text).quoting := rfl
  rw [step_eq, Logged.bind_pure_eq, behind_concat, Folds.ofText, braces_concat, hquoting]
  cases (Reading.start.read p.skipQuotedStrings text).quoting.opens? p.skipQuotedStrings c with
  | none =>
    rw [Option.map_none, Option.toList_none, List.append_nil]
    refine ⟨[], ?_, (List.append_nil _).symm⟩
    cases p.logUnbalanced <;> rfl
  | some opens =>
    rw [Option.elim_some, Option.map_some, Option.toList_some]
    cases opens with
    | true =>
      have hpass : (behind p text).passOpening = _ := passOpening_found hsorted _ _
      refine ⟨[], ?_, ?_⟩
      · rw [if_pos rfl, hpass]
        cases p.logUnbalanced <;> rfl
      · rw [Folds.ofBraces_concat_of_opens hsorted rfl]
        exact (List.append_nil _).symm
    | false =>
      obtain ⟨added, hpass, hadded⟩ := exists_passClosing_found hsorted (behind p text).quoting
        text.byteLength (openPlaces (Folds.ofText p.skipQuotedStrings text).regions).length
        p.logUnbalanced
      refine ⟨added, ?_, hadded⟩
      have hpass : (behind p text).passClosing p.logUnbalanced = _ := hpass
      rw [if_neg Bool.false_ne_true, hpass]
      rfl

/-- **A whole run** finds the regions of the text, and warns on the way about the closing braces
that are left over. -/
private theorem foldlM_step (p : FoldPreferences) (text : Text) :
    text.foldlM (step p) start = ⟨behind p text,
      if p.logUnbalanced then
        (Folds.ofText p.skipQuotedStrings text).unbalanced.map unbalancedEvent
      else []⟩ := by
  induction text using List.reverseRecOn with
  | nil => cases p.logUnbalanced <;> rfl
  | append_singleton text c ih =>
    obtain ⟨added, hstep, hadded⟩ := exists_step_behind p text c
    have hlast : [c].foldlM (step p) (behind p text) = (behind p text).step p c := by
      rw [List.foldlM_cons]
      exact bind_pure _
    rw [List.foldlM_append, ih, Logged.mk_bind, hlast, hstep, hadded, List.map_append]
    cases p.logUnbalanced <;> rfl

/-- What is left on the stack belongs to the regions without an end. -/
private theorem unterminated?_behind (p : FoldPreferences) (text : Text) :
    (behind p text).unterminated? = 
      (Folds.ofText p.skipQuotedStrings text).openRegions.head?.map fun r ↦
        unterminatedEvent (Folds.ofText p.skipQuotedStrings text).openRegions.length r.opening := by
  rw [unterminated?, behind, found, List.getLast?_reverse, head?_openPlaces_bind,
    List.length_reverse, Folds.length_openPlaces]
  rfl

private theorem finish_behind (p : FoldPreferences) (text : Text) :
    (behind p text).finish p = ⟨.ofText p.skipQuotedStrings text,
      (if p.logUnbalanced then
        ((Folds.ofText p.skipQuotedStrings text).openRegions.head?.map fun r ↦
          unterminatedEvent (Folds.ofText p.skipQuotedStrings text).openRegions.length
            r.opening).toList
      else []) ++ [foldedEvent (.ofText p.skipQuotedStrings text)]⟩ := by
  have hwaiting : (behind p text).waiting.length
      = (Folds.ofText p.skipQuotedStrings text).openRegions.length :=
    List.length_reverse.trans (Folds.length_openPlaces _)
  have hcounts : countsEvent (behind p text).regions.length (behind p text).waiting.length
      (behind p text).unbalanced.length = foldedEvent (.ofText p.skipQuotedStrings text) := by
    rw [hwaiting]
    rfl
  rw [finish, unterminated?_behind, hcounts]
  cases p.logUnbalanced with
  | false => rfl
  | true => cases (Folds.ofText p.skipQuotedStrings text).openRegions.head? <;> rfl

end Pass

end DumpMode.Folding

namespace DumpMode.FoldPreferences

open Folding

/-- **Both ways to fold a text agree**, in what they find and in what they report. -/
theorem foldByStack_eq_fold (p : FoldPreferences) (text : Text) :
    p.foldByStack text = p.fold text := by
  rw [foldByStack, Pass.foldlM_step, Logged.mk_bind, Pass.finish_behind, fold, warnings]
  cases p.logUnbalanced <;> simp

end DumpMode.FoldPreferences
