import DumpMode.Proofs.Folding.Nesting
import Mathlib.Data.List.Induction

/-!
# The innermost region around an offset

A region is looked up by going through all regions from the last to the first, and by taking the
first that contains the offset. That this is the innermost one is due to the order and the nesting
of regions. No two regions that contain one offset are disjoint, so of any two of them the later
one lies inside the earlier, and the regions around an offset form a chain (`pairwise_around`).
Whatever one of them lies inside contains the offset as well, so its depth, which counts the
regions around it, is its number in the chain (`map_depth_around`).
-/

namespace DumpMode.Folding

/-! ## Chains of regions -/

/-- Of regions that lie inside one another, each lies inside as many as come before it. -/
private theorem map_countP_inside {chain : List Region} (h : chain.Pairwise fun r s ↦ s.Inside r) :
    chain.map (fun r ↦ chain.countP fun s ↦ decide (r.Inside s)) = List.range chain.length := by
  induction chain using List.reverseRecOn with
  | nil => rfl
  | append_singleton chain last ih =>
    obtain ⟨hchain, -, hlast⟩ := List.pairwise_append.mp h
    have hin : ∀ r ∈ chain, last.Inside r := fun r hr ↦ hlast r hr last List.mem_cons_self
    -- the last region lies inside all others, and none of these inside it
    have hall : chain.countP (fun s ↦ decide (last.Inside s)) = chain.length :=
      List.countP_eq_length.mpr fun r hr ↦ decide_eq_true (hin r hr)
    have hself : ¬last.Inside last := Region.not_inside_of_opening_le le_rfl
    have hout : ∀ r ∈ chain, ¬r.Inside last :=
      fun r hr ↦ Region.not_inside_of_opening_le (hin r hr).1.1.le
    rw [List.map_append, List.map_singleton, List.length_append, List.length_singleton,
      List.range_succ, ← ih hchain, List.countP_append, hall,
      List.countP_singleton, if_neg (by simpa using hself), Nat.add_zero]
    congr 1
    refine List.map_congr_left fun r hr ↦ ?_
    rw [List.countP_append, List.countP_singleton, if_neg (by simpa using hout r hr), Nat.add_zero]

/-! ## The regions around an offset -/

namespace Region

/-- Whether an offset is at one of the braces of a region or between them. A missing closing brace
is behind every offset. -/
def Covers (r : Region) (offset : Nat) : Prop := r.opening ≤ offset ∧ ∀ c ∈ r.closing, offset ≤ c

instance (r : Region) : DecidablePred r.Covers :=
  fun _ ↦ inferInstanceAs (Decidable (_ ∧ _))

private theorem contains_eq_decide (r : Region) (offset : Nat) :
    r.contains offset = decide (r.Covers offset) := by
  rw [Bool.eq_iff_iff, decide_eq_true_iff]
  exact contains_iff

private theorem Inside.covers {r s : Region} {offset : Nat} (h : s.Inside r)
    (hs : s.Covers offset) : r.Covers offset := by
  obtain ⟨hopening, hclosing, hopen⟩ := h
  refine ⟨hopening.1.le.trans hs.1, fun c hc ↦ ?_⟩
  cases hd : s.closing with
  | none => cases (hopen hd).symm.trans hc
  | some d => exact (hs.2 d hd).trans ((hclosing d hd).2 c hc).le

private theorem not_disjoint_of_covers {r s : Region} {offset : Nat} (hr : r.Covers offset)
    (hs : s.Covers offset) : ¬r.Disjoint s := by
  intro h
  have hfalse := h offset (contains_iff.mpr hr)
  exact Bool.false_ne_true (hfalse.symm.trans (contains_iff.mpr hs))

end Region

namespace Folds

def around (f : Folds) (offset : Nat) : List Region :=
  f.regions.filter fun r ↦ decide (r.Covers offset)

/-- Looking a region up finds the innermost one. -/
structure FindsInnermost (f : Folds) (offset : Nat) : Prop where
  regionAt?_eq_none_iff : f.regionAt? offset = none ↔ f.around offset = []
  /-- What is found is one of the regions around the offset, the others have lower depths, and
  there are as many of them as it is deep. -/
  of_regionAt?_eq_some : ∀ r, f.regionAt? offset = some r →
    r ∈ f.around offset ∧ (∀ s ∈ f.around offset, s ≠ r → s.depth < r.depth) ∧
      (f.around offset).length = r.depth + 1
  map_depth_around : (f.around offset).map (·.depth) = List.range (f.around offset).length
  /-- They lie inside one another, the later in the earlier. -/
  pairwise_around : (f.around offset).Pairwise fun r s ↦ s.Inside r

variable {f : Folds} {offset : Nat}

private theorem regionAt?_eq_getLast? (f : Folds) (offset : Nat) :
    f.regionAt? offset = (f.around offset).getLast? := by
  have hcovers : (fun r : Region ↦ r.contains offset) = fun r ↦ decide (r.Covers offset) :=
    funext fun r ↦ r.contains_eq_decide offset
  rw [regionAt?, around, hcovers, ← List.head?_filter, List.filter_reverse, List.head?_reverse]

end Folds

namespace Nested

variable {f : Folds} (h : Nested f) (offset : Nat)

include h

private theorem pairwise_around : (f.around offset).Pairwise fun r s ↦ s.Inside r := by
  refine (h.pairwise_regions.sublist List.filter_sublist).imp_of_mem fun hr hs hrs ↦ ?_
  have hr := of_decide_eq_true (List.mem_filter.mp hr).2
  have hs := of_decide_eq_true (List.mem_filter.mp hs).2
  exact hrs.resolve_right (Region.not_disjoint_of_covers hr hs)

/-- **Depths number the regions around an offset.** -/
theorem map_depth_around :
    (f.around offset).map (·.depth) = List.range (f.around offset).length := by
  rw [← map_countP_inside (h.pairwise_around offset)]
  refine List.map_congr_left fun r hr ↦ ?_
  obtain ⟨hmem, hcovers⟩ := List.mem_filter.mp hr
  rw [h.depth_eq_countP r hmem, Folds.around, List.countP_filter]
  -- regions around `r` are regions around the offset, so only those are counted
  refine List.countP_congr fun s _ ↦ ?_
  have hin : r.Inside s → s.Covers offset := fun hin ↦ hin.covers (of_decide_eq_true hcovers)
  simpa using hin

private theorem findsInnermost : f.FindsInnermost offset where
  regionAt?_eq_none_iff := by
    rw [Folds.regionAt?_eq_getLast?, List.getLast?_eq_none_iff]
  of_regionAt?_eq_some r hr := by
    rw [Folds.regionAt?_eq_getLast?] at hr
    obtain ⟨front, hfront⟩ := List.getLast?_eq_some_iff.mp hr
    have hdepths := h.map_depth_around offset
    rw [hfront, List.map_append, List.length_append, List.map_singleton, List.length_singleton,
      List.range_succ] at hdepths
    obtain ⟨hlower, hlast⟩ := List.append_inj hdepths (by simp)
    have hdepth : r.depth = front.length := List.singleton_inj.mp hlast
    rw [hfront]
    refine ⟨by simp, fun s hs hne ↦ ?_, by simp [hdepth]⟩
    have hs : s ∈ front := by simpa [hne] using hs
    have hmem : s.depth ∈ List.range front.length := hlower ▸ List.mem_map_of_mem hs
    exact hdepth ▸ List.mem_range.mp hmem
  map_depth_around := h.map_depth_around offset
  pairwise_around := h.pairwise_around offset

end Nested

/-- **Looking up an offset finds the innermost region around it.** Whatever the choices of the user
are and wherever the offset lies, the regions around it lie inside one another, one of each depth,
and the deepest of them is found if there is any. -/
theorem findsInnermost_fold (p : FoldPreferences) (text : Text) (offset : Nat) :
    (p.fold text).value.FindsInnermost offset :=
  (Folds.nested_ofBraces (pairwise_braces _ text) (relevel_braces _ text)).findsInnermost offset

/-- Of two regions side by side, an offset at a brace of the one is not in the other. -/
example : ((⟨false, false⟩ : FoldPreferences).fold "\x7b\x7b\x7d\x7b\x7d".toList).value.around 3
    = [⟨0, none, 0⟩, ⟨3, some 4, 1⟩] := by decide

end DumpMode.Folding
