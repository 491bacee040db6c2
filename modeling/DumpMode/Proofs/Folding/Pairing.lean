import DumpMode.Folding.Pairing
import DumpMode.Proofs.Folding.Braces
import Mathlib.Data.List.Nodup
import Mathlib.Order.Bounds.Basic

/-!
# What pairing does

`Folds.ofBraces` pairs braces from right to left, and what it leaves unpaired at any time is a list
of closing braces that wait for an opening one further to the left. The invariant that says which
ones they are is about counts: the brace that waits in place `k` is the first one behind which
there have been `k + 1` more closing braces than opening ones (`getElem?_unbalanced_eq_some_iff`).
An opening brace takes the first that waits, so its partner is the first brace behind which one
more brace has been closed than opened since.

That every closing brace is used exactly once is a separate and simpler fact: pairing only
rearranges them (`perm_closings`).
-/

namespace DumpMode.Folding

namespace Folds

/-! ## One more brace on the left -/

theorem add_of_opens {b : Brace} (h : b.opens = true) (f : Folds) :
    f.add b = ⟨⟨b.offset, f.unbalanced.head?, b.depth⟩ :: f.regions, f.unbalanced.tail⟩ := by
  obtain ⟨regions, unbalanced⟩ := f
  rw [add, if_pos h]
  cases unbalanced <;> rfl

theorem add_of_closes {b : Brace} (h : b.opens = false) (f : Folds) :
    f.add b = ⟨f.regions, b.offset :: f.unbalanced⟩ := by
  rw [add, h]
  rfl

variable {bs : List Brace}

theorem map_opening_regions (bs : List Brace) :
    (ofBraces bs).regions.map (·.opening) = (bs.filter (·.opens)).map (·.offset) := by
  induction bs with
  | nil => rfl
  | cons b bs ih =>
    rw [ofBraces_cons]
    cases hb : b.opens with
    | true => rw [add_of_opens hb, List.filter_cons_of_pos hb, List.map_cons, List.map_cons, ih]
    | false => rw [add_of_closes hb, List.filter_cons_of_neg (by simp [hb]), ih]

/-- **Pairing only rearranges the closing braces**: each of them closes one region or is left over,
and nothing else closes a region or is left over. -/
theorem perm_closings (bs : List Brace) :
    ((ofBraces bs).regions.filterMap (·.closing) ++ (ofBraces bs).unbalanced).Perm
      ((bs.filter (!·.opens)).map (·.offset)) := by
  induction bs with
  | nil => exact .nil
  | cons b bs ih =>
    rw [ofBraces_cons]
    cases hb : b.opens with
    | true =>
      rw [add_of_opens hb, List.filter_cons_of_neg (by simp [hb])]
      refine List.Perm.trans ?_ ih
      cases (ofBraces bs).unbalanced with
      | nil => exact .refl _
      | cons c waiting => exact List.perm_middle.symm
    | false =>
      rw [add_of_closes hb, List.filter_cons_of_pos (by simp [hb]), List.map_cons]
      exact List.perm_middle.trans (ih.cons _)

theorem unbalanced_sublist (bs : List Brace) :
    (ofBraces bs).unbalanced.Sublist ((bs.filter (!·.opens)).map (·.offset)) := by
  induction bs with
  | nil => exact .slnil
  | cons b bs ih =>
    rw [ofBraces_cons]
    cases hb : b.opens with
    | true =>
      rw [add_of_opens hb, List.filter_cons_of_neg (by simp [hb])]
      exact (List.tail_sublist _).trans ih
    | false =>
      rw [add_of_closes hb, List.filter_cons_of_pos (by simp [hb]), List.map_cons]
      exact ih.cons_cons _

end Folds

/-! ## Counting braces -/

/-- The number of braces behind one offset and up to another that open, or that close. -/
def countBetween (bs : List Brace) (opens : Bool) (start stop : Nat) : Nat :=
  bs.countP fun b ↦ b.opens == opens && decide (start < b.offset ∧ b.offset ≤ stop)

/-- The offsets up to which, from a start, some more braces have been closed than opened. -/
def excessAt (bs : List Brace) (start excess : Nat) : Set Nat :=
  {x | start < x ∧ countBetween bs false start x = countBetween bs true start x + excess}

section Count

variable {b : Brace} {bs : List Brace} {opens : Bool} {start stop : Nat}

private theorem countBetween_eq_zero (h : ∀ b ∈ bs, stop < b.offset) :
    countBetween bs opens start stop = 0 := by
  rw [countBetween, List.countP_eq_zero]
  intro b hb
  have hlt := h b hb
  simp only [Bool.and_eq_true, decide_eq_true_eq]
  omega

private theorem countBetween_cons_of_le (h : b.offset ≤ start) :
    countBetween (b :: bs) opens start stop = countBetween bs opens start stop := by
  have hnot : ¬(start < b.offset ∧ b.offset ≤ stop) := by omega
  rw [countBetween, List.countP_cons_of_neg (by simp [hnot])]
  rfl

private theorem countBetween_cons_of_lt (h : start < b.offset) :
    countBetween (b :: bs) opens start stop
      = countBetween bs opens start stop + if b.opens = opens ∧ b.offset ≤ stop then 1 else 0 := by
  rw [countBetween, List.countP_cons]
  simp [countBetween, h]

variable (hsorted : (b :: bs).Pairwise fun b c ↦ b.offset < c.offset) (hstart : start < b.offset)

include hsorted hstart

private theorem countBetween_cons_cases (stop : Nat) :
    (stop < b.offset ∧ (∀ opens, countBetween (b :: bs) opens start stop = 0) ∧
      ∀ opens, countBetween bs opens start stop = 0) ∨
    (b.offset ≤ stop ∧ countBetween (b :: bs) b.opens start stop
        = countBetween bs b.opens start stop + 1 ∧
      countBetween (b :: bs) (!b.opens) start stop = countBetween bs (!b.opens) start stop) := by
  have hlater := (List.pairwise_cons.mp hsorted).1
  rcases Nat.lt_or_ge stop b.offset with hlt | hge
  · have hzero : ∀ c ∈ b :: bs, stop < c.offset := by
      intro c hc
      rcases List.mem_cons.mp hc with rfl | hc
      · exact hlt
      · exact hlt.trans (hlater c hc)
    exact Or.inl ⟨hlt, fun _ ↦ countBetween_eq_zero hzero,
      fun _ ↦ countBetween_eq_zero fun c hc ↦ hzero c (List.mem_cons_of_mem _ hc)⟩
  · refine Or.inr ⟨hge, ?_, ?_⟩
    · rw [countBetween_cons_of_lt hstart, if_pos ⟨rfl, hge⟩]
    · rw [countBetween_cons_of_lt hstart, if_neg (by simp), Nat.add_zero]

private theorem excessAt_cons_of_opens (h : b.opens = true) (k : Nat) :
    excessAt (b :: bs) start (k + 1) = excessAt bs start (k + 2) := by
  ext x
  have hcases := countBetween_cons_cases hsorted hstart x
  rw [h] at hcases
  simp only [excessAt, Set.mem_ofPred_eq, and_congr_right_iff]
  intro _
  rcases hcases with ⟨-, hcons, hrest⟩ | ⟨-, htrue, hfalse⟩
  · rw [hcons, hcons, hrest, hrest]
    omega
  · rw [htrue]
    rw [show countBetween (b :: bs) false start x = countBetween bs false start x from hfalse]
    omega

private theorem excessAt_cons_of_closes (h : b.opens = false) (k : Nat) :
    excessAt (b :: bs) start (k + 2) = excessAt bs start (k + 1) := by
  ext x
  have hcases := countBetween_cons_cases hsorted hstart x
  rw [h] at hcases
  simp only [excessAt, Set.mem_ofPred_eq, and_congr_right_iff]
  intro _
  rcases hcases with ⟨-, hcons, hrest⟩ | ⟨-, hfalse, htrue⟩
  · rw [hcons, hcons, hrest, hrest]
    omega
  · rw [hfalse]
    rw [show countBetween (b :: bs) true start x = countBetween bs true start x from htrue]
    omega

/-- A closing brace on the left is where the excess becomes one. -/
private theorem isLeast_excessAt_cons (h : b.opens = false) :
    IsLeast (excessAt (b :: bs) start 1) b.offset := by
  have hlater := (List.pairwise_cons.mp hsorted).1
  refine ⟨⟨hstart, ?_⟩, fun x hx ↦ ?_⟩
  · rw [countBetween_cons_of_lt hstart, countBetween_cons_of_lt hstart,
      countBetween_eq_zero hlater, countBetween_eq_zero hlater]
    simp [h]
  · rcases countBetween_cons_cases hsorted hstart x with ⟨-, hcons, -⟩ | ⟨hge, -⟩
    · have := hx.2
      rw [hcons, hcons] at this
      omega
    · exact hge

end Count

/-! ## Which braces wait, and for whom -/

namespace Folds

variable {bs : List Brace}

/-- **The invariant of pairing**: the closing brace that waits in place `k` is the first one up to
which `k + 1` more braces have been closed than opened. -/
theorem getElem?_unbalanced_eq_some_iff (hsorted : bs.Pairwise fun b c ↦ b.offset < c.offset)
    {start : Nat} (hstart : ∀ b ∈ bs, start < b.offset) {k c : Nat} :
    (ofBraces bs).unbalanced[k]? = some c ↔ IsLeast (excessAt bs start (k + 1)) c := by
  induction bs generalizing k with
  | nil =>
    constructor
    · intro h
      simp at h
    · rintro ⟨⟨-, h⟩, -⟩
      simp [countBetween] at h
  | cons b bs ih =>
    have hb : start < b.offset := hstart b List.mem_cons_self
    have ih := @ih (List.pairwise_cons.mp hsorted).2
      fun c hc ↦ hstart c (List.mem_cons_of_mem _ hc)
    rw [ofBraces_cons]
    cases hopens : b.opens with
    | true =>
      rw [add_of_opens hopens, excessAt_cons_of_opens hsorted hb hopens, ← ih, List.getElem?_tail]
    | false =>
      rw [add_of_closes hopens]
      -- the new brace waits in front of all others
      cases k with
      | zero =>
        have hleast := isLeast_excessAt_cons hsorted hb hopens
        rw [List.getElem?_cons_zero, Option.some.injEq]
        exact ⟨fun h ↦ h ▸ hleast, fun h ↦ hleast.unique h⟩
      | succ k =>
        rw [List.getElem?_cons_succ, excessAt_cons_of_closes hsorted hb hopens, ← ih]

theorem exists_offset_eq_opening {r : Region} (hr : r ∈ (ofBraces bs).regions) :
    ∃ b ∈ bs, b.opens = true ∧ b.offset = r.opening := by
  have hmem : r.opening ∈ (bs.filter (·.opens)).map (·.offset) :=
    map_opening_regions bs ▸ List.mem_map_of_mem hr
  obtain ⟨b, hb, hoffset⟩ := List.mem_map.mp hmem
  obtain ⟨hb, hopens⟩ := List.mem_filter.mp hb
  exact ⟨b, hb, hopens, hoffset⟩

theorem exists_offset_eq_closing {r : Region} (hr : r ∈ (ofBraces bs).regions) {c : Nat}
    (hc : r.closing = some c) : ∃ b ∈ bs, b.offset = c := by
  have hmem : c ∈ (ofBraces bs).regions.filterMap (·.closing) ++ (ofBraces bs).unbalanced :=
    List.mem_append_left _ (List.mem_filterMap.mpr ⟨r, hr, hc⟩)
  obtain ⟨b, hb, hoffset⟩ := List.mem_map.mp ((perm_closings bs).subset hmem)
  exact ⟨b, List.mem_of_mem_filter hb, hoffset⟩

theorem exists_offset_eq_of_mem_unbalanced {c : Nat} (hc : c ∈ (ofBraces bs).unbalanced) :
    ∃ b ∈ bs, b.offset = c := by
  obtain ⟨b, hb, hoffset⟩ := List.mem_map.mp ((unbalanced_sublist bs).subset hc)
  exact ⟨b, List.mem_of_mem_filter hb, hoffset⟩

/-- **The partner of an opening brace** is the first brace up to which, since then, one more brace
has been closed than opened. -/
theorem closing_eq_some_iff (hsorted : bs.Pairwise fun b c ↦ b.offset < c.offset) {r : Region}
    (hr : r ∈ (ofBraces bs).regions) {c : Nat} :
    r.closing = some c ↔ IsLeast (excessAt bs r.opening 1) c := by
  induction bs with
  | nil => simp at hr
  | cons b bs ih =>
    obtain ⟨hlater, hrest⟩ := List.pairwise_cons.mp hsorted
    -- counts behind the opening of `r` do not see a brace that is not behind it
    have hskip : b.offset ≤ r.opening →
        excessAt (b :: bs) r.opening 1 = excessAt bs r.opening 1 := by
      intro hle
      ext x
      rw [excessAt, excessAt, Set.mem_ofPred_eq, Set.mem_ofPred_eq, countBetween_cons_of_le hle,
        countBetween_cons_of_le hle]
    have hold : r ∈ (ofBraces bs).regions →
        (r.closing = some c ↔ IsLeast (excessAt (b :: bs) r.opening 1) c) := by
      intro hr
      obtain ⟨b', hb', -, hoffset⟩ := exists_offset_eq_opening hr
      rw [hskip (hoffset ▸ (hlater b' hb').le), ih hrest hr]
    rw [ofBraces_cons] at hr
    cases hopens : b.opens with
    | true =>
      rw [add_of_opens hopens] at hr
      rcases List.mem_cons.mp hr with rfl | hr
      · rw [hskip le_rfl, ← getElem?_unbalanced_eq_some_iff hrest hlater, List.head?_eq_getElem?]
      · exact hold hr
    | false =>
      rw [add_of_closes hopens] at hr
      exact hold hr

end Folds

end DumpMode.Folding
